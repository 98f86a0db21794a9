/- The pages that explain the command line. -/
namespace TcpEcho.CommandLine

inductive Page where
  | brief
  | full
  | probe
  | help
deriving DecidableEq, Repr

def briefLines : List String := [
  "A TCP echo server",
  "",
  "Usage: echo-relay [OPTIONS] [COMMAND]",
  "",
  "Commands:",
  "  probe  Send a message to an echo server and check that it comes back unchanged",
  "  help   Print this message or the help of the given subcommand(s)",
  "",
  "Options:",
  "  -c, --config <CONFIG>",
  "          Path to TOML configuration file",
  "  -H, --host <HOST>",
  "          IP address to bind to (e.g., 0.0.0.0)",
  "  -p, --port <PORT>",
  "          Port to bind to",
  "      --chunk-size <CHUNK_SIZE>",
  "          Maximum number of bytes requested per read",
  "      --backlog <BACKLOG>",
  "          Listen backlog for pending connections",
  "  -r, --runtime <RUNTIME>",
  "          Runtime used to serve connections [possible values: serial, concurrent]",
  "      --max-connections <MAX_CONNECTIONS>",
  "          Cap on in-flight connections (concurrent runtime only)",
  "      --log-level <LOG_LEVEL>",
  "          Log level (trace, debug, info, warn, error) [default: info]",
  "  -h, --help",
  "          Print help (see more with '--help')",
  "  -V, --version",
  "          Print version"
]

def fullLines : List String := [
  "A TCP echo server",
  "",
  "Usage: echo-relay [OPTIONS] [COMMAND]",
  "",
  "Commands:",
  "  probe  Send a message to an echo server and check that it comes back unchanged",
  "  help   Print this message or the help of the given subcommand(s)",
  "",
  "Options:",
  "  -c, --config <CONFIG>",
  "          Path to TOML configuration file",
  "",
  "  -H, --host <HOST>",
  "          IP address to bind to (e.g., 0.0.0.0)",
  "",
  "  -p, --port <PORT>",
  "          Port to bind to",
  "",
  "      --chunk-size <CHUNK_SIZE>",
  "          Maximum number of bytes requested per read",
  "",
  "      --backlog <BACKLOG>",
  "          Listen backlog for pending connections",
  "",
  "  -r, --runtime <RUNTIME>",
  "          Runtime used to serve connections",
  "",
  "          Possible values:",
  "          - serial:     One connection at a time on the calling thread",
  "          - concurrent: One tokio task per connection",
  "",
  "      --max-connections <MAX_CONNECTIONS>",
  "          Cap on in-flight connections (concurrent runtime only)",
  "",
  "      --log-level <LOG_LEVEL>",
  "          Log level (trace, debug, info, warn, error) [default: info]",
  "",
  "  -h, --help",
  "          Print help (see a summary with '-h')",
  "",
  "  -V, --version",
  "          Print version"
]

def probeLines : List String := [
  "Send a message to an echo server and check that it comes back unchanged",
  "",
  "Usage: echo-relay probe [OPTIONS]",
  "",
  "Options:",
  "  -t, --target <TARGET>    Server address [default: 127.0.0.1:1234]",
  "  -m, --message <MESSAGE>  Payload to send [default: \"Hello World from echo-relay.\\r\\n\"]",
  "  -h, --help               Print help"
]

def helpLines : List String := [
  "Print this message or the help of the given subcommand(s)",
  "",
  "Usage: echo-relay help [COMMAND]...",
  "",
  "Arguments:",
  "  [COMMAND]...  Print help for the subcommand(s)"
]

def Page.lines : Page → List String
  | .brief => briefLines
  | .full => fullLines
  | .probe => probeLines
  | .help => helpLines

def Page.text (p : Page) : String := String.join (p.lines.map (· ++ "\n"))

def versionText : String := "echo-relay 0.1.0\n"

end TcpEcho.CommandLine
