import TcpEcho.Settings.Basic
/- What a command line can say: the options of the server, and the probe command with
   options of its own. Words are octets, since a path need not be text. -/
namespace TcpEcho.CommandLine

abbrev Word := List UInt8

inductive Level where
  | server
  | probe
deriving DecidableEq, Repr

inductive OptionName where
  | config
  | host
  | port
  | chunkSize
  | backlog
  | runtime
  | maxConnections
  | logLevel
  | target
  | message
deriving DecidableEq, Repr

namespace OptionName

def level : OptionName → Level
  | .target => .probe
  | .message => .probe
  | _ => .server

def long : OptionName → String
  | .config => "config"
  | .host => "host"
  | .port => "port"
  | .chunkSize => "chunk-size"
  | .backlog => "backlog"
  | .runtime => "runtime"
  | .maxConnections => "max-connections"
  | .logLevel => "log-level"
  | .target => "target"
  | .message => "message"

def short : OptionName → Option Char
  | .config => some 'c'
  | .host => some 'H'
  | .port => some 'p'
  | .runtime => some 'r'
  | .target => some 't'
  | .message => some 'm'
  | _ => none

def valueName : OptionName → String
  | .config => "CONFIG"
  | .host => "HOST"
  | .port => "PORT"
  | .chunkSize => "CHUNK_SIZE"
  | .backlog => "BACKLOG"
  | .runtime => "RUNTIME"
  | .maxConnections => "MAX_CONNECTIONS"
  | .logLevel => "LOG_LEVEL"
  | .target => "TARGET"
  | .message => "MESSAGE"

def usage (o : OptionName) : String := "--" ++ o.long ++ " <" ++ o.valueName ++ ">"

def all : List OptionName :=
  [.config, .host, .port, .chunkSize, .backlog, .runtime, .maxConnections, .logLevel,
    .target, .message]

def ofLong? (l : Level) (s : String) : Option OptionName :=
  all.find? fun o => o.level = l ∧ o.long = s

def ofShort? (l : Level) (c : Char) : Option OptionName :=
  all.find? fun o => o.level = l ∧ o.short = some c

end OptionName

structure Probe where
  target : String := "127.0.0.1:1234"
  message : String := "Hello World from echo-relay.\r\n"
deriving DecidableEq, Repr

structure Options where
  config : Option Word := none
  host : Option String := none
  port : Option UInt16 := none
  chunkSize : Option UInt64 := none
  backlog : Option Int32 := none
  runtime : Option Runtime := none
  maxConnections : Option UInt64 := none
  logLevel : Option String := none
  probe : Option Probe := none
deriving DecidableEq, Repr

end TcpEcho.CommandLine
