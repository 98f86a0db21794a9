import TcpEcho.Settings.Schema
import TcpEcho.CommandLine.Options
import TcpEcho.Files
/- The settings that a command line and the file it names give together. -/
namespace TcpEcho

open CommandLine (Options)

inductive InvalidSettings where
  | noChunkSize
  | noConnections
  | tooManyConnections
deriving DecidableEq, Repr

def InvalidSettings.message : InvalidSettings → String
  | .noChunkSize => "chunk_size must be at least 1"
  | .noConnections => "max_connections must be at least 1"
  | .tooManyConnections => "max_connections too large"

inductive LoadError where
  | unreadable (path : List UInt8) (f : Fault)
  | unusable (path : List UInt8) (f : FileFault)
  | invalid (why : InvalidSettings)
deriving DecidableEq, Repr

def LoadError.message : LoadError → String
  | .unreadable path f => "Failed to read config file '" ++ Utf8.lossy path ++ "': " ++ f.text
  | .unusable path f => "Failed to parse config file '" ++ Utf8.lossy path ++ "': " ++ f.message
  | .invalid why => "Invalid configuration: " ++ why.message

def LoadError.dump : LoadError → String
  | .unreadable path f => "FileRead(" ++ Quoted.encodePath path ++ ", " ++ f.dump ++ ")"
  | .unusable path f =>
    "TomlParse(" ++ Quoted.encodePath path ++ ", " ++ Quoted.encode f.message ++ ")"
  | .invalid why => "Invalid(" ++ Quoted.encode why.message ++ ")"

namespace Settings

/-- The greatest number of permits that there can be. -/
def permitLimit : UInt64 := 2305843009213693951

/-- What the command line says holds before what the file says. -/
def merge (o : Options) (f : FileSettings) : Settings where
  host := o.host.getD f.server.host
  port := o.port.getD f.server.port
  chunkSize := o.chunkSize.getD f.relay.chunkSize
  backlog := o.backlog.getD f.server.backlog
  runtime := o.runtime.getD f.server.runtime
  maxConnections := o.maxConnections.getD f.server.maxConnections
  logLevel := o.logLevel.getD f.logging.level

def initial : Settings := merge {} {}

def validate (s : Settings) : Except InvalidSettings Unit :=
  if s.chunkSize = 0 then .error .noChunkSize
  else if s.maxConnections = 0 then .error .noConnections
  else if permitLimit < s.maxConnections then .error .tooManyConnections
  else .ok ()

def decodeText : Except Fault (List UInt8) → Except Fault String
  | .error f => .error f
  | .ok data =>
    match Utf8.decode? data with
    | some s => .ok s
    | none => .error (.fixed .invalidData "stream did not contain valid UTF-8")

def readText (read : FileReader) (path : List UInt8) : Opening (Except Fault String) :=
  (read.open path).map decodeText

def parseText (path : List UInt8) : Except Fault String → Except LoadError FileSettings
  | .error f => .error (.unreadable path f)
  | .ok s => (FileSettings.parse s).mapError (.unusable path)

def fromFile (read : FileReader) (path : List UInt8) : Opening (Except LoadError FileSettings) :=
  (readText read path).map (parseText path)

/-- Merges first and judges afterwards, so an option can mend a value of the file. -/
def judge (o : Options) : Except LoadError FileSettings → Except LoadError Settings
  | .error e => .error e
  | .ok f =>
    let s := merge o f
    match s.validate with
    | .error why => .error (.invalid why)
    | .ok () => .ok s

def loading (o : Options) (read : FileReader) : Opening (Except LoadError Settings) :=
  (o.config.elim { result := .ok {} } (fromFile read)).map (judge o)

def load (o : Options) (read : FileReader) : Except LoadError Settings := (loading o read).result

end Settings
end TcpEcho
