/- The settings of the server, and the sections of a settings file with the values that
   stand for what a file leaves out. -/
namespace TcpEcho

/-- How accepted connections are served: one after the other, or side by side. -/
inductive Runtime where
  | serial
  | concurrent
deriving DecidableEq, Repr

namespace Runtime

def word : Runtime → String
  | .serial => "serial"
  | .concurrent => "concurrent"

def name : Runtime → String
  | .serial => "Serial"
  | .concurrent => "Concurrent"

def ofWord? (s : String) : Option Runtime :=
  if s = "serial" then some .serial else if s = "concurrent" then some .concurrent else none

end Runtime

structure ServerSection where
  host : String := "0.0.0.0"
  port : UInt16 := 1234
  backlog : Int32 := 128
  runtime : Runtime := .serial
  maxConnections : UInt64 := 1024
deriving DecidableEq, Repr

structure RelaySection where
  chunkSize : UInt64 := 1024
deriving DecidableEq, Repr

structure LoggingSection where
  level : String := "info"
deriving DecidableEq, Repr

structure FileSettings where
  server : ServerSection := {}
  relay : RelaySection := {}
  logging : LoggingSection := {}
deriving DecidableEq, Repr

structure Settings where
  host : String
  port : UInt16
  chunkSize : UInt64
  backlog : Int32
  runtime : Runtime
  maxConnections : UInt64
  logLevel : String
deriving DecidableEq, Repr

end TcpEcho
