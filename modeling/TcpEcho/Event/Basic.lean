import TcpEcho.Settings.Basic
import TcpEcho.Fault.Basic
/- What the program logs: the events with their levels, messages and fields. -/
namespace TcpEcho

inductive LogLevel where
  | error
  | warn
  | info
  | debug
  | trace
deriving DecidableEq, Repr

namespace LogLevel

def name : LogLevel → String
  | .error => "ERROR"
  | .warn => "WARN"
  | .info => "INFO"
  | .debug => "DEBUG"
  | .trace => "TRACE"

/-- The number of levels up to this one; the more, the less urgent. -/
def rank : LogLevel → Nat
  | .error => 1
  | .warn => 2
  | .info => 3
  | .debug => 4
  | .trace => 5

end LogLevel

/-- Numbers, texts shown as they are, and texts that a log line shows in quotes. -/
inductive FieldValue where
  | count (n : Nat)
  | plain (s : String)
  | quoted (s : String)
deriving DecidableEq, Repr

inductive Event where
  | starting (host : String) (port : UInt16) (chunkSize : UInt64) (runtime : Runtime)
  | concurrentRuntime (maxConnections : UInt64)
  | listening (address : String)
  | acceptFailed (error : String)
  | newConnection (peer : String)
  | received (bytes : Nat) (data : String)
  | closedByPeer
  | peerDisconnected (peer : String) (kind : FaultKind)
  | connectionClosed (peer : String) (bytes chunks : Nat)
  | connectionError (peer : String) (bytes : Option Nat) (error : String)
  | sendingProbe (peer : String) (bytes : Nat)
  | echoMatched (addr : String) (bytes : Nat)
  | echoMismatch (addr sent echoed : String)
deriving DecidableEq, Repr

namespace Event

def level : Event → LogLevel
  | .acceptFailed _ => .error
  | .connectionError _ _ _ => .warn
  | .echoMismatch _ _ _ => .warn
  | .closedByPeer => .debug
  | .peerDisconnected _ _ => .debug
  | .sendingProbe _ _ => .debug
  | _ => .info

def message : Event → String
  | .starting _ _ _ _ => "Starting echo-relay server"
  | .concurrentRuntime _ => "Using tokio runtime"
  | .listening _ => "Server listening"
  | .acceptFailed _ => "Failed to accept connection"
  | .newConnection _ => "New connection"
  | .received _ _ => "Received"
  | .closedByPeer => "Connection closed by peer"
  | .peerDisconnected _ _ => "Peer disconnected abruptly"
  | .connectionClosed _ _ _ => "Connection closed"
  | .connectionError _ _ _ => "Connection error"
  | .sendingProbe _ _ => "Sending probe"
  | .echoMatched _ _ => "Echo matched"
  | .echoMismatch _ _ _ => "Echo mismatch"

def fields : Event → List (String × FieldValue)
  | .starting host port chunkSize runtime =>
    [("host", .plain host), ("port", .count port.toNat), ("chunk_size", .count chunkSize.toNat),
      ("runtime", .plain runtime.name)]
  | .concurrentRuntime n => [("max_connections", .count n.toNat)]
  | .listening address => [("address", .plain address)]
  | .acceptFailed error => [("error", .plain error)]
  | .newConnection peer => [("peer", .plain peer)]
  | .received bytes data => [("bytes", .count bytes), ("data", .plain data)]
  | .closedByPeer => []
  | .peerDisconnected peer kind => [("peer", .plain peer), ("kind", .plain kind.name)]
  | .connectionClosed peer bytes chunks =>
    [("peer", .plain peer), ("bytes", .count bytes), ("chunks", .count chunks)]
  | .connectionError peer (some bytes) error =>
    [("peer", .plain peer), ("bytes", .count bytes), ("error", .plain error)]
  | .connectionError peer none error => [("peer", .plain peer), ("error", .plain error)]
  | .sendingProbe peer bytes => [("peer", .plain peer), ("bytes", .count bytes)]
  | .echoMatched addr bytes => [("addr", .quoted addr), ("bytes", .count bytes)]
  | .echoMismatch addr sent echoed =>
    [("addr", .quoted addr), ("sent", .quoted sent), ("received", .plain echoed)]

def peer? : Event → Option String
  | .newConnection peer => some peer
  | .peerDisconnected peer _ => some peer
  | .connectionClosed peer _ _ => some peer
  | .connectionError peer _ _ => some peer
  | _ => none

def source (runtime : Runtime) : Event → String
  | .starting _ _ _ _ => "echo_relay"
  | .concurrentRuntime _ => "echo_relay"
  | .received _ _ => "echo_relay::relay"
  | .closedByPeer => "echo_relay::relay"
  | .sendingProbe _ _ => "echo_relay::client"
  | .echoMatched _ _ => "echo_relay::client"
  | .echoMismatch _ _ _ => "echo_relay::client"
  | .acceptFailed _ | .listening _ | .newConnection _ | .peerDisconnected _ _
  | .connectionClosed _ _ _ | .connectionError _ _ _ =>
    match runtime with
    | .serial => "echo_relay::server"
    | .concurrent => "echo_relay::concurrent"

def fieldText (f : String × FieldValue) : String :=
  " " ++ f.1 ++ "=" ++ match f.2 with
    | .count n => Decimal.text n
    | .plain s => s
    | .quoted s => Quoted.encode s

def line (e : Event) : String :=
  e.level.name ++ " " ++ e.message ++ String.join (e.fields.map fieldText)

end Event
end TcpEcho
