import TcpEcho.Relay.Run
/- One connection from its first event to its last: the relay and what is logged around it. -/
namespace TcpEcho

/-- The serial runtime waits in its calls; the concurrent one is told when to come back. -/
def Runtime.mode : Runtime → Mode
  | .serial => .blocking
  | .concurrent => .nonblocking

namespace Ending

def events (runtime : Runtime) (peer : String) : Ending → List Event
  | .closed ⟨bytes, chunks, .peerClosed⟩ => [.connectionClosed peer bytes chunks]
  | .closed ⟨bytes, chunks, .disconnected kind⟩ =>
    [.peerDisconnected peer kind, .connectionClosed peer bytes chunks]
  | .failed e =>
    match runtime with
    | .serial => [.connectionError peer (some e.summary.bytes) e.fault.text]
    | .concurrent => [.connectionError peer none e.text]

def summary? : Ending → Option Summary
  | .closed s => some s
  | .failed _ => none

end Ending

structure Connection where
  run : Relay.Run
  log : List Event
  summary : Option Summary
deriving DecidableEq, Repr

def Connection.serve (runtime : Runtime) (peer : String) (chunkSize : Nat) (s : Script) :
    Connection :=
  let run := Relay.run runtime.mode chunkSize s
  { run := run
    log := .newConnection peer :: run.events ++ run.ending.events runtime peer
    summary := run.ending.summary? }

end TcpEcho
