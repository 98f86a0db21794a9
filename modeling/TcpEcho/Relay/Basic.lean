import TcpEcho.Relay.Stream
import TcpEcho.Event.Basic
/- The relay of one connection: each chunk that is read is written back whole before the
   next read. A relay is a state that asks for one call after the other; what answers the
   calls, a script or a socket, is left open. -/
namespace TcpEcho

inductive CloseReason where
  | peerClosed
  | disconnected (kind : FaultKind)
deriving DecidableEq, Repr

/-- The octets and chunks that were written back, and why the relay ended. Neither counter ever
exceeds the number of octets that were read, so 64 bits hold both wherever they hold that. -/
structure Summary where
  bytes : Nat := 0
  chunks : Nat := 0
  reason : CloseReason := .peerClosed
deriving DecidableEq, Repr

structure ConnectionError where
  summary : Summary
  fault : Fault
deriving DecidableEq, Repr

def ConnectionError.text (e : ConnectionError) : String :=
  "connection failed after " ++ Decimal.text e.summary.bytes ++ " bytes: " ++ e.fault.text

inductive Ending where
  | closed (s : Summary)
  | failed (e : ConnectionError)
deriving DecidableEq, Repr

/-- Whether calls wait until the stream is ready or say that it is not. -/
inductive Mode where
  | blocking
  | nonblocking
deriving DecidableEq, Repr

/-- What a write that takes nothing counts as. -/
def Mode.writeZero : Mode → Fault
  | .blocking => .fixed .writeZero "failed to write whole buffer"
  | .nonblocking => .bare .writeZero

/-- A relay reads, or owes the rest of a chunk of so many octets, or has ended. -/
inductive Phase where
  | reading
  | writing (size : Nat) (next : UInt8) (rest : Octets)
  | ended (e : Ending)
deriving DecidableEq, Repr

structure Relay where
  mode : Mode
  chunkSize : Nat
  bytes : Nat := 0
  chunks : Nat := 0
  phase : Phase := .reading
deriving DecidableEq, Repr

namespace Relay

def summary (r : Relay) (reason : CloseReason) : Summary := ⟨r.bytes, r.chunks, reason⟩

def endingOf (r : Relay) (f : Fault) : Ending :=
  if f.isDisconnect then .closed (r.summary (.disconnected f.kind))
  else .failed ⟨r.summary .peerClosed, f⟩

def fail (r : Relay) (f : Fault) : Relay := { r with phase := .ended (r.endingOf f) }

/-- Ends the relay unless the call was only interrupted and is to be made again. -/
def afterFault (r : Relay) (f : Fault) : Relay := if f.isInterrupt then r else r.fail f

def afterRead (r : Relay) : ReadOutcome → Relay
  | .got [] => { r with phase := .ended (.closed (r.summary .peerClosed)) }
  | .got (b :: bs) => { r with phase := .writing (bs.length + 1) b bs }
  | .failed f => r.afterFault f
  | .pending => r

def readEvents : ReadOutcome → List Event
  | .got [] => [.closedByPeer]
  | .got (b :: bs) => [.received (bs.length + 1) (Utf8.lossy (b :: bs))]
  | .failed _ => []
  | .pending => []

def afterWrite (r : Relay) (size : Nat) (owed : Octets) : WriteOutcome → Relay
  | .took 0 => r.fail r.mode.writeZero
  | .took (n + 1) =>
    match owed.drop (n + 1) with
    | [] => { r with bytes := r.bytes + size, chunks := r.chunks + 1, phase := .reading }
    | b :: bs => { r with phase := .writing size b bs }
  | .failed f => r.afterFault f
  | .pending => r

def owed (r : Relay) : Octets :=
  match r.phase with
  | .writing _ b bs => b :: bs
  | _ => []

end Relay

structure Exchange where
  call : Call
  events : List Event
deriving DecidableEq, Repr

namespace Relay

/-- One call of the relay on a scripted stream, if the relay has not ended. -/
inductive Progress where
  | ended (e : Ending)
  | call (x : Exchange) (r : Relay) (s : Script)
deriving DecidableEq, Repr

def advance (r : Relay) (s : Script) : Progress :=
  match r.phase with
  | .ended e => .ended e
  | .reading =>
    let (outcome, s) := s.read r.chunkSize
    .call ⟨.read r.chunkSize outcome, readEvents outcome⟩ (r.afterRead outcome) s
  | .writing size b bs =>
    let (outcome, s) := s.write (b :: bs)
    .call ⟨.write (b :: bs) outcome, []⟩ (r.afterWrite size (b :: bs) outcome) s

def hasEnded (r : Relay) : Bool :=
  match r.phase with
  | .ended _ => true
  | _ => false

/-- Bounds the calls to come: every call takes a step of the script or some octets on their
way, an octet that is read counting once more when it is written, or ends the relay. -/
def weight (r : Relay) (s : Script) : Nat :=
  s.reads.length + s.writes.length + 2 * s.unreadSize + r.owed.length +
    if r.hasEnded then 0 else 1

end Relay
end TcpEcho
