import TcpEcho.Relay.Basic
/- Whole runs of a relay on a scripted stream. -/
namespace TcpEcho

def Mode.script (mode : Mode) (s : Script) : Script :=
  match mode with
  | .blocking => s.blocking
  | .nonblocking => s

namespace Relay

theorem weight_afterRead (r : Relay) (s : Script) (h : r.phase = .reading) :
    (r.afterRead (s.read r.chunkSize).1).weight (s.read r.chunkSize).2 < r.weight s := by
  have writes := Script.writes_read r.chunkSize s
  rcases Script.read_cost r.chunkSize s with ⟨e, l, u⟩ | ⟨b, bs, e, l, u⟩ | ⟨e, l, u⟩
  · simp [weight, afterRead, e, owed, hasEnded, writes, h]; omega
  · simp [weight, afterRead, e, owed, hasEnded, writes, h] at u ⊢; omega
  · cases o : (s.read r.chunkSize).1 with
    | got d => exact absurd o (e d)
    | failed f =>
      simp only [afterRead, afterFault]
      split <;> simp [weight, fail, owed, hasEnded, writes, h, u] <;> omega
    | pending => simp [weight, afterRead, owed, hasEnded, writes, h, u]; omega

theorem weight_afterWrite (r : Relay) (s : Script) (size : Nat) (b : UInt8) (bs : Octets)
    (h : r.phase = .writing size b bs) :
    (r.afterWrite size (b :: bs) (s.write (b :: bs)).1).weight (s.write (b :: bs)).2 <
      r.weight s := by
  have reads := Script.reads_write (b :: bs) s
  have unread : (s.write (b :: bs)).2.unreadSize = s.unreadSize := by
    simp [Script.unreadSize, reads]
  have cost := Script.write_cost (b :: bs) s
  have le : (s.write (b :: bs)).2.writes.length ≤ s.writes.length := by omega
  cases o : (s.write (b :: bs)).1 with
  | took n =>
    cases n with
    | zero => simp [weight, afterWrite, fail, owed, hasEnded, reads, unread, h]; omega
    | succ n =>
      simp only [afterWrite]
      split
      · simp [weight, owed, hasEnded, reads, unread, h]; omega
      · rename_i c cs rest
        have size := congrArg List.length rest
        simp at size
        simp [weight, owed, hasEnded, reads, unread, h]; omega
  | failed f =>
    have lt : (s.write (b :: bs)).2.writes.length < s.writes.length := by simp_all
    simp only [afterWrite, afterFault]
    split <;> simp [weight, fail, owed, hasEnded, reads, unread, h] <;> omega
  | pending =>
    have lt : (s.write (b :: bs)).2.writes.length < s.writes.length := by simp_all
    simp [weight, afterWrite, owed, hasEnded, reads, unread, h]; omega

theorem weight_advance {r r' : Relay} {s s' : Script} {x : Exchange}
    (h : r.advance s = .call x r' s') : r'.weight s' < r.weight s := by
  unfold advance at h
  split at h
  · simp at h
  · rename_i e
    simp only [Progress.call.injEq] at h
    obtain ⟨-, rfl, rfl⟩ := h
    exact weight_afterRead r s e
  · rename_i size b bs e
    simp only [Progress.call.injEq] at h
    obtain ⟨-, rfl, rfl⟩ := h
    exact weight_afterWrite r s size b bs e

/-- The calls of a run in order, how it ended, and what was left of the script. -/
structure Run where
  exchanges : List Exchange
  ending : Ending
  rest : Script
deriving DecidableEq, Repr

def Run.calls (run : Run) : List Call := run.exchanges.map Exchange.call

def Run.received (run : Run) : Octets := run.calls.flatMap Call.received

def Run.written (run : Run) : Octets := run.calls.flatMap Call.written

def Run.events (run : Run) : List Event := run.exchanges.flatMap Exchange.events

def runFrom (r : Relay) (s : Script) : Run :=
  match h : r.advance s with
  | .ended e => ⟨[], e, s⟩
  | .call x r' s' =>
    have : r'.weight s' < r.weight s := weight_advance h
    let run := runFrom r' s'
    { run with exchanges := x :: run.exchanges }
termination_by r.weight s

def run (mode : Mode) (chunkSize : Nat) (s : Script) : Run :=
  runFrom { mode := mode, chunkSize := chunkSize } (mode.script s)

end Relay
end TcpEcho
