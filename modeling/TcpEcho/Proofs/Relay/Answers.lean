import TcpEcho.Proofs.Relay.Pieces
/- Whatever a stream answers to the calls of a relay, there is a script that answers the same. So
   what holds on every script holds of every stream, as far as a relay can tell. -/
namespace TcpEcho

def ReadOutcome.step : ReadOutcome → ReadStep
  | .got d => .data d
  | .failed f => .fail f
  | .pending => .pending

def WriteOutcome.step : WriteOutcome → WriteStep
  | .took n => .accept n
  | .failed f => .fail f
  | .pending => .pending

def Script.answering : List Exchange → Script
  | [] => {}
  | ⟨.read _ o, _⟩ :: xs => { answering xs with reads := o.step :: (answering xs).reads }
  | ⟨.write _ o, _⟩ :: xs => { answering xs with writes := o.step :: (answering xs).writes }

namespace Relay

/-- What a stream may answer to the next call of a relay: no more octets than there is room for or
than are offered, and that it is not ready only if the relay does not wait. -/
inductive Hears : Relay → Exchange → Relay → Prop where
  | read {r : Relay} {o : ReadOutcome} (reading : r.phase = .reading)
      (fits : (Call.read r.chunkSize o).received.length ≤ r.chunkSize)
      (ready : r.mode = .blocking → o ≠ .pending) :
      Hears r ⟨.read r.chunkSize o, readEvents o⟩ (r.afterRead o)
  | write {r : Relay} {size : Nat} {b : UInt8} {bs : Octets} {o : WriteOutcome}
      (writing : r.phase = .writing size b bs)
      (fits : ∀ n, o = .took n → n ≤ (b :: bs).length)
      (ready : r.mode = .blocking → o ≠ .pending) :
      Hears r ⟨.write (b :: bs) o, []⟩ (r.afterWrite size (b :: bs) o)

inductive Heard : Relay → List Exchange → Relay → Prop where
  | none (r : Relay) : Heard r [] r
  | call {r r' r'' : Relay} {x : Exchange} {xs : List Exchange} (first : Hears r x r')
      (rest : Heard r' xs r'') : Heard r (x :: xs) r''

theorem read_step (room : Nat) (o : ReadOutcome) (rs : List ReadStep) (ws : List WriteStep)
    (fits : (Call.read room o).received.length ≤ room) :
    Script.read room ⟨o.step :: rs, ws⟩ = (o, ⟨rs, ws⟩) := by
  cases o with
  | got d =>
    have none_left : d.drop room = [] := List.drop_eq_nil_of_le fits
    simp only [ReadOutcome.step, Script.read, none_left]
  | failed f => rfl
  | pending => rfl

theorem write_step (offered : Octets) (o : WriteOutcome) (rs : List ReadStep)
    (ws : List WriteStep) (fits : ∀ n, o = .took n → n ≤ offered.length) :
    Script.write offered ⟨rs, o.step :: ws⟩ = (o, ⟨rs, ws⟩) := by
  cases o with
  | took n =>
    have all : min n offered.length = n := Nat.min_eq_left (fits n rfl)
    simp only [WriteOutcome.step, Script.write, all]
  | failed f => rfl
  | pending => rfl

theorem Hears.advance {r r' : Relay} {x : Exchange} (h : Hears r x r') (xs : List Exchange) :
    r.advance (Script.answering (x :: xs)) = .call x r' (Script.answering xs) := by
  cases h with
  | read reading fits ready =>
    rw [advance_reading reading, Script.answering, read_step _ _ _ _ fits]
  | write writing fits ready =>
    rw [advance_writing writing, Script.answering, write_step _ _ _ _ fits]

theorem Heard.makes {r r' : Relay} {xs : List Exchange} (h : Heard r xs r') :
    Makes r (Script.answering xs) xs r' {} := by
  induction h with
  | none r => exact .none r _
  | call first rest ih => exact .call (first.advance _) ih

theorem Hears.mode {r r' : Relay} {x : Exchange} (h : Hears r x r') : r'.mode = r.mode := by
  cases h with
  | read reading fits ready => exact (settings_afterRead r _).1
  | write writing fits ready => exact (settings_afterWrite r _ _ _).1

theorem Heard.ready {r r' : Relay} {xs : List Exchange} (h : Heard r xs r')
    (waits : r.mode = .blocking) :
    .pending ∉ (Script.answering xs).reads ∧ .pending ∉ (Script.answering xs).writes := by
  induction h with
  | none r => exact ⟨List.not_mem_nil, List.not_mem_nil⟩
  | call first rest ih =>
    obtain ⟨reads, writes⟩ := ih (first.mode.trans waits)
    cases first with
    | @read o reading fits ready =>
      refine ⟨?_, writes⟩
      rw [Script.answering, List.mem_cons, not_or]
      refine ⟨?_, reads⟩
      cases o with
      | got d => exact nofun
      | failed f => exact nofun
      | pending => exact absurd rfl (ready waits)
    | @write size b bs o writing fits ready =>
      refine ⟨reads, ?_⟩
      rw [Script.answering, List.mem_cons, not_or]
      refine ⟨?_, writes⟩
      cases o with
      | took n => exact nofun
      | failed f => exact nofun
      | pending => exact absurd rfl (ready waits)

theorem run_answering {mode : Mode} {chunkSize : Nat} {xs : List Exchange} {r : Relay}
    {e : Ending} (h : Heard { mode := mode, chunkSize := chunkSize } xs r)
    (ended : r.phase = .ended e) :
    run mode chunkSize (Script.answering xs) = ⟨xs, e, {}⟩ := by
  have script : mode.script (Script.answering xs) = Script.answering xs := by
    cases mode with
    | blocking =>
      obtain ⟨reads, writes⟩ := h.ready rfl
      exact blocking_of_ready reads writes
    | nonblocking => rfl
  rw [run, script]
  exact runFrom_eq_of_makes h.makes ended

end Relay
end TcpEcho
