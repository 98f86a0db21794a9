import TcpEcho.Proofs.Relay.Calls
/- Steps of a script that leave a relay as it is: the stream is not ready, or the call is
   interrupted. A run does the same without them, but for the calls that they answer. -/
namespace TcpEcho

def ReadStep.isIdle : ReadStep → Bool
  | .data _ => false
  | .fail f => f.isInterrupt
  | .pending => true

def WriteStep.isIdle : WriteStep → Bool
  | .accept _ => false
  | .fail f => f.isInterrupt
  | .pending => true

/-- A choice of idle steps. -/
structure Idling where
  reads : ReadStep → Bool
  writes : WriteStep → Bool
  reads_idle : ∀ x, reads x = true → x.isIdle = true
  writes_idle : ∀ x, writes x = true → x.isIdle = true

namespace Idling

def notReady : Idling where
  reads := (· = .pending)
  writes := (· = .pending)
  reads_idle := by simp [ReadStep.isIdle]
  writes_idle := by simp [WriteStep.isIdle]

def answers (i : Idling) : Call → Bool
  | .read _ (.got _) => false
  | .read _ (.failed f) => i.reads (.fail f)
  | .read _ .pending => i.reads .pending
  | .write _ (.took _) => false
  | .write _ (.failed f) => i.writes (.fail f)
  | .write _ .pending => i.writes .pending

theorem reads_data (i : Idling) (d : Octets) : i.reads (.data d) = false := by
  cases h : i.reads (.data d) with
  | false => rfl
  | true => simpa [ReadStep.isIdle] using i.reads_idle _ h

theorem writes_accept (i : Idling) (n : Nat) : i.writes (.accept n) = false := by
  cases h : i.writes (.accept n) with
  | false => rfl
  | true => simpa [WriteStep.isIdle] using i.writes_idle _ h

end Idling

namespace Script

def without (i : Idling) (s : Script) : Script where
  reads := s.reads.filter fun x => !i.reads x
  writes := s.writes.filter fun x => !i.writes x

theorem blocking_eq_without (s : Script) : s.blocking = s.without .notReady := by
  simp [blocking, without, Idling.notReady]

theorem blocking_without (i : Idling) (s : Script) :
    (s.without i).blocking = s.blocking.without i := by
  simp [blocking, without, List.filter_filter, Bool.and_comm]

theorem read_without (i : Idling) (room : Nat) (s : Script) :
    (i.answers (.read room (s.read room).1) = true ∧
      (s.read room).2.without i = s.without i) ∨
    (i.answers (.read room (s.read room).1) = false ∧
      (s.without i).read room = ((s.read room).1, (s.read room).2.without i)) := by
  obtain ⟨reads, writes⟩ := s
  cases reads with
  | nil => exact Or.inr ⟨rfl, rfl⟩
  | cons x rs =>
    cases x with
    | data d =>
      right
      cases rest : d.drop room <;>
        simp [Script.read, without, i.reads_data, rest, Idling.answers]
    | fail f =>
      cases chosen : i.reads (.fail f) with
      | true => exact Or.inl ⟨chosen, by simp [Script.read, without, chosen]⟩
      | false => exact Or.inr ⟨chosen, by simp [Script.read, without, chosen]⟩
    | pending =>
      cases chosen : i.reads .pending with
      | true => exact Or.inl ⟨chosen, by simp [Script.read, without, chosen]⟩
      | false => exact Or.inr ⟨chosen, by simp [Script.read, without, chosen]⟩

theorem write_without (i : Idling) (offered : Octets) (s : Script) :
    (i.answers (.write offered (s.write offered).1) = true ∧
      (s.write offered).2.without i = s.without i) ∨
    (i.answers (.write offered (s.write offered).1) = false ∧
      (s.without i).write offered = ((s.write offered).1, (s.write offered).2.without i)) := by
  obtain ⟨reads, writes⟩ := s
  cases writes with
  | nil => exact Or.inr ⟨rfl, rfl⟩
  | cons x ws =>
    cases x with
    | accept n =>
      right
      simp [Script.write, without, i.writes_accept, Idling.answers]
    | fail f =>
      cases chosen : i.writes (.fail f) with
      | true => exact Or.inl ⟨chosen, by simp [Script.write, without, chosen]⟩
      | false => exact Or.inr ⟨chosen, by simp [Script.write, without, chosen]⟩
    | pending =>
      cases chosen : i.writes .pending with
      | true => exact Or.inl ⟨chosen, by simp [Script.write, without, chosen]⟩
      | false => exact Or.inr ⟨chosen, by simp [Script.write, without, chosen]⟩

end Script

namespace Relay

theorem afterFault_of_interrupt {f : Fault} (h : f.isInterrupt = true) (r : Relay) :
    r.afterFault f = r := by
  rcases afterFault_cases r f with ⟨-, same⟩ | ⟨final, -⟩
  · exact same
  · rw [h] at final
    cases final

theorem afterRead_idle {i : Idling} {room : Nat} {o : ReadOutcome}
    (h : i.answers (.read room o) = true) (r : Relay) :
    r.afterRead o = r ∧ readEvents o = [] := by
  cases o with
  | got d => simp [Idling.answers] at h
  | failed f => exact ⟨afterFault_of_interrupt (i.reads_idle _ h) r, rfl⟩
  | pending => exact ⟨rfl, rfl⟩

theorem afterWrite_idle {i : Idling} {offered : Octets} {o : WriteOutcome}
    (h : i.answers (.write offered o) = true) (r : Relay) (size : Nat) :
    r.afterWrite size offered o = r := by
  cases o with
  | took n => simp [Idling.answers] at h
  | failed f => exact afterFault_of_interrupt (i.writes_idle _ h) r
  | pending => rfl

theorem advance_without {r r' : Relay} {s s' : Script} {x : Exchange}
    (call : r.advance s = .call x r' s') (i : Idling) :
    (i.answers x.call = true ∧ r' = r ∧ x.events = [] ∧ s'.without i = s.without i) ∨
    (i.answers x.call = false ∧ r.advance (s.without i) = .call x r' (s'.without i)) := by
  rcases advance_cases call with
    ⟨o, reading, read, rfl, rfl⟩ | ⟨size, b, bs, o, writing, write, rfl, rfl⟩
  · have cut := Script.read_without i r.chunkSize s
    rw [read] at cut
    rcases cut with ⟨chosen, same⟩ | ⟨other, same⟩
    · obtain ⟨stays, quiet⟩ := afterRead_idle chosen r
      exact Or.inl ⟨chosen, stays, quiet, same⟩
    · refine Or.inr ⟨other, ?_⟩
      rw [advance_reading reading, same]
  · have cut := Script.write_without i (b :: bs) s
    rw [write] at cut
    rcases cut with ⟨chosen, same⟩ | ⟨other, same⟩
    · exact Or.inl ⟨chosen, afterWrite_idle chosen r size, rfl, same⟩
    · refine Or.inr ⟨other, ?_⟩
      rw [advance_writing writing, same]

def kept (i : Idling) (xs : List Exchange) : List Exchange :=
  xs.filter fun x => !i.answers x.call

theorem Makes.without {r r' : Relay} {s s' : Script} {xs : List Exchange}
    (h : Makes r s xs r' s') (i : Idling) :
    Makes r (s.without i) (kept i xs) r' (s'.without i) ∧
    (kept i xs).flatMap Exchange.events = xs.flatMap Exchange.events := by
  induction h with
  | none r s => exact ⟨.none r _, rfl⟩
  | @call r r' r'' s s' s'' x xs first rest ih =>
    obtain ⟨makes, events⟩ := ih
    rcases advance_without first i with ⟨chosen, rfl, quiet, same⟩ | ⟨other, step⟩
    · have skip : kept i (x :: xs) = kept i xs := by simp [kept, chosen]
      rw [skip, ← same]
      exact ⟨makes, by simp [events, quiet]⟩
    · have keep : kept i (x :: xs) = x :: kept i xs := by simp [kept, other]
      rw [keep]
      exact ⟨.call step makes, by simp [events]⟩

theorem runFrom_without (r : Relay) (s : Script) (i : Idling) :
    r.runFrom (s.without i) =
      ⟨kept i (r.runFrom s).exchanges, (r.runFrom s).ending, (r.runFrom s).rest.without i⟩ ∧
    (r.runFrom (s.without i)).events = (r.runFrom s).events := by
  obtain ⟨last, makes, ended⟩ := runFrom_makes r s
  obtain ⟨cut, events⟩ := makes.without i
  have run := runFrom_eq_of_makes cut ended
  refine ⟨run, ?_⟩
  rw [run]
  exact events

theorem run_without (mode : Mode) (chunkSize : Nat) (s : Script) (i : Idling) :
    run mode chunkSize (s.without i) =
      ⟨kept i (run mode chunkSize s).exchanges, (run mode chunkSize s).ending,
        (run mode chunkSize s).rest.without i⟩ ∧
    (run mode chunkSize (s.without i)).events = (run mode chunkSize s).events := by
  have same : mode.script (s.without i) = (mode.script s).without i := by
    cases mode with
    | blocking => exact Script.blocking_without i s
    | nonblocking => rfl
  unfold run
  rw [same]
  exact runFrom_without _ _ i

theorem calls_kept (i : Idling) (xs : List Exchange) :
    (kept i xs).map Exchange.call = (xs.map Exchange.call).filter fun c => !i.answers c := by
  simp [kept, List.filter_map, Function.comp_def]

end Relay
end TcpEcho
