import Mathlib.Algebra.GroupWithZero.Nat
import TcpEcho.Proofs.Relay.Idle
import TcpEcho.Proofs.Relay.Pieces
/- What the reads of a stream bring before it ends. Steps at which nothing comes do not count,
   and nothing behind the end does. -/
namespace TcpEcho

/-- The octets of a stream as they arrive, and the failure that ends it, if it does not just end. -/
structure Input where
  segments : List Octets
  fault : Option Fault
deriving DecidableEq, Repr

namespace Input

def data (i : Input) : Octets := i.segments.flatten

/-- The chunks that a relay makes of the octets, which are cut where they arrive apart. -/
def cuts (size : Nat) (i : Input) : List Octets := i.segments.flatMap (pieces size)

def ofSteps : List ReadStep → Input
  | [] => ⟨[], none⟩
  | .data [] :: _ => ⟨[], none⟩
  | .data (b :: bs) :: rs => { ofSteps rs with segments := (b :: bs) :: (ofSteps rs).segments }
  | .fail f :: rs => if f.isInterrupt then ofSteps rs else ⟨[], some f⟩
  | .pending :: rs => ofSteps rs

/-- What a read into a buffer of so many octets makes of the input that is still to come. -/
def Meets (size : Nat) (before after : Input) : ReadOutcome → Prop
  | .got [] => before = ⟨[], none⟩
  | .got (b :: bs) =>
    before.cuts size = (b :: bs) :: after.cuts size ∧ before.fault = after.fault
  | .failed f => if f.isInterrupt then before = after else before = ⟨[], some f⟩
  | .pending => before = after

theorem data_eq_flatten_cuts {size : Nat} (positive : 0 < size) (i : Input) :
    (i.cuts size).flatten = i.data := by
  unfold cuts data
  induction i.segments with
  | nil => rfl
  | cons d ds ih =>
    rw [List.flatMap_cons, List.flatten_append, flatten_pieces positive, ih, List.flatten_cons]

theorem Meets.data {size : Nat} {before after : Input} {b : UInt8} {bs : Octets}
    (positive : 0 < size) (h : Meets size before after (.got (b :: bs))) :
    before.data = b :: bs ++ after.data := by
  rw [← data_eq_flatten_cuts positive, h.1, List.flatten_cons, data_eq_flatten_cuts positive]

theorem length_cuts {size : Nat} (positive : 0 < size) (i : Input) :
    (i.cuts size).length = (i.segments.map fun d => (d.length + size - 1) / size).sum := by
  rw [cuts, List.length_flatMap]
  simp only [length_pieces positive]

theorem ofSteps_ready (rs : List ReadStep) :
    ofSteps (rs.filter (· ≠ .pending)) = ofSteps rs := by
  induction rs with
  | nil => rfl
  | cons r rs ih =>
    cases r with
    | data d =>
      have kept : (ReadStep.data d :: rs).filter (· ≠ .pending) =
          .data d :: rs.filter (· ≠ .pending) := rfl
      rw [kept]
      cases d with
      | nil => rfl
      | cons b bs => simp only [ofSteps, ih]
    | fail f =>
      have kept : (ReadStep.fail f :: rs).filter (· ≠ .pending) =
          .fail f :: rs.filter (· ≠ .pending) := rfl
      rw [kept, ofSteps, ih, ofSteps]
    | pending => exact ih

theorem ofSteps_bringing (size : Nat) (d : Octets) (rs : List ReadStep) :
    (ofSteps (ReadStep.bringing d ++ rs)).cuts size = pieces size d ++ (ofSteps rs).cuts size ∧
      (ofSteps (ReadStep.bringing d ++ rs)).fault = (ofSteps rs).fault := by
  cases d with
  | nil =>
    rw [pieces_nil]
    exact ⟨rfl, rfl⟩
  | cons b bs => exact ⟨List.flatMap_cons, rfl⟩

end Input

namespace Script

def input (s : Script) : Input := .ofSteps s.reads

/-- Every write takes something, if not at once. -/
def TakesAll (s : Script) : Prop := ∀ w ∈ s.writes, w.isIdle = true ∨ ∃ n, w = .accept (n + 1)

theorem input_script (mode : Mode) (s : Script) : (mode.script s).input = s.input := by
  cases mode with
  | blocking => exact Input.ofSteps_ready s.reads
  | nonblocking => rfl

theorem TakesAll.script {s : Script} (h : s.TakesAll) (mode : Mode) :
    (mode.script s).TakesAll := by
  cases mode with
  | blocking =>
    intro w member
    exact h w (List.mem_filter.mp member).1
  | nonblocking => exact h

theorem read_meets {size : Nat} (positive : 0 < size) (s : Script) :
    Input.Meets size s.input (s.read size).2.input (s.read size).1 := by
  obtain ⟨reads, writes⟩ := s
  unfold Script.input
  cases reads with
  | nil => rfl
  | cons r rs =>
    cases r with
    | data d =>
      by_cases some_octet : d = []
      · subst some_octet
        simp only [Script.read, List.drop_nil, Input.Meets, Input.ofSteps]
      · -- A step is cut into pieces from its front, so a read takes the first of them.
        have read := Relay.read_bringing size some_octet rs writes
        obtain ⟨whole, end_whole⟩ := Input.ofSteps_bringing size d rs
        obtain ⟨left, end_left⟩ := Input.ofSteps_bringing size (d.drop size) rs
        have bringing : ReadStep.bringing d ++ rs = .data d :: rs := by
          rw [ReadStep.bringing, if_neg some_octet, List.singleton_append]
        rw [bringing] at read whole end_whole
        rw [read]
        cases front : d.take size with
        | nil =>
          rcases List.take_eq_nil_iff.mp front with zero | none
          · omega
          · exact absurd none some_octet
        | cons b bs =>
          constructor
          · rw [whole, left, pieces_of_ne_nil positive some_octet, front, List.cons_append]
          · rw [end_whole, end_left]
    | fail f =>
      simp only [Script.read, Input.Meets, Input.ofSteps]
      split <;> rfl
    | pending => rfl

theorem meets_of_read {size : Nat} (positive : 0 < size) {s s' : Script} {o : ReadOutcome}
    (read : s.read size = (o, s')) : Input.Meets size s.input s'.input o := by
  have meets := read_meets positive s
  rw [read] at meets
  exact meets

theorem length_le_of_read {room : Nat} {s s' : Script} {d : Octets}
    (read : s.read room = (.got d, s')) : d.length ≤ room := by
  unfold Script.read at read
  split at read
  · cases read
    exact Nat.zero_le room
  · split at read
    · rename_i all
      cases read
      exact List.drop_eq_nil_iff.mp all
    · cases read
      exact List.length_take_le room _
  · cases read
  · cases read

theorem TakesAll.write {s : Script} (h : s.TakesAll) {d : Octets} (some_octet : d ≠ []) :
    (s.write d).2.TakesAll ∧ ((∃ n, (s.write d).1 = .took (n + 1)) ∨
      (∃ f, (s.write d).1 = .failed f ∧ f.isInterrupt = true) ∨ (s.write d).1 = .pending) := by
  obtain ⟨b, bs, rfl⟩ := List.exists_cons_of_ne_nil some_octet
  obtain ⟨reads, writes⟩ := s
  cases writes with
  | nil => exact ⟨h, Or.inl ⟨bs.length, rfl⟩⟩
  | cons w ws =>
    have rest : TakesAll ⟨reads, ws⟩ := fun v among => h v (List.mem_cons_of_mem w among)
    have first := h w (by simp)
    cases w with
    | accept n =>
      refine ⟨rest, Or.inl ?_⟩
      obtain ⟨m, same⟩ : ∃ m, n = m + 1 := by simpa [WriteStep.isIdle] using first
      subst same
      exact ⟨min m bs.length, by simp [Script.write]⟩
    | fail f => exact ⟨rest, Or.inr (Or.inl ⟨f, rfl, by simpa [WriteStep.isIdle] using first⟩)⟩
    | pending => exact ⟨rest, Or.inr (Or.inr rfl)⟩

end Script
end TcpEcho
