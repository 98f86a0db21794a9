import Mathlib.Data.List.Basic
import TcpEcho.Proofs.Relay.Calls
/- A relay that finds its input all there cuts it into pieces of its chunk size, and writes
   each of them back whole before it reads the next. -/
namespace TcpEcho

/-- Octets cut into pieces of one size, of which the last may be shorter. -/
def pieces (size : Nat) (d : Octets) : List Octets :=
  if _h : size = 0 ∨ d = [] then [] else d.take size :: pieces size (d.drop size)
termination_by d.length
decreasing_by
  have some_octet := List.length_pos_iff.mpr (not_or.mp _h).2
  have positive := Nat.pos_of_ne_zero (not_or.mp _h).1
  rw [List.length_drop]
  omega

theorem pieces_nil (size : Nat) : pieces size [] = [] := by
  rw [pieces, dif_pos (Or.inr rfl)]

theorem ne_nil_of_mem_pieces {size : Nat} {d p : Octets} (h : p ∈ pieces size d) : p ≠ [] := by
  fun_induction pieces size d with
  | case1 => cases h
  | case2 d some_left ih =>
    rcases List.mem_cons.mp h with rfl | later
    · rw [ne_eq, List.take_eq_nil_iff]
      exact some_left
    · exact ih later

section Pieces

variable {size : Nat} (positive : 0 < size)
include positive

theorem pieces_of_ne_nil {d : Octets} (some_octet : d ≠ []) :
    pieces size d = d.take size :: pieces size (d.drop size) := by
  rw [pieces, dif_neg (by simp [some_octet, Nat.ne_of_gt positive])]

theorem length_drop_lt {d : Octets} (some_octet : d ≠ []) : (d.drop size).length < d.length := by
  have := List.length_pos_iff.mpr some_octet
  rw [List.length_drop]
  omega

theorem flatten_pieces (d : Octets) : (pieces size d).flatten = d := by
  fun_induction pieces size d with
  | case1 d none_left =>
    rcases none_left with zero | rfl
    · omega
    · rfl
  | case2 d _ ih => rw [List.flatten_cons, ih, List.take_append_drop]

theorem length_pieces (d : Octets) : (pieces size d).length = (d.length + size - 1) / size := by
  fun_induction pieces size d with
  | case1 d none_left =>
    rcases none_left with zero | rfl
    · omega
    · exact (Nat.div_eq_of_lt (by simp; omega)).symm
  | case2 d some_left ih =>
    have some_length := List.length_pos_iff.mpr (not_or.mp some_left).2
    rw [List.length_cons, ih, List.length_drop]
    by_cases last : d.length ≤ size
    · rw [Nat.div_eq_of_lt (by omega), Nat.div_eq_of_lt_le (k := 1) (by omega) (by omega)]
    · rw [← Nat.add_div_right _ positive]
      congr 1
      omega

end Pieces

namespace Relay

def echoOf (size : Nat) (p : Octets) : List Exchange :=
  [⟨.read size (.got p), readEvents (.got p)⟩, ⟨.write p (.took p.length), []⟩]

def echoes (size : Nat) (d : Octets) : List Exchange := (pieces size d).flatMap (echoOf size)

theorem written_echoes {size : Nat} (positive : 0 < size) (d : Octets) :
    ((echoes size d).map Exchange.call).flatMap Call.written = d := by
  have each : ∀ p : Octets, ((echoOf size p).map Exchange.call).flatMap Call.written = p := by
    simp [echoOf, Call.written]
  rw [echoes, List.map_flatMap, List.flatMap_assoc]
  simp only [each, List.flatMap_id']
  exact flatten_pieces positive d

theorem readEvents_got {p : Octets} (some_octet : p ≠ []) :
    readEvents (.got p) = [.received p.length (Utf8.lossy p)] := by
  obtain ⟨b, bs, rfl⟩ := List.exists_cons_of_ne_nil some_octet
  rfl

theorem events_echoes (size : Nat) (d : Octets) :
    (echoes size d).flatMap Exchange.events =
      (pieces size d).map fun p => .received p.length (Utf8.lossy p) := by
  have each : ∀ p ∈ pieces size d, (echoOf size p).flatMap Exchange.events =
      [.received p.length (Utf8.lossy p)] := by
    intro p member
    simp [echoOf, readEvents_got (ne_nil_of_mem_pieces member)]
  rw [echoes, List.flatMap_assoc, List.flatMap_congr each, List.map_eq_flatMap]

def credited (r : Relay) (octets chunks : Nat) : Relay :=
  { r with bytes := r.bytes + octets, chunks := r.chunks + chunks }

theorem read_bringing (room : Nat) {d : Octets} (some_octet : d ≠ []) (rest : List ReadStep)
    (writes : List WriteStep) :
    Script.read room ⟨ReadStep.bringing d ++ rest, writes⟩ =
      (.got (d.take room), ⟨ReadStep.bringing (d.drop room) ++ rest, writes⟩) := by
  have bringing : ReadStep.bringing d = [.data d] := if_neg some_octet
  simp only [Script.read, bringing, List.cons_append, List.nil_append]
  split
  · rename_i none_left
    have all := List.take_append_drop room d
    rw [none_left, List.append_nil] at all
    rw [all, none_left]
    rfl
  · rename_i b bs left
    rw [left]
    rfl

theorem makes_echo {r : Relay} (reading : r.phase = .reading) (positive : 0 < r.chunkSize)
    {d : Octets} (some_octet : d ≠ []) (rest : List ReadStep) :
    Makes r ⟨ReadStep.bringing d ++ rest, []⟩ (echoOf r.chunkSize (d.take r.chunkSize))
      (r.credited (d.take r.chunkSize).length 1)
      ⟨ReadStep.bringing (d.drop r.chunkSize) ++ rest, []⟩ := by
  have read := read_bringing r.chunkSize some_octet rest []
  have first := advance_reading reading ⟨ReadStep.bringing d ++ rest, []⟩
  rw [read] at first
  cases piece : d.take r.chunkSize with
  | nil =>
    rcases List.take_eq_nil_iff.mp piece with zero | none
    · omega
    · exact absurd none some_octet
  | cons b bs =>
    rw [piece] at first
    have writing : (r.afterRead (.got (b :: bs))).phase =
        .writing (bs.length + 1) b bs := rfl
    refine .call first (.call (advance_writing writing _) ?_)
    have done : afterWrite (r.afterRead (.got (b :: bs))) (bs.length + 1) (b :: bs)
        (.took (bs.length + 1)) = r.credited (b :: bs).length 1 := by
      simp [afterWrite, afterRead, credited, ← reading]
    rw [Script.write]
    simp only [List.length_cons, done]
    exact .none _ _

theorem makes_append {r r' r'' : Relay} {s s' s'' : Script} {xs ys : List Exchange}
    (first : Makes r s xs r' s') (rest : Makes r' s' ys r'' s'') :
    Makes r s (xs ++ ys) r'' s'' := by
  induction first with
  | none r s => exact rest
  | call step _ ih => exact .call step (ih rest)

theorem makes_echoes {r : Relay} (reading : r.phase = .reading) (positive : 0 < r.chunkSize)
    (d : Octets) (rest : List ReadStep) :
    Makes r ⟨ReadStep.bringing d ++ rest, []⟩ (echoes r.chunkSize d)
      (r.credited d.length (pieces r.chunkSize d).length) ⟨rest, []⟩ := by
  -- The octets that are left may be fewer by a whole piece, so the induction is a strong one.
  induction h : d.length using Nat.strongRecOn generalizing d r with
  | ind n ih =>
    unfold echoes
    by_cases some_octet : d = []
    · subst some_octet h
      rw [pieces_nil]
      exact .none r _
    · have size := congrArg List.length (List.take_append_drop r.chunkSize d)
      rw [List.length_append] at size
      have shorter := length_drop_lt positive some_octet
      have first := makes_echo reading positive some_octet rest
      have later := ih _ (h ▸ shorter) (r := r.credited (d.take r.chunkSize).length 1) reading
        positive (d.drop r.chunkSize) rfl
      rw [pieces_of_ne_nil positive some_octet, List.flatMap_cons]
      have whole := makes_append first later
      have same : (r.credited (d.take r.chunkSize).length 1).credited
          (d.drop r.chunkSize).length (pieces r.chunkSize (d.drop r.chunkSize)).length =
          r.credited n (pieces r.chunkSize (d.drop r.chunkSize)).length.succ := by
        simp only [credited, Relay.mk.injEq, and_true, true_and]
        omega
      rw [List.length_cons, ← Nat.succ_eq_add_one, ← same]
      exact whole

theorem blocking_of_ready {reads : List ReadStep} {writes : List WriteStep}
    (ready : .pending ∉ reads) (open_end : .pending ∉ writes) :
    Mode.blocking.script ⟨reads, writes⟩ = ⟨reads, writes⟩ := by
  have kept_reads : reads.filter (· ≠ .pending) = reads := by
    refine List.filter_eq_self.mpr fun step member => decide_eq_true ?_
    rintro rfl
    exact ready member
  have kept_writes : writes.filter (· ≠ .pending) = writes := by
    refine List.filter_eq_self.mpr fun step member => decide_eq_true ?_
    rintro rfl
    exact open_end member
  rw [Mode.script, Script.blocking, kept_reads, kept_writes]

theorem pending_notMem_bringing (d : Octets) : ReadStep.pending ∉ ReadStep.bringing d := by
  unfold ReadStep.bringing
  split <;> simp

theorem run_to_end {size : Nat} (positive : 0 < size) (d : Octets) :
    run .blocking size ⟨ReadStep.bringing d, []⟩ =
      ⟨echoes size d ++ [⟨.read size (.got []), [.closedByPeer]⟩],
        .closed ⟨d.length, (pieces size d).length, .peerClosed⟩, ⟨[], []⟩⟩ := by
  rw [run, blocking_of_ready (pending_notMem_bringing d) (by simp)]
  have echoed := makes_echoes (r := { mode := .blocking, chunkSize := size }) rfl positive d []
  rw [List.append_nil] at echoed
  refine runFrom_eq_of_makes (makes_append echoed (.call (advance_reading rfl _) (.none _ _))) ?_
  simp [credited, Script.read, afterRead, summary]

theorem run_to_fault {size : Nat} (positive : 0 < size) (d : Octets) {f : Fault}
    (final : f.isInterrupt = false) :
    run .blocking size ⟨ReadStep.bringing d ++ [.fail f], []⟩ =
      ⟨echoes size d ++ [⟨.read size (.failed f), []⟩],
        (credited { mode := .blocking, chunkSize := size } d.length
          (pieces size d).length).endingOf f, ⟨[], []⟩⟩ := by
  have ready : ReadStep.pending ∉ ReadStep.bringing d ++ [.fail f] := by
    simp [pending_notMem_bringing]
  rw [run, blocking_of_ready ready (by simp)]
  have echoed := makes_echoes (r := { mode := .blocking, chunkSize := size }) rfl positive d
    [.fail f]
  refine runFrom_eq_of_makes (makes_append echoed (.call (advance_reading rfl _) (.none _ _))) ?_
  simp [credited, Script.read, afterRead, afterFault, final, fail]

theorem run_failed (size : Nat) {f : Fault} (final : f.isInterrupt = false)
    (writes : List WriteStep) (open_end : .pending ∉ writes) :
    run .blocking size ⟨[.fail f], writes⟩ =
      ⟨[⟨.read size (.failed f), []⟩], endingOf { mode := .blocking, chunkSize := size } f,
        ⟨[], writes⟩⟩ := by
  rw [run, blocking_of_ready (by simp) open_end]
  refine runFrom_eq_of_makes (.call (advance_reading rfl _) (.none _ _)) ?_
  simp [Script.read, afterRead, afterFault, final, fail]

theorem run_refused {size : Nat} (positive : 0 < size) {d : Octets} (some_octet : d ≠ [])
    (rest : List ReadStep) (ready : .pending ∉ rest) {f : Fault} (final : f.isInterrupt = false) :
    run .blocking size ⟨ReadStep.bringing d ++ rest, [.fail f]⟩ =
      ⟨[⟨.read size (.got (d.take size)), readEvents (.got (d.take size))⟩,
          ⟨.write (d.take size) (.failed f), []⟩],
        endingOf { mode := .blocking, chunkSize := size } f,
        ⟨ReadStep.bringing (d.drop size) ++ rest, []⟩⟩ := by
  have all_ready : ReadStep.pending ∉ ReadStep.bringing d ++ rest := by
    simp [pending_notMem_bringing, ready]
  rw [run, blocking_of_ready all_ready (by simp)]
  have read := read_bringing size some_octet rest [.fail f]
  have first := advance_reading (r := { mode := .blocking, chunkSize := size }) rfl
    ⟨ReadStep.bringing d ++ rest, [.fail f]⟩
  rw [read] at first
  cases piece : d.take size with
  | nil =>
    rcases List.take_eq_nil_iff.mp piece with zero | none
    · omega
    · exact absurd none some_octet
  | cons b bs =>
    rw [piece] at first
    refine runFrom_eq_of_makes (.call first (.call (advance_writing rfl _) (.none _ _))) ?_
    simp [Script.write, afterWrite, afterRead, afterFault, final, fail, endingOf, summary]

end Relay
end TcpEcho
