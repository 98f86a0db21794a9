import Mathlib.Tactic.FinCases
import TcpEcho.Proofs.Relay.Accounts
import TcpEcho.Proofs.Relay.Input
/- How a relay ends depends on the octets that come in and on what ends them. How they are cut,
   and what else happens on the way, only tells in the number of chunks. -/
namespace TcpEcho

def Ending.verdict : Ending → Except Fault CloseReason
  | .closed s => .ok s.reason
  | .failed e => .error e.fault

def Input.verdict (i : Input) : Except Fault CloseReason :=
  match i.fault with
  | none => .ok .peerClosed
  | some f => if f.isDisconnect then .ok (.disconnected f.kind) else .error f

def Input.EndsWith (i : Input) : Call → Prop
  | .read _ (.got []) => i.fault = none
  | .read _ (.failed f) => i.fault = some f
  | _ => False

theorem Ending.Reports.verdict {e : Ending} {bytes chunks : Nat} {f : Fault}
    (h : e.Reports bytes chunks f) :
    e.verdict = if f.isDisconnect then .ok (.disconnected f.kind) else .error f := by
  cases kind : f.kind.isDisconnect with
  | true =>
    rw [h.1 kind]
    simp [Ending.verdict, Fault.isDisconnect, kind]
  | false =>
    rw [h.2 kind]
    simp [Ending.verdict, Fault.isDisconnect, kind]

namespace Relay

/-- The chunks that have come and those still to come are the chunks of the input; the relay ends
where the input does. -/
def Follows (size : Nat) (i : Input) (calls : List Call) (r : Relay) (s : Script) : Prop :=
  if r.hasEnded then
    chunksIn calls = i.cuts size ∧ ∃ last, calls.getLast? = some last ∧ i.EndsWith last
  else chunksIn calls ++ s.input.cuts size = i.cuts size ∧ s.input.fault = i.fault

section Follows

variable {size : Nat} {i : Input} {cs : List Call} {r : Relay} {s s' : Script}

theorem follows_going (going : r.hasEnded = false) : Follows size i cs r s ↔
    chunksIn cs ++ s.input.cuts size = i.cuts size ∧ s.input.fault = i.fault := by
  simp [Follows, going]

theorem Follows.quiet {r' : Relay} (h : Follows size i cs r s) (going : r.hasEnded = false)
    (still : r'.hasEnded = false) {c : Call} (nothing : c.chunk? = none)
    (same : s'.input = s.input) : Follows size i (cs ++ [c]) r' s' := by
  rw [follows_going going] at h
  rw [follows_going still, chunksIn_snoc, nothing, same, Option.toList_none, List.append_nil]
  exact h

theorem Follows.read {o : ReadOutcome} (h : Follows size i cs r s) (reading : r.phase = .reading)
    (meets : Input.Meets size s.input s'.input o) (room : Nat) :
    Follows size i (cs ++ [.read room o]) (r.afterRead o) s' := by
  have going := hasEnded_reading reading
  obtain ⟨chunks, fault⟩ := (follows_going going).mp h
  cases o with
  | got d =>
    cases d with
    | nil =>
      have at_end : s.input = ⟨[], none⟩ := meets
      rw [at_end] at chunks fault
      refine ⟨?_, .read room (.got []), List.getLast?_concat, fault.symm⟩
      rw [chunksIn_snoc]
      exact chunks
    | cons b bs =>
      obtain ⟨cut, same⟩ := meets
      rw [cut] at chunks
      rw [follows_going rfl, chunksIn_snoc, ← same, List.append_assoc]
      exact ⟨chunks, fault⟩
  | failed f =>
    rcases afterFault_cases r f with ⟨again, same⟩ | ⟨final, ended⟩
    · rw [Input.Meets, if_pos again] at meets
      rw [afterRead, same]
      exact h.quiet going going rfl meets.symm
    · have at_end : s.input = ⟨[], some f⟩ := by
        rw [Input.Meets, final] at meets
        exact meets
      rw [at_end] at chunks fault
      rw [afterRead, ended]
      refine ⟨?_, .read room (.failed f), List.getLast?_concat, fault.symm⟩
      rw [chunksIn_snoc]
      exact chunks
  | pending => exact h.quiet going going rfl meets.symm

theorem hasEnded_afterWrite {b : UInt8} {bs : Octets} {n : Nat}
    (writing : r.phase = .writing n b bs) {o : WriteOutcome} (willing : (∃ n, o = .took (n + 1)) ∨
      (∃ f, o = .failed f ∧ f.isInterrupt = true) ∨ o = .pending) :
    (r.afterWrite n (b :: bs) o).hasEnded = false := by
  rcases willing with ⟨m, rfl⟩ | ⟨f, rfl, again⟩ | rfl
  · rw [afterWrite]
    split <;> rfl
  · rw [afterWrite, afterFault_of_interrupt again]
    exact hasEnded_writing writing
  · exact hasEnded_writing writing

theorem Follows.advance {r' : Relay} {x : Exchange} (positive : 0 < size)
    (same_size : r.chunkSize = size) (h : Follows size i cs r s) (takes : s.TakesAll)
    (call : r.advance s = .call x r' s') :
    Follows size i (cs ++ [x.call]) r' s' ∧ s'.TakesAll := by
  rcases advance_cases call with
    ⟨o, reading, read, rfl, rfl⟩ | ⟨n, b, bs, o, writing, write, rfl, rfl⟩
  · have writes := Script.writes_read size s
    rw [same_size] at read
    rw [read] at writes
    constructor
    · exact h.read reading (Script.meets_of_read positive read) r.chunkSize
    · unfold Script.TakesAll
      rw [writes]
      exact takes
  · obtain ⟨still_takes, willing⟩ := takes.write (List.cons_ne_nil b bs)
    have reads := Script.reads_write (b :: bs) s
    rw [write] at still_takes willing reads
    refine ⟨?_, still_takes⟩
    apply h.quiet (hasEnded_writing writing) (hasEnded_afterWrite writing willing) rfl
    rw [Script.input, reads, Script.input]

end Follows

theorem settled_run (mode : Mode) {size : Nat} (positive : 0 < size) {s : Script}
    (takes : s.TakesAll) :
    Settled mode (run mode size s).calls (run mode size s).ending ∧
      octetsIn (run mode size s).calls ++ (run mode size s).rest.unread = s.unread ∧
      chunksIn (run mode size s).calls = s.input.cuts size ∧
      ∃ last, (run mode size s).calls.getLast? = some last ∧ s.input.EndsWith last := by
  obtain ⟨r, ended, books, unread, follows, -, same, -⟩ := run_keeps
    (I := fun xs r t => r.Balanced (xs.map Exchange.call) ∧
      octetsIn (xs.map Exchange.call) ++ t.unread = s.unread ∧
      Follows size s.input (xs.map Exchange.call) r t ∧ t.TakesAll ∧ r.mode = mode ∧
      r.chunkSize = size) mode size s
    (fun ⟨books, unread, follows, takes, same, same_size⟩ call => by
      -- Whether the stream still takes all is what keeps the relay on its input.
      rw [List.map_append, List.map_singleton]
      obtain ⟨follows, takes⟩ := follows.advance positive same_size takes call
      refine ⟨balanced_advance books call, ?_, follows, takes, (mode_advance call).trans same,
        (chunkSize_advance call).trans same_size⟩
      rw [octetsIn_snoc, List.append_assoc, unread_advance call, unread])
    ⟨⟨rfl, rfl, rfl⟩, unread_script mode s,
      (follows_going rfl).mpr (by rw [Script.input_script]; exact ⟨rfl, rfl⟩), takes.script mode,
      rfl, rfl⟩
  refine ⟨?_, unread, ?_⟩
  · simp only [Balanced, ended, same] at books
    exact books
  · rw [Follows, if_pos (hasEnded_ended ended)] at follows
    exact follows

/-- On a stream that takes what is written, a relay writes back all that comes in before the end,
and leaves what is behind it. Its verdict is that of the input. -/
theorem run_of_input (mode : Mode) {size : Nat} (positive : 0 < size) {s : Script}
    (takes : s.TakesAll) :
    (run mode size s).written = s.input.data ∧
      s.input.data ++ (run mode size s).rest.unread = s.unread ∧
      (run mode size s).ending.totals.bytes = s.input.data.length ∧
      (run mode size s).ending.totals.chunks = (s.input.cuts size).length ∧
      (run mode size s).ending.verdict = s.input.verdict := by
  obtain ⟨settled, unread, chunks, last, lasts, ends⟩ := settled_run mode positive takes
  have received : octetsIn (run mode size s).calls = s.input.data := by
    rw [octetsIn_eq_flatten, chunks, Input.data_eq_flatten_cuts positive]
  have written : (run mode size s).written = octetsOut (run mode size s).calls := rfl
  rw [written, ← received, ← chunks, and_iff_right unread]
  generalize (run mode size s).ending = e at settled ⊢
  cases settled with
  | endOfStream final whole =>
    rw [final, List.getLast?_concat, Option.some.injEq] at lasts
    subst lasts
    have fault : s.input.fault = none := ends
    exact ⟨whole, rfl, rfl, by rw [Input.verdict, fault]; rfl⟩
  | readFailed final _ whole report =>
    rw [final, List.getLast?_concat, Option.some.injEq] at lasts
    subst lasts
    have fault : s.input.fault = some _ := ends
    exact ⟨whole, report.totals.1, report.totals.2, by rw [report.verdict, Input.verdict, fault]⟩
  | writeFailed final cause chunks input output proper report =>
    rw [final, List.getLast?_concat, Option.some.injEq] at lasts
    subst lasts
    exact ends.elim

theorem written_before_end (mode : Mode) {size : Nat} (positive : 0 < size) {s : Script}
    (takes : s.TakesAll) (closes : s.input.fault = none) :
    ∃ before room, (run mode size s).calls = before ++ [.read room (.got [])] ∧
      octetsOut before = s.input.data := by
  obtain ⟨settled, -, -, last, lasts, ends⟩ := settled_run mode positive takes
  have written : octetsOut (run mode size s).calls = s.input.data :=
    (run_of_input mode positive takes).1
  generalize (run mode size s).ending = e at settled
  cases settled with
  | @endOfStream before room final whole =>
    refine ⟨before, room, final, ?_⟩
    rw [final, octetsOut_snoc] at written
    simpa [Call.written] using written
  | readFailed final _ whole report =>
    rw [final, List.getLast?_concat, Option.some.injEq] at lasts
    subst lasts
    have fault : s.input.fault = some _ := ends
    rw [closes] at fault
    cases fault
  | writeFailed final cause chunks input output proper report =>
    rw [final, List.getLast?_concat, Option.some.injEq] at lasts
    subst lasts
    exact ends.elim

/-- Two runs on the same octets with the same end write the same and come to the same verdict,
whatever their modes and chunk sizes, however the octets arrive and whatever calls are made again.
The chunks of each are those that its segments need, and never more than the octets, so that
counters which hold the number of octets hold them too. -/
theorem verdict_of_input (mode₁ mode₂ : Mode) (size₁ size₂ : Nat) (s₁ s₂ : Script)
    (positive₁ : 0 < size₁) (positive₂ : 0 < size₂) (takes₁ : s₁.TakesAll) (takes₂ : s₂.TakesAll)
    (data : s₁.input.data = s₂.input.data) (fault : s₁.input.fault = s₂.input.fault) :
    (run mode₁ size₁ s₁).written = s₁.input.data ∧
    (run mode₂ size₂ s₂).written = s₁.input.data ∧
    (run mode₁ size₁ s₁).ending.totals.bytes = s₁.input.data.length ∧
    (run mode₂ size₂ s₂).ending.totals.bytes = s₁.input.data.length ∧
    (run mode₁ size₁ s₁).ending.verdict = (run mode₂ size₂ s₂).ending.verdict ∧
    (run mode₁ size₁ s₁).ending.totals.chunks =
      (s₁.input.segments.map fun d => (d.length + size₁ - 1) / size₁).sum ∧
    (run mode₂ size₂ s₂).ending.totals.chunks =
      (s₂.input.segments.map fun d => (d.length + size₂ - 1) / size₂).sum ∧
    (run mode₁ size₁ s₁).ending.totals.chunks ≤ s₁.input.data.length ∧
    (run mode₂ size₂ s₂).ending.totals.chunks ≤ s₁.input.data.length := by
  obtain ⟨written₁, -, bytes₁, chunks₁, verdict₁⟩ := run_of_input mode₁ positive₁ takes₁
  obtain ⟨written₂, -, bytes₂, chunks₂, verdict₂⟩ := run_of_input mode₂ positive₂ takes₂
  rw [← data] at written₂ bytes₂
  have few₁ := (run_settles mode₁ size₁ s₁).totals_le.1
  have few₂ := (run_settles mode₂ size₂ s₂).totals_le.1
  rw [bytes₁] at few₁
  rw [bytes₂] at few₂
  refine ⟨written₁, written₂, bytes₁, bytes₂, ?_, ?_, ?_, few₁, few₂⟩
  · rw [verdict₁, verdict₂, Input.verdict, Input.verdict, fault]
  · rw [chunks₁, Input.length_cuts positive₁]
  · rw [chunks₂, Input.length_cuts positive₂]

def fiveAtOnce : Script where
  reads := [.data [1, 2, 3, 4, 5], .fail (.bare .permissionDenied)]

def fiveApart : Script where
  reads := [.fail (.bare .interrupted), .data [1], .pending, .data [2, 3, 4, 5],
    .fail (.bare .permissionDenied), .data [6]]
  writes := [.fail (.bare .interrupted), .accept 1, .pending, .accept 1]

theorem verdict_of_five_octets :
    fiveAtOnce.TakesAll ∧ fiveApart.TakesAll ∧
    fiveAtOnce.input.data = fiveApart.input.data ∧
    fiveAtOnce.input.fault = fiveApart.input.fault ∧
    (run .blocking 2 fiveAtOnce).written = [1, 2, 3, 4, 5] ∧
    (run .nonblocking 3 fiveApart).written = [1, 2, 3, 4, 5] ∧
    (run .blocking 2 fiveAtOnce).ending.verdict =
      (run .nonblocking 3 fiveApart).ending.verdict ∧
    (run .blocking 2 fiveAtOnce).ending.totals.chunks = 3 ∧
    (run .nonblocking 3 fiveApart).ending.totals.chunks = 3 := by
  have takes₁ : fiveAtOnce.TakesAll := by
    intro w member
    cases member
  have takes₂ : fiveApart.TakesAll := by
    intro w member
    fin_cases member
    · exact Or.inl rfl
    · exact Or.inr ⟨0, rfl⟩
    · exact Or.inl rfl
    · exact Or.inr ⟨0, rfl⟩
  obtain ⟨written₁, written₂, -, -, verdict, chunks₁, chunks₂, -, -⟩ :=
    verdict_of_input .blocking .nonblocking 2 3 fiveAtOnce fiveApart (by decide) (by decide)
      takes₁ takes₂ rfl rfl
  exact ⟨takes₁, takes₂, rfl, rfl, written₁, written₂, verdict, chunks₁, chunks₂⟩

end Relay
end TcpEcho
