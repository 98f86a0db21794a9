import Mathlib.Algebra.BigOperators.Group.List.Basic
import TcpEcho.Proofs.Relay.Calls
/- Where the octets of a relayed stream are when the relay ends: what was read, what was
   written back, what is still unread, and what the summary counts. -/
namespace TcpEcho

def ReadStep.octets : ReadStep → Octets
  | .data d => d
  | _ => []

/-- The octets of a script that no read has brought yet. -/
def Script.unread (s : Script) : Octets := s.reads.flatMap ReadStep.octets

def Call.chunk? : Call → Option Octets
  | .read _ (.got (b :: bs)) => some (b :: bs)
  | _ => none

/-- The chunks that some calls brought, one for each read of at least one octet. -/
def chunksIn (calls : List Call) : List Octets := calls.filterMap Call.chunk?

def octetsIn (calls : List Call) : Octets := calls.flatMap Call.received

def octetsOut (calls : List Call) : Octets := calls.flatMap Call.written

/-- What a failure makes of the octets and chunks that were counted: a plain disconnect
closes the connection, anything else is an error that carries the failure. -/
def Ending.Reports (e : Ending) (bytes chunks : Nat) (f : Fault) : Prop :=
  (f.kind.isDisconnect = true → e = .closed ⟨bytes, chunks, .disconnected f.kind⟩) ∧
  (f.kind.isDisconnect = false → e = .failed ⟨⟨bytes, chunks, .peerClosed⟩, f⟩)

def Ending.totals : Ending → Summary
  | .closed s => s
  | .failed e => e.summary

/-- The books of a relay that has ended, by the call that ended it. -/
inductive Settled (mode : Mode) (calls : List Call) : Ending → Prop where
  /-- The peer closed: all that came in went back out. -/
  | endOfStream {before : List Call} {room : Nat}
      (last : calls = before ++ [.read room (.got [])])
      (whole : octetsOut calls = octetsIn calls) :
      Settled mode calls
        (.closed ⟨(octetsIn calls).length, (chunksIn calls).length, .peerClosed⟩)
  /-- A read failed: all that came in before went back out. -/
  | readFailed {before : List Call} {room : Nat} {f : Fault} {e : Ending}
      (last : calls = before ++ [.read room (.failed f)]) (final : f.isInterrupt = false)
      (whole : octetsOut calls = octetsIn calls)
      (report : e.Reports (octetsIn calls).length (chunksIn calls).length f) :
      Settled mode calls e
  /-- A write failed or took nothing: of the last chunk a proper part went back out, and the
  summary leaves that chunk out. -/
  | writeFailed {before : List Call} {offered : Octets} {o : WriteOutcome} {f : Fault}
      {e : Ending} {earlier : List Octets} {part rest : Octets}
      (last : calls = before ++ [.write offered o])
      (cause : o = .failed f ∧ f.isInterrupt = false ∨ o = .took 0 ∧ f = mode.writeZero)
      (chunks : chunksIn calls = earlier ++ [part ++ rest])
      (input : octetsIn calls = earlier.flatten ++ (part ++ rest))
      (output : octetsOut calls = earlier.flatten ++ part) (proper : rest ≠ [])
      (report : e.Reports earlier.flatten.length earlier.length f) : Settled mode calls e

/-- The books of a relay at any time: between chunks nothing is owed, and within a chunk the
counters are those from before it. -/
def Relay.Balanced (r : Relay) (calls : List Call) : Prop :=
  match r.phase with
  | .reading => octetsOut calls = octetsIn calls ∧ r.bytes = (octetsIn calls).length ∧
      r.chunks = (chunksIn calls).length
  | .writing size b bs => ∃ (earlier : List Octets) (part : Octets),
      chunksIn calls = earlier ++ [part ++ b :: bs] ∧
      octetsOut calls = earlier.flatten ++ part ∧ size = (part ++ b :: bs).length ∧
      r.bytes = earlier.flatten.length ∧ r.chunks = earlier.length
  | .ended e => Settled r.mode calls e

theorem Call.received_eq_chunk (c : Call) : c.received = c.chunk?.getD [] := by
  cases c with
  | read room o =>
    cases o with
    | got d => cases d <;> rfl
    | failed f => rfl
    | pending => rfl
  | write offered o => rfl

theorem octetsIn_eq_flatten (calls : List Call) : octetsIn calls = (chunksIn calls).flatten := by
  induction calls with
  | nil => rfl
  | cons c cs ih =>
    simp only [octetsIn, chunksIn, List.flatMap_cons, List.filterMap_cons] at ih ⊢
    rw [ih, c.received_eq_chunk]
    cases c.chunk? <;> simp

theorem octetsIn_snoc (cs : List Call) (c : Call) :
    octetsIn (cs ++ [c]) = octetsIn cs ++ c.received := by
  simp [octetsIn]

theorem octetsOut_snoc (cs : List Call) (c : Call) :
    octetsOut (cs ++ [c]) = octetsOut cs ++ c.written := by
  simp [octetsOut]

theorem chunksIn_snoc (cs : List Call) (c : Call) :
    chunksIn (cs ++ [c]) = chunksIn cs ++ c.chunk?.toList := by
  cases h : c.chunk? <;> simp [chunksIn, h]

theorem books_quiet (cs : List Call) {c : Call} (nothing : c.chunk? = none)
    (silent : c.written = []) :
    octetsIn (cs ++ [c]) = octetsIn cs ∧ octetsOut (cs ++ [c]) = octetsOut cs ∧
      chunksIn (cs ++ [c]) = chunksIn cs := by
  simp [octetsIn_snoc, octetsOut_snoc, chunksIn_snoc, c.received_eq_chunk, nothing, silent]

theorem unread_blocking (s : Script) : s.blocking.unread = s.unread := by
  unfold Script.unread Script.blocking
  induction s.reads with
  | nil => rfl
  | cons r rs ih => cases r <;> simp_all [ReadStep.octets]

theorem length_unread (s : Script) : s.unread.length = s.unreadSize := by
  unfold Script.unread Script.unreadSize
  induction s.reads with
  | nil => rfl
  | cons r rs ih =>
    rw [List.flatMap_cons, List.length_append, ih, List.foldr_cons]
    cases r <;> rfl

theorem unread_script (mode : Mode) (s : Script) : (mode.script s).unread = s.unread := by
  cases mode with
  | blocking => exact unread_blocking s
  | nonblocking => rfl

theorem received_append_unread (room : Nat) (s : Script) :
    (Call.read room (s.read room).1).received ++ (s.read room).2.unread = s.unread := by
  unfold Script.read
  split
  · rename_i e
    simp [Call.received, Script.unread, e]
  · rename_i d rs e
    split
    · simp [Call.received, Script.unread, ReadStep.octets, e]
    · rename_i c cs rest
      have whole := List.take_append_drop room d
      rw [rest] at whole
      simp only [Call.received, Script.unread, ReadStep.octets, e, List.flatMap_cons]
      rw [← List.append_assoc, whole]
  · rename_i e
    simp [Call.received, Script.unread, ReadStep.octets, e]
  · rename_i e
    simp [Call.received, Script.unread, ReadStep.octets, e]

theorem endingOf_reports (r : Relay) (f : Fault) :
    (r.endingOf f).Reports r.bytes r.chunks f := by
  simp only [Ending.Reports, Relay.endingOf, Fault.isDisconnect, Relay.summary]
  constructor <;> intro h <;> simp [h]

theorem Settled.output_prefix {mode : Mode} {calls : List Call} {e : Ending}
    (h : Settled mode calls e) : octetsOut calls <+: octetsIn calls := by
  cases h with
  | endOfStream last whole => exact whole ▸ List.prefix_refl _
  | readFailed last final whole report => exact whole ▸ List.prefix_refl _
  | writeFailed last cause chunks input output proper report =>
    rw [input, output, ← List.append_assoc]
    exact List.prefix_append _ _

theorem Ending.Reports.totals {e : Ending} {bytes chunks : Nat} {f : Fault}
    (h : e.Reports bytes chunks f) : e.totals.bytes = bytes ∧ e.totals.chunks = chunks := by
  cases kind : f.kind.isDisconnect with
  | true =>
    rw [h.1 kind]
    exact ⟨rfl, rfl⟩
  | false =>
    rw [h.2 kind]
    exact ⟨rfl, rfl⟩

theorem chunk_ne_nil {calls : List Call} {d : Octets} (h : d ∈ chunksIn calls) : d ≠ [] := by
  obtain ⟨c, -, chunk⟩ := List.mem_filterMap.mp h
  unfold Call.chunk? at chunk
  split at chunk
  · cases chunk
    exact List.cons_ne_nil _ _
  · cases chunk

theorem length_le_flatten (ds : List Octets) (h : ∀ d ∈ ds, d ≠ []) :
    ds.length ≤ ds.flatten.length := by
  rw [List.length_flatten, ← List.length_map List.length]
  apply List.length_le_sum_of_one_le
  intro n member
  obtain ⟨d, among, rfl⟩ := List.mem_map.mp member
  exact List.length_pos_iff.mpr (h d among)

theorem Settled.totals_le {mode : Mode} {calls : List Call} {e : Ending}
    (h : Settled mode calls e) :
    e.totals.chunks ≤ e.totals.bytes ∧ e.totals.bytes ≤ (octetsIn calls).length := by
  have all : (chunksIn calls).length ≤ (octetsIn calls).length := by
    rw [octetsIn_eq_flatten]
    exact length_le_flatten _ fun _ => chunk_ne_nil
  cases h with
  | endOfStream last whole => exact ⟨all, Nat.le_refl _⟩
  | readFailed last final whole report =>
    obtain ⟨bytes, count⟩ := report.totals
    rw [bytes, count]
    exact ⟨all, Nat.le_refl _⟩
  | writeFailed last cause chunks input output proper report =>
    rename_i earlier part rest
    obtain ⟨bytes, count⟩ := report.totals
    rw [bytes, count, input, List.length_append]
    refine ⟨length_le_flatten earlier fun d member => ?_, Nat.le_add_right _ _⟩
    have among : d ∈ chunksIn calls := chunks ▸ List.mem_append_left _ member
    exact chunk_ne_nil among

namespace Relay

theorem Balanced.quiet {r : Relay} {cs : List Call} (h : r.Balanced cs)
    (going : r.hasEnded = false) {c : Call} (nothing : c.chunk? = none)
    (silent : c.written = []) : r.Balanced (cs ++ [c]) := by
  obtain ⟨ins, outs, counted⟩ := books_quiet cs nothing silent
  unfold Balanced at h ⊢
  cases phase : r.phase with
  | reading =>
    simp only [phase] at h ⊢
    rw [ins, outs, counted]
    exact h
  | writing size b bs =>
    simp only [phase] at h ⊢
    rw [outs, counted]
    exact h
  | ended e =>
    rw [hasEnded_ended phase] at going
    cases going

theorem balanced_afterRead {r : Relay} {cs : List Call} (reading : r.phase = .reading)
    (h : r.Balanced cs) (o : ReadOutcome) :
    (r.afterRead o).Balanced (cs ++ [.read r.chunkSize o]) := by
  have going := hasEnded_reading reading
  have books := h
  simp only [Balanced, reading] at books
  obtain ⟨whole, bytes, chunks⟩ := books
  cases o with
  | got d =>
    cases d with
    | nil =>
      obtain ⟨ins, outs, counted⟩ := books_quiet cs (c := .read r.chunkSize (.got [])) rfl rfl
      have settled : Settled r.mode (cs ++ [.read r.chunkSize (.got [])]) _ :=
        .endOfStream rfl (by rw [ins, outs, whole])
      rw [ins, counted, ← bytes, ← chunks] at settled
      exact settled
    | cons b bs =>
      refine ⟨chunksIn cs, [], ?_, ?_, rfl, ?_, chunks⟩
      · simp [chunksIn_snoc, Call.chunk?]
      · simp [octetsOut_snoc, Call.written, whole, octetsIn_eq_flatten]
      · rw [← octetsIn_eq_flatten]
        exact bytes
  | failed f =>
    simp only [afterRead]
    rcases afterFault_cases r f with ⟨-, again⟩ | ⟨final, ended⟩
    · rw [again]
      exact h.quiet going rfl rfl
    · rw [ended]
      obtain ⟨ins, outs, counted⟩ := books_quiet cs (c := .read r.chunkSize (.failed f)) rfl rfl
      refine Settled.readFailed rfl final (by rw [ins, outs, whole]) ?_
      rw [ins, counted, ← bytes, ← chunks]
      exact endingOf_reports r f
  | pending => exact h.quiet going rfl rfl

theorem settled_fail {r : Relay} {cs : List Call} {size : Nat} {b : UInt8} {bs : Octets}
    (writing : r.phase = .writing size b bs) (h : r.Balanced cs) {o : WriteOutcome} {f : Fault}
    (cause : o = .failed f ∧ f.isInterrupt = false ∨ o = .took 0 ∧ f = r.mode.writeZero) :
    Settled r.mode (cs ++ [.write (b :: bs) o]) (r.endingOf f) := by
  simp only [Balanced, writing] at h
  obtain ⟨earlier, part, chunks, output, -, bytes, count⟩ := h
  have silent : (Call.write (b :: bs) o).written = [] := by
    rcases cause with ⟨rfl, -⟩ | ⟨rfl, -⟩ <;> simp [Call.written]
  obtain ⟨ins, outs, counted⟩ := books_quiet cs (c := .write (b :: bs) o) rfl silent
  refine Settled.writeFailed rfl cause (counted.trans chunks) ?_ (outs.trans output)
    (List.cons_ne_nil b bs) ?_
  · rw [ins, octetsIn_eq_flatten, chunks]
    simp
  · rw [← bytes, ← count]
    exact endingOf_reports r f

theorem balanced_afterTook {r : Relay} {cs : List Call} {size : Nat} {b : UInt8} {bs : Octets}
    (writing : r.phase = .writing size b bs) (h : r.Balanced cs) (n : Nat) :
    (r.afterWrite size (b :: bs) (.took (n + 1))).Balanced
      (cs ++ [.write (b :: bs) (.took (n + 1))]) := by
  simp only [Balanced, writing] at h
  obtain ⟨earlier, part, chunks, output, whole, bytes, count⟩ := h
  have parts := List.take_append_drop (n + 1) (b :: bs)
  have counted : chunksIn (cs ++ [.write (b :: bs) (.took (n + 1))]) =
      earlier ++ [part ++ b :: bs] := by
    simp [chunksIn_snoc, Call.chunk?, chunks]
  have written : octetsOut (cs ++ [.write (b :: bs) (.took (n + 1))]) =
      earlier.flatten ++ (part ++ (b :: bs).take (n + 1)) := by
    simp [octetsOut_snoc, Call.written, output]
  simp only [afterWrite]
  split
  · -- Nothing is left over, so the counters take in the chunk.
    rename_i rest
    rw [rest, List.append_nil] at parts
    simp only [Balanced]
    refine ⟨?_, ?_, ?_⟩
    · rw [written, parts, octetsIn_eq_flatten, counted]
      simp
    · rw [octetsIn_eq_flatten, counted, bytes, whole]
      simp
    · rw [counted, count]
      simp
  · -- What is left over is owed, and the chunk is cut one write later.
    rename_i c cs' rest
    rw [rest] at parts
    refine ⟨earlier, part ++ (b :: bs).take (n + 1), ?_, written, ?_, bytes, count⟩
    · rw [counted, List.append_assoc, parts]
    · rw [List.append_assoc, parts]
      exact whole

theorem balanced_afterWrite {r : Relay} {cs : List Call} {size : Nat} {b : UInt8} {bs : Octets}
    (writing : r.phase = .writing size b bs) (h : r.Balanced cs) (o : WriteOutcome) :
    (r.afterWrite size (b :: bs) o).Balanced (cs ++ [.write (b :: bs) o]) := by
  have going := hasEnded_writing writing
  cases o with
  | took n =>
    cases n with
    | zero => exact settled_fail writing h (.inr ⟨rfl, rfl⟩)
    | succ n => exact balanced_afterTook writing h n
  | failed f =>
    simp only [afterWrite]
    rcases afterFault_cases r f with ⟨-, again⟩ | ⟨final, ended⟩
    · rw [again]
      exact h.quiet going rfl rfl
    · rw [ended]
      exact settled_fail writing h (.inl ⟨rfl, final⟩)
  | pending => exact h.quiet going rfl rfl

theorem balanced_advance {r r' : Relay} {s s' : Script} {x : Exchange} {cs : List Call}
    (h : r.Balanced cs) (call : r.advance s = .call x r' s') : r'.Balanced (cs ++ [x.call]) := by
  rcases advance_cases call with ⟨o, reading, -, rfl, rfl⟩ | ⟨size, b, bs, o, writing, -, rfl, rfl⟩
  · exact balanced_afterRead reading h o
  · exact balanced_afterWrite writing h o

theorem unread_advance {r r' : Relay} {s s' : Script} {x : Exchange}
    (call : r.advance s = .call x r' s') : x.call.received ++ s'.unread = s.unread := by
  rcases advance_cases call with ⟨o, -, read, rfl, -⟩ | ⟨size, b, bs, o, -, write, rfl, -⟩
  · have moved := received_append_unread r.chunkSize s
    rwa [read] at moved
  · have same := Script.reads_write (b :: bs) s
    rw [write] at same
    simp only at same
    simp [Call.received, Script.unread, same]

theorem mode_advance {r r' : Relay} {s s' : Script} {x : Exchange}
    (call : r.advance s = .call x r' s') : r'.mode = r.mode := by
  rcases advance_cases call with ⟨o, -, -, -, rfl⟩ | ⟨size, b, bs, o, -, -, -, rfl⟩
  · exact (settings_afterRead r o).1
  · exact (settings_afterWrite r size (b :: bs) o).1

theorem chunkSize_advance {r r' : Relay} {s s' : Script} {x : Exchange}
    (call : r.advance s = .call x r' s') : r'.chunkSize = r.chunkSize := by
  rcases advance_cases call with ⟨o, -, -, -, rfl⟩ | ⟨size, b, bs, o, -, -, -, rfl⟩
  · exact (settings_afterRead r o).2
  · exact (settings_afterWrite r size (b :: bs) o).2

theorem run_settles (mode : Mode) (chunkSize : Nat) (s : Script) :
    Settled mode (run mode chunkSize s).calls (run mode chunkSize s).ending := by
  obtain ⟨r, ended, books, same⟩ := run_keeps
    (I := fun xs r _ => r.Balanced (xs.map Exchange.call) ∧ r.mode = mode) mode chunkSize s
    (fun ⟨books, same⟩ call => by
      rw [List.map_append, List.map_singleton]
      exact ⟨balanced_advance books call, (mode_advance call).trans same⟩)
    ⟨⟨rfl, rfl, rfl⟩, rfl⟩
  simp only [Balanced, ended, same] at books
  exact books

theorem run_unread (mode : Mode) (chunkSize : Nat) (s : Script) :
    octetsIn (run mode chunkSize s).calls ++ (run mode chunkSize s).rest.unread = s.unread := by
  obtain ⟨-, -, input⟩ := run_keeps
    (I := fun xs _ t => octetsIn (xs.map Exchange.call) ++ t.unread = s.unread) mode chunkSize s
    (fun input call => by
      rw [List.map_append, List.map_singleton, octetsIn_snoc, List.append_assoc,
        unread_advance call, input])
    (unread_script mode s)
  exact input

/-- Nothing that comes in is lost, doubled or put out of order: what was read, and behind it
what was not, is the data of the script, and what was written back is a beginning of what was
read. How far it goes, and what the summary counts, depends on the call that ended the relay;
the counters never exceed the number of octets that were read. -/
theorem run_settled (mode : Mode) (chunkSize : Nat) (s : Script) :
    (run mode chunkSize s).received ++ (run mode chunkSize s).rest.unread = s.unread ∧
    (run mode chunkSize s).written <+: (run mode chunkSize s).received ∧
    Settled mode (run mode chunkSize s).calls (run mode chunkSize s).ending ∧
    (run mode chunkSize s).ending.totals.chunks ≤ (run mode chunkSize s).ending.totals.bytes ∧
    (run mode chunkSize s).ending.totals.bytes ≤ (run mode chunkSize s).received.length := by
  obtain ⟨r, ended, input, books, same⟩ := run_keeps
    (I := fun xs r t => octetsIn (xs.map Exchange.call) ++ t.unread = s.unread ∧
      r.Balanced (xs.map Exchange.call) ∧ r.mode = mode) mode chunkSize s
    (fun ⟨input, books, same⟩ call => by
      refine ⟨?_, ?_, (mode_advance call).trans same⟩
      · rw [List.map_append, List.map_singleton, octetsIn_snoc, List.append_assoc,
          unread_advance call, input]
      · rw [List.map_append, List.map_singleton]
        exact balanced_advance books call)
    ⟨unread_script mode s, ⟨rfl, rfl, rfl⟩, rfl⟩
  have settled : Settled mode (run mode chunkSize s).calls (run mode chunkSize s).ending := by
    simp only [Balanced, ended, same] at books
    exact books
  exact ⟨input, settled.output_prefix, settled, settled.totals_le⟩

end Relay
end TcpEcho
