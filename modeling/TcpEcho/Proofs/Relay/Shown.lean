import TcpEcho.Proofs.Connection
import TcpEcho.Proofs.Relay.Discipline
import TcpEcho.Proofs.Relay.Outcome
import TcpEcho.Proofs.Text.Lossy
/- What the log shows of the octets that a relay brings in. Each chunk is shown by itself, so a
   character that comes in with two reads is echoed, but not shown. -/
namespace TcpEcho

/-- What an event shows of a chunk. -/
def Event.data? : Event → Option String
  | .received _ data => some data
  | _ => none

def dataShown (es : List Event) : String := String.join (es.filterMap Event.data?)

/-- A read ended inside a character of the text that came in. -/
def SplitsCharacter (text : String) (calls : List Call) : Prop :=
  ∃ before room d after, calls = before ++ .read room (.got d) :: after ∧
    Utf8.IsInside text.toList (octetsIn (before ++ [.read room (.got d)])).length

theorem Call.eq_read_of_chunk {c : Call} {d : Octets} (h : c.chunk? = some d) :
    ∃ room, c = .read room (.got d) := by
  unfold Call.chunk? at h
  split at h
  · cases h
    exact ⟨_, rfl⟩
  · cases h

theorem exists_read_of_chunk {calls : List Call} {front back : List Octets} {d : Octets}
    (h : chunksIn calls = front ++ d :: back) :
    ∃ before room after, calls = before ++ .read room (.got d) :: after ∧
      chunksIn before = front := by
  obtain ⟨earlier, later, rfl, first, rest⟩ := List.filterMap_eq_append_iff.mp h
  obtain ⟨idle, c, after, rfl, nothing, chunk, -⟩ := List.filterMap_eq_cons_iff.mp rest
  obtain ⟨room, rfl⟩ := Call.eq_read_of_chunk chunk
  have no_chunk : idle.filterMap Call.chunk? = [] := List.filterMap_eq_nil_iff.mpr nothing
  refine ⟨earlier ++ idle, room, after, (List.append_assoc ..).symm, ?_⟩
  rw [chunksIn, List.filterMap_append, first, no_chunk, List.append_nil]

theorem not_splitsCharacter_iff {text : String} {calls : List Call} :
    ¬ SplitsCharacter text calls ↔ ∀ before after, chunksIn calls = before ++ after →
      ¬ Utf8.IsInside text.toList before.flatten.length := by
  constructor
  · intro unsplit before after parts inside
    rcases List.eq_nil_or_concat before with rfl | ⟨front, d, rfl⟩
    · obtain ⟨_, _, _, -, low, -⟩ := inside
      exact absurd low (Nat.not_lt_zero _)
    · rw [List.concat_eq_append, List.append_assoc, List.singleton_append] at parts
      obtain ⟨earlier, room, later, rfl, same⟩ := exists_read_of_chunk parts
      refine unsplit ⟨earlier, room, d, later, rfl, ?_⟩
      rw [octetsIn_snoc, octetsIn_eq_flatten, same]
      simpa [Call.received] using inside
  · rintro unsplit ⟨before, room, d, after, rfl, inside⟩
    rw [octetsIn_eq_flatten] at inside
    refine unsplit _ (chunksIn after) ?_ inside
    rw [List.append_cons, chunksIn, List.filterMap_append]
    rfl

theorem Settled.whole_of_peerClosed {mode : Mode} {calls : List Call} {e : Ending}
    (h : Settled mode calls e) (closed : e.verdict = .ok .peerClosed) :
    octetsOut calls = octetsIn calls := by
  cases h with
  | endOfStream last whole => exact whole
  | readFailed last final whole report => exact whole
  | writeFailed last cause chunks input output proper report =>
    rw [report.verdict] at closed
    split at closed <;> cases closed

namespace Relay

theorem data_farewell (r : Relay) : r.farewell.filterMap Event.data? = [] := by
  unfold farewell
  split <;> rfl

theorem dataShown_run (mode : Mode) (chunkSize : Nat) (s : Script) :
    dataShown (run mode chunkSize s).events =
      String.join ((chunksIn (run mode chunkSize s).calls).map Utf8.lossy) := by
  obtain ⟨r, -, events⟩ := run_events mode chunkSize s
  have data : Event.data? ∘ Event.ofChunk = some ∘ Utf8.lossy := rfl
  rw [dataShown, events, List.filterMap_append, data_farewell, List.append_nil,
    List.filterMap_map, data, List.filterMap_eq_map]

theorem events_of_chunk {r r' : Relay} {s s' : Script} {x : Exchange} {d : Octets}
    (call : r.advance s = .call x r' s') (chunk : x.call.chunk? = some d) :
    x.events = [.received d.length (Utf8.lossy d)] := by
  have among : d ∈ chunksIn [x.call] :=
    List.mem_filterMap.mpr ⟨x.call, List.mem_singleton_self _, chunk⟩
  have some_octet := chunk_ne_nil among
  obtain ⟨room, read⟩ := Call.eq_read_of_chunk chunk
  rcases advance_cases call with ⟨o, -, -, rfl, -⟩ | ⟨size, b, bs, o, -, -, rfl, -⟩
  · cases read
    exact readEvents_got some_octet
  · cases read

/-- A text that is read to its end is echoed whole. If it has no marks of its own, the log shows it
just if no read ended inside a character. Of each chunk the log shows what it says if it is well
formed and something else if it is not; what is well formed at its front is shown as it is. -/
theorem run_shows (mode : Mode) (chunkSize : Nat) (s : Script) :
    (∀ text, Utf8.replacement ∉ text.toList →
      (run mode chunkSize s).ending.verdict = .ok .peerClosed →
      (run mode chunkSize s).received = Utf8.encode text →
      (run mode chunkSize s).written = Utf8.encode text ∧
      (dataShown (run mode chunkSize s).events = text ↔
        ¬ SplitsCharacter text (run mode chunkSize s).calls)) ∧
    ∀ x ∈ (run mode chunkSize s).exchanges, ∀ d, x.call.chunk? = some d →
      ∃ shown, x.events = [.received d.length shown] ∧
        (Utf8.encode shown = d ↔ Utf8.IsWellFormed d) ∧
        ∀ front rest, d = Utf8.encode front ++ rest → shown = front ++ Utf8.lossy rest := by
  constructor
  · intro text unmarked closed received
    have chunks : (chunksIn (run mode chunkSize s).calls).flatten = Utf8.encode text := by
      rw [← octetsIn_eq_flatten]
      exact received
    have echoed := (run_settles mode chunkSize s).whole_of_peerClosed closed
    refine ⟨echoed.trans received, ?_⟩
    rw [dataShown_run, Utf8.join_lossy_eq_iff chunks unmarked, Utf8.each_wellFormed_iff chunks,
      not_splitsCharacter_iff]
  · intro x member d chunk
    obtain ⟨last, makes, -⟩ :=
      runFrom_makes { mode := mode, chunkSize := chunkSize } (mode.script s)
    obtain ⟨before, after, cut⟩ := List.append_of_mem member
    unfold run at cut
    rw [cut] at makes
    obtain ⟨q, t, q', t', -, call⟩ := makes.split
    refine ⟨Utf8.lossy d, events_of_chunk call chunk, Utf8.encode_lossy_iff, ?_⟩
    rintro front rest rfl
    exact Utf8.lossy_append front rest

def dividedSign : Script where
  reads := [.data [97, 0xE2], .pending, .data [0x82, 0xAC, 98]]

theorem run_shows_divided_sign :
    Utf8.replacement ∉ "a€b".toList ∧
    (run .nonblocking 4 dividedSign).ending.verdict = .ok .peerClosed ∧
    (run .nonblocking 4 dividedSign).received = Utf8.encode "a€b" ∧
    (run .nonblocking 4 dividedSign).written = Utf8.encode "a€b" ∧
    dataShown (run .nonblocking 4 dividedSign).events = "a\uFFFD\uFFFD\uFFFDb" ∧
    SplitsCharacter "a€b" (run .nonblocking 4 dividedSign).calls ∧
    ∃ x ∈ (run .nonblocking 4 dividedSign).exchanges, x.call = .read 4 (.got [97, 0xE2]) ∧
      x.events = [.received 2 ("a" ++ Utf8.lossy [0xE2])] := by
  have calls : run .nonblocking 4 dividedSign =
      ⟨[⟨.read 4 (.got [97, 0xE2]), [.received 2 (Utf8.lossy [97, 0xE2])]⟩,
        ⟨.write [97, 0xE2] (.took 2), []⟩, ⟨.read 4 .pending, []⟩,
        ⟨.read 4 (.got [0x82, 0xAC, 98]), [.received 3 (Utf8.lossy [0x82, 0xAC, 98])]⟩,
        ⟨.write [0x82, 0xAC, 98] (.took 3), []⟩, ⟨.read 4 (.got []), [.closedByPeer]⟩],
        .closed ⟨5, 2, .peerClosed⟩, {}⟩ :=
    runFrom_eq_of_makes
      (.call rfl (.call rfl (.call rfl (.call rfl (.call rfl (.call rfl (.none _ _))))))) rfl
  have unmarked : Utf8.replacement ∉ "a€b".toList := by decide
  have closed : (run .nonblocking 4 dividedSign).ending.verdict = .ok .peerClosed := by
    rw [calls]
    rfl
  have received : (run .nonblocking 4 dividedSign).received = Utf8.encode "a€b" := by
    rw [calls]
    decide +kernel
  have marked : dataShown (run .nonblocking 4 dividedSign).events = "a\uFFFD\uFFFD\uFFFDb" := by
    rw [calls]
    decide +kernel
  obtain ⟨whole, each⟩ := run_shows .nonblocking 4 dividedSign
  obtain ⟨echoed, shown_iff⟩ := whole "a€b" unmarked closed received
  refine ⟨unmarked, closed, received, echoed, marked, ?_, ?_⟩
  · rw [marked] at shown_iff
    have different : "a\uFFFD\uFFFD\uFFFDb" ≠ "a€b" := by decide
    exact Classical.not_not.mp fun unsplit => different (shown_iff.mpr unsplit)
  · rw [calls] at each ⊢
    obtain ⟨shown, events, -, front⟩ := each _ List.mem_cons_self [97, 0xE2] rfl
    refine ⟨_, List.mem_cons_self, rfl, ?_⟩
    rw [events, front "a" [0xE2] (by decide +kernel)]
    rfl

end Relay
end TcpEcho
