import Mathlib.Algebra.GroupWithZero.Nat
import TcpEcho.Connection
import TcpEcho.Proofs.Relay.Answers
import TcpEcho.Proofs.Relay.Bounds
/- What the log of one connection says: where it begins, the chunks as they came in, and an end
   that tells how the relay ended, with counters that agree with the chunks before it. -/
namespace TcpEcho

def Event.ofChunk (d : Octets) : Event := .received d.length (Utf8.lossy d)

def Event.bytes : Event → Nat
  | .received n _ => n
  | _ => 0

def Event.isClosing : Event → Bool
  | .connectionClosed _ _ _ => true
  | _ => false

def Event.isError : Event → Bool
  | .connectionError _ _ _ => true
  | _ => false

def Call.isRead : Call → Bool
  | .read _ _ => true
  | .write _ _ => false

/-- The failure of a call; a write that takes nothing counts as one. -/
def Call.fault? (mode : Mode) : Call → Option Fault
  | .read _ (.failed f) => some f
  | .write _ (.failed f) => some f
  | .write _ (.took 0) => some mode.writeZero
  | _ => none

/-- Whether a relay that made this call last ends like this. -/
def Ending.Follows (mode : Mode) (last : Call) (e : Ending) : Prop :=
  match last.fault? mode with
  | none => e.totals.reason = .peerClosed ∧ e = .closed e.totals
  | some f => e.Reports e.totals.bytes e.totals.chunks f

/-- How the log of a connection ends, for each way in which its relay can end. Only the words of
an error depend on the runtime. -/
inductive Closing (peer : String) : Runtime → Ending → List Event → Prop where
  | peerClosed (runtime : Runtime) (bytes chunks : Nat) :
      Closing peer runtime (.closed ⟨bytes, chunks, .peerClosed⟩)
        [.closedByPeer, .connectionClosed peer bytes chunks]
  | disconnected (runtime : Runtime) (bytes chunks : Nat) {kind : FaultKind}
      (gone : kind.isDisconnect = true) :
      Closing peer runtime (.closed ⟨bytes, chunks, .disconnected kind⟩)
        [.peerDisconnected peer kind, .connectionClosed peer bytes chunks]
  | failedSerial (bytes chunks : Nat) {f : Fault} (other : f.kind.isDisconnect = false) :
      Closing peer .serial (.failed ⟨⟨bytes, chunks, .peerClosed⟩, f⟩)
        [.connectionError peer (some bytes) f.text]
  | failedConcurrent (bytes chunks : Nat) {f : Fault} (other : f.kind.isDisconnect = false) :
      Closing peer .concurrent (.failed ⟨⟨bytes, chunks, .peerClosed⟩, f⟩)
        [.connectionError peer none
          ("connection failed after " ++ Decimal.text bytes ++ " bytes: " ++ f.text)]

namespace Relay

def farewell (r : Relay) : List Event :=
  match r.phase with
  | .ended (.closed ⟨_, _, .peerClosed⟩) => [.closedByPeer]
  | _ => []

theorem farewell_fail (r : Relay) (f : Fault) : (r.fail f).farewell = [] := by
  unfold fail farewell endingOf
  cases f.isDisconnect <;> rfl

theorem farewell_going {r : Relay} (going : r.hasEnded = false) : r.farewell = [] := by
  unfold farewell
  split
  · rename_i ended
    rw [hasEnded_ended ended] at going
    cases going
  · rfl

theorem farewell_afterFault {r : Relay} (going : r.hasEnded = false) (f : Fault) :
    (r.afterFault f).farewell = [] := by
  rcases afterFault_cases r f with ⟨-, again⟩ | ⟨-, ended⟩
  · rw [again]
    exact farewell_going going
  · rw [ended]
    exact farewell_fail r f

theorem events_advance {r r' : Relay} {s s' : Script} {x : Exchange}
    (call : r.advance s = .call x r' s') :
    x.events = x.call.chunk?.toList.map Event.ofChunk ++ r'.farewell := by
  rcases advance_cases call with ⟨o, reading, -, rfl, rfl⟩ | ⟨size, b, bs, o, writing, -, rfl, rfl⟩
  · have going := hasEnded_reading reading
    cases o with
    | got d =>
      cases d with
      | nil => rfl
      | cons b bs => rfl
    | failed f => exact (farewell_afterFault going f).symm
    | pending => exact (farewell_going going).symm
  · have going := hasEnded_writing writing
    cases o with
    | took n =>
      cases n with
      | zero => exact (farewell_fail r _).symm
      | succ n => exact (farewell_going (afterTook size n (b :: bs)).2).symm
    | failed f => exact (farewell_afterFault going f).symm
    | pending => exact (farewell_going going).symm

theorem run_events (mode : Mode) (chunkSize : Nat) (s : Script) :
    ∃ r : Relay, r.phase = .ended (run mode chunkSize s).ending ∧
      (run mode chunkSize s).events =
        (chunksIn (run mode chunkSize s).calls).map Event.ofChunk ++ r.farewell := by
  refine run_keeps (I := fun xs r _ => xs.flatMap Exchange.events =
    (chunksIn (xs.map Exchange.call)).map Event.ofChunk ++ r.farewell) mode chunkSize s ?_ rfl
  intro ys r s x r' s' told call
  -- A relay that makes a call has not ended, so it has not taken leave before.
  have going : r.hasEnded = false := by
    rcases advance_cases call with ⟨o, reading, -⟩ | ⟨size, b, bs, o, writing, -⟩
    · exact hasEnded_reading reading
    · exact hasEnded_writing writing
  rw [farewell_going going, List.append_nil] at told
  rw [List.flatMap_append, told, List.flatMap_singleton, events_advance call, List.map_append,
    List.map_singleton, chunksIn_snoc, List.map_append, List.append_assoc]

end Relay

theorem closing_of_isOutcome {r : Relay} {e : Ending} (ended : r.phase = .ended e)
    (h : e.IsOutcome) (runtime : Runtime) (peer : String) :
    Closing peer runtime e (r.farewell ++ e.events runtime peer) := by
  unfold Relay.farewell
  rw [ended]
  cases h with
  | peerClosed bytes chunks => exact .peerClosed runtime bytes chunks
  | disconnected bytes chunks gone => exact .disconnected runtime bytes chunks gone
  | failed bytes chunks other =>
    cases runtime with
    | serial => exact .failedSerial bytes chunks other
    | concurrent => exact .failedConcurrent bytes chunks other

theorem sum_bytes_ofChunk (ds : List Octets) :
    ((ds.map Event.ofChunk).map Event.bytes).sum = ds.flatten.length := by
  rw [List.map_map, List.length_flatten]
  rfl

theorem Ending.Reports.of_totals {e : Ending} {bytes chunks : Nat} {f : Fault}
    (h : e.Reports bytes chunks f) : e.Reports e.totals.bytes e.totals.chunks f := by
  obtain ⟨octets, count⟩ := h.totals
  rw [octets, count]
  exact h

theorem Settled.counts {mode : Mode} {calls : List Call} {e : Ending} (h : Settled mode calls e) :
    (∃ before last, calls = before ++ [last] ∧ e.Follows mode last ∧
      (chunksIn calls).length = e.totals.chunks + if last.isRead then 0 else 1) ∧
    ((chunksIn calls).take e.totals.chunks).flatten.length = e.totals.bytes := by
  cases h with
  | endOfStream last whole =>
    refine ⟨⟨_, _, last, ⟨rfl, rfl⟩, rfl⟩, ?_⟩
    rw [Ending.totals, List.take_length, octetsIn_eq_flatten]
  | readFailed last final whole report =>
    obtain ⟨bytes, count⟩ := report.totals
    refine ⟨⟨_, _, last, report.of_totals, count.symm⟩, ?_⟩
    rw [bytes, count, List.take_length, octetsIn_eq_flatten]
  | writeFailed last cause chunks input output proper report =>
    obtain ⟨bytes, count⟩ := report.totals
    refine ⟨⟨_, _, last, ?_, ?_⟩, ?_⟩
    · rcases cause with ⟨rfl, -⟩ | ⟨rfl, rfl⟩
      · exact report.of_totals
      · exact report.of_totals
    · rw [chunks, count, List.length_append]
      rfl
    · rw [bytes, count, chunks, List.take_left]

namespace Connection

/-- The log of a connection in its parts: that it began, its chunks, and its end. -/
structure IsLogged (runtime : Runtime) (peer : String) (c : Connection)
    (received closing : List Event) : Prop where
  log : c.log = .newConnection peer :: received ++ closing
  /-- Each chunk is logged, in the order in which they came in. -/
  chunks : received = (chunksIn c.run.calls).map Event.ofChunk
  closing : Closing peer runtime c.run.ending closing
  /-- The last call ends the relay. If it is a write, the chunk that it failed to get rid of is
  logged, but not counted. -/
  last : ∃ before last, c.run.calls = before ++ [last] ∧ c.run.ending.Follows runtime.mode last ∧
    received.length = c.run.ending.totals.chunks + if last.isRead then 0 else 1
  bytes : ((received.take c.run.ending.totals.chunks).map Event.bytes).sum =
    c.run.ending.totals.bytes
  /-- No counter exceeds the number of octets that were read. -/
  counters : c.run.ending.totals.chunks ≤ c.run.ending.totals.bytes ∧
    c.run.ending.totals.bytes ≤ (octetsIn c.run.calls).length
  /-- What the connection comes to is the summary that is logged, or nothing after an error. -/
  summary : ∀ sm, c.summary = some sm ↔ c.run.ending = .closed sm
  returned : c.summary.isSome = c.log.any Event.isClosing
  failed : c.summary.isNone = c.log.any Event.isError

theorem summary?_eq_some {e : Ending} {sm : Summary} : e.summary? = some sm ↔ e = .closed sm := by
  cases e <;> simp [Ending.summary?]

theorem closing_verdict {peer : String} {runtime : Runtime} {e : Ending} {closing : List Event}
    (h : Closing peer runtime e closing) :
    e.summary?.isSome = closing.any Event.isClosing ∧
      e.summary?.isNone = closing.any Event.isError := by
  cases h <;> exact ⟨rfl, rfl⟩

theorem any_ofChunk {p : Event → Bool} (other : ∀ n text, p (.received n text) = false)
    (ds : List Octets) : (ds.map Event.ofChunk).any p = false := by
  rw [List.any_map, List.any_eq_false]
  intro d _
  simp [Event.ofChunk, other]

theorem isLogged_serve (runtime : Runtime) (peer : String) (chunkSize : Nat) (s : Script) :
    ∃ received closing,
      IsLogged runtime peer (serve runtime peer chunkSize s) received closing := by
  have settled := Relay.run_settles runtime.mode chunkSize s
  obtain ⟨r, ended, events⟩ := Relay.run_events runtime.mode chunkSize s
  obtain ⟨last, bytes⟩ := settled.counts
  have closing := closing_of_isOutcome ended settled.isOutcome runtime peer
  obtain ⟨returned, failed⟩ := closing_verdict closing
  have log : (serve runtime peer chunkSize s).log = .newConnection peer ::
      (chunksIn (Relay.run runtime.mode chunkSize s).calls).map Event.ofChunk ++
        (r.farewell ++ (Relay.run runtime.mode chunkSize s).ending.events runtime peer) := by
    simp only [serve, events, List.cons_append, List.append_assoc]
  refine ⟨_, _, log, rfl, closing, ?_, ?_, settled.totals_le, ?_, ?_, ?_⟩
  · rw [List.length_map]
    exact last
  · rw [← List.map_take, sum_bytes_ofChunk]
    exact bytes
  · intro sm
    exact summary?_eq_some
  · rw [log, List.any_append, List.any_cons, any_ofChunk fun _ _ => rfl]
    exact returned
  · rw [log, List.any_append, List.any_cons, any_ofChunk fun _ _ => rfl]
    exact failed

/-- Whatever its stream does, a connection logs that it began, then each chunk that came in, and
then one of three ends, which agrees with how its relay ended, with the chunks before it, and with
what the connection comes to. Scripts stand for all that streams can do. -/
theorem serve_logged (runtime : Runtime) (peer : String) (chunkSize : Nat) :
    (∀ s, ∃ received closing,
      IsLogged runtime peer (serve runtime peer chunkSize s) received closing) ∧
    ∀ xs r e, Relay.Heard { mode := runtime.mode, chunkSize := chunkSize } xs r →
      r.phase = .ended e → ∃ s, (serve runtime peer chunkSize s).run = ⟨xs, e, {}⟩ := by
  refine ⟨isLogged_serve runtime peer chunkSize, ?_⟩
  intro xs r e heard ended
  exact ⟨Script.answering xs, Relay.run_answering heard ended⟩

def refused : List Exchange := [
  ⟨.read 2 (.got [97, 98]), [.received 2 (Utf8.lossy [97, 98])]⟩,
  ⟨.write [97, 98] (.took 2), []⟩,
  ⟨.read 2 (.got [99, 100]), [.received 2 (Utf8.lossy [99, 100])]⟩,
  ⟨.write [99, 100] (.took 1), []⟩,
  ⟨.write [100] (.failed (.bare .permissionDenied)), []⟩]

theorem serve_logged_refused :
    Relay.Heard { mode := .nonblocking, chunkSize := 2 } refused
      { mode := .nonblocking, chunkSize := 2, bytes := 2, chunks := 1,
        phase := .ended (.failed ⟨⟨2, 1, .peerClosed⟩, .bare .permissionDenied⟩) } ∧
    ∃ s received, (serve .concurrent "client0" 2 s).run.exchanges = refused ∧
      received.length = 2 ∧ (serve .concurrent "client0" 2 s).summary = none ∧
      (serve .concurrent "client0" 2 s).log = .newConnection "client0" :: received ++
        [.connectionError "client0" none
          "connection failed after 2 bytes: permission denied"] := by
  have heard : Relay.Heard { mode := .nonblocking, chunkSize := 2 } refused
      { mode := .nonblocking, chunkSize := 2, bytes := 2, chunks := 1,
        phase := .ended (.failed ⟨⟨2, 1, .peerClosed⟩, .bare .permissionDenied⟩) } := by
    refine .call (.read rfl (by decide) nofun) (.call (.write rfl ?_ nofun)
      (.call (.read rfl (by decide) nofun) (.call (.write rfl ?_ nofun)
        (.call (.write rfl ?_ nofun) (.none _)))))
    · rintro _ ⟨⟩
      decide
    · rintro _ ⟨⟩
      decide
    · exact nofun
  obtain ⟨logged, all⟩ := serve_logged .concurrent "client0" 2
  obtain ⟨s, run⟩ := all _ _ _ heard rfl
  obtain ⟨received, closing, logged⟩ := logged s
  have words : "connection failed after " ++ Decimal.text 2 ++ " bytes: " ++
      (Fault.bare .permissionDenied).text =
      "connection failed after 2 bytes: permission denied" := by decide +kernel
  have ends := logged.closing
  have chunks := logged.chunks
  have log := logged.log
  have summary := logged.summary
  rw [run] at ends chunks summary
  cases ends with
  | failedConcurrent bytes chunks other =>
    rw [words] at log
    refine ⟨heard, s, received, congrArg Relay.Run.exchanges run, ?_, ?_, log⟩
    · rw [chunks]
      rfl
    · rw [Option.eq_none_iff_forall_ne_some]
      intro sm closed
      cases (summary sm).mp closed

end Connection

end TcpEcho
