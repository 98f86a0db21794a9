import TcpEcho.Proofs.Relay.Accounts
import TcpEcho.Proofs.Relay.Input
/- In which order a relay makes its calls and logs its chunks, told from the calls alone. The
   relay has one buffer for all its reads, so a chunk must never be taken for more of the buffer
   than it has filled. -/
namespace TcpEcho

/-- What some calls have made of a buffer: the last chunk lies at its front, octets of longer
chunks from before may lie behind it, and writes have taken a part of the chunk. -/
structure Window where
  buffer : Octets
  size : Nat := 0
  taken : Nat := 0

namespace Window

def blank (room : Nat) : Window := { buffer := List.replicate room 0 }

def after (w : Window) : Call → Window
  | .read _ (.got d) => { buffer := d ++ w.buffer.drop d.length, size := d.length }
  | .write _ (.took n) => { w with taken := w.taken + n }
  | _ => w

def seen (room : Nat) (calls : List Call) : Window := calls.foldl after (blank room)

def chunk (w : Window) : Octets := w.buffer.take w.size

/-- What the writes since the last chunk came in have not taken of it. -/
def untaken (w : Window) : Octets := w.chunk.drop w.taken

theorem seen_snoc (room : Nat) (calls : List Call) (c : Call) :
    seen room (calls ++ [c]) = (seen room calls).after c := by
  simp [seen]

theorem chunk_after_read (w : Window) (room : Nat) (d : Octets) :
    (w.after (.read room (.got d))).chunk = d := by
  simp [after, chunk]

theorem untaken_after_read (w : Window) (room : Nat) (d : Octets) :
    (w.after (.read room (.got d))).untaken = d := by
  rw [untaken, chunk_after_read]
  rfl

theorem untaken_after_write (w : Window) (offered : Octets) (n : Nat) :
    (w.after (.write offered (.took n))).untaken = w.untaken.drop n := by
  simp only [after, untaken, chunk, List.drop_drop]

theorem length_after (w : Window) (c : Call) (fits : c.received.length ≤ w.buffer.length) :
    (w.after c).buffer.length = w.buffer.length := by
  unfold after
  split
  · rename_i d
    simp only [Call.received] at fits
    simp only [List.length_append, List.length_drop]
    omega
  · rfl
  · rfl

end Window

def Call.isLast : Call → Bool
  | .read _ (.got d) => d = []
  | .read _ (.failed f) => !f.isInterrupt
  | .write _ (.took n) => n = 0
  | .write _ (.failed f) => !f.isInterrupt
  | _ => false

def Event.isReceived : Event → Bool
  | .received _ _ => true
  | _ => false

/-- The next call, with what is logged right after it, keeps the order if it is made for a buffer
of this size and after calls that have left the buffer like this. -/
inductive Orderly (room : Nat) (w : Window) : Exchange → Prop where
  /-- A read offers the whole buffer, and only when nothing is left of the chunk before. What is
  logged is the chunk as it then lies at the front of the buffer. -/
  | chunk {d : Octets} (done : w.untaken = []) (some_octet : d ≠ []) :
      Orderly room w ⟨.read room (.got d),
        [.received d.length (Utf8.lossy (w.after (.read room (.got d))).chunk)]⟩
  | atEnd (done : w.untaken = []) : Orderly room w ⟨.read room (.got []), [.closedByPeer]⟩
  | nothing {o : ReadOutcome} (done : w.untaken = []) (none : ∀ d, o ≠ .got d) :
      Orderly room w ⟨.read room o, []⟩
  /-- A write offers what is left of the chunk, and logs nothing. -/
  | write {o : WriteOutcome} (some_left : w.untaken ≠ []) : Orderly room w ⟨.write w.untaken o, []⟩

theorem Orderly.received {room : Nat} {w : Window} {x : Exchange} (h : Orderly room w x) :
    x.events.filter Event.isReceived =
      x.call.chunk?.toList.map fun d => .received d.length (Utf8.lossy d) := by
  cases h with
  | @chunk d done some_octet =>
    rw [Window.chunk_after_read]
    obtain ⟨b, bs, rfl⟩ := List.exists_cons_of_ne_nil some_octet
    rfl
  | atEnd done => rfl
  | @nothing o done none =>
    cases o with
    | got d => exact absurd rfl (none d)
    | failed f => rfl
    | pending => rfl
  | write some_left => rfl

namespace Relay

/-- What the calls of a relay tell about it: what it owes while it goes on, and when it has
ended. -/
structure IsSeen (room : Nat) (calls : List Call) (r : Relay) : Prop where
  chunkSize : r.chunkSize = room
  length : (Window.seen room calls).buffer.length = room
  untaken : r.hasEnded = false → (Window.seen room calls).untaken = r.owed
  ended : ∀ c ∈ calls, c.isLast = true → r.hasEnded = true

theorem isSeen_start (mode : Mode) (room : Nat) :
    IsSeen room [] { mode := mode, chunkSize := room } where
  chunkSize := rfl
  length := List.length_replicate
  untaken := fun _ => rfl
  ended := by simp

theorem received_le {r r' : Relay} {s s' : Script} {x : Exchange}
    (call : r.advance s = .call x r' s') : x.call.received.length ≤ r.chunkSize := by
  rcases advance_cases call with ⟨o, -, read, rfl, -⟩ | ⟨size, b, bs, o, -, -, rfl, -⟩
  · cases o with
    | got d => exact Script.length_le_of_read read
    | failed f => exact Nat.zero_le _
    | pending => exact Nat.zero_le _
  · exact Nat.zero_le _

theorem going_of_advance {r r' : Relay} {s s' : Script} {x : Exchange}
    (call : r.advance s = .call x r' s') : r.hasEnded = false := by
  rcases advance_cases call with ⟨o, reading, -⟩ | ⟨size, b, bs, o, writing, -⟩
  · exact hasEnded_reading reading
  · exact hasEnded_writing writing

theorem hasEnded_of_isLast {r r' : Relay} {s s' : Script} {x : Exchange}
    (call : r.advance s = .call x r' s') (last : x.call.isLast = true) : r'.hasEnded = true := by
  have of_fault : ∀ f : Fault, (!f.isInterrupt) = true → (r.afterFault f).hasEnded = true := by
    intro f final
    rcases afterFault_cases r f with ⟨again, -⟩ | ⟨-, ended⟩
    · rw [again] at final
      cases final
    · rw [ended]
      rfl
  rcases advance_cases call with ⟨o, -, -, rfl, rfl⟩ | ⟨size, b, bs, o, -, -, rfl, rfl⟩
  · cases o with
    | got d =>
      have nothing : d = [] := of_decide_eq_true last
      subst nothing
      rfl
    | failed f => exact of_fault f last
    | pending => cases last
  · cases o with
    | took n =>
      have nothing : n = 0 := of_decide_eq_true last
      subst nothing
      rfl
    | failed f => exact of_fault f last
    | pending => cases last

theorem untaken_advance {r r' : Relay} {s s' : Script} {x : Exchange} {w : Window}
    (call : r.advance s = .call x r' s') (same : w.untaken = r.owed)
    (going : r'.hasEnded = false) : (w.after x.call).untaken = r'.owed := by
  have of_fault : ∀ f : Fault, (r.afterFault f).hasEnded = false → r.afterFault f = r := by
    intro f going
    rcases afterFault_cases r f with ⟨-, again⟩ | ⟨-, ended⟩
    · exact again
    · rw [ended] at going
      cases going
  rcases advance_cases call with ⟨o, -, -, rfl, rfl⟩ | ⟨size, b, bs, o, writing, -, rfl, rfl⟩
  · cases o with
    | got d => rw [Window.untaken_after_read, owed_afterGot]
    | failed f =>
      simp only [afterRead] at going ⊢
      rw [of_fault f going]
      exact same
    | pending => exact same
  · rw [owed_writing writing] at same
    cases o with
    | took n =>
      cases n with
      | zero => cases going
      | succ n => rw [Window.untaken_after_write, same, (afterTook size n (b :: bs)).1]
    | failed f =>
      simp only [afterWrite] at going ⊢
      rw [of_fault f going, owed_writing writing]
      exact same
    | pending =>
      rw [afterWrite, owed_writing writing]
      exact same

theorem IsSeen.advance {room : Nat} {calls : List Call} {r r' : Relay} {s s' : Script}
    {x : Exchange} (h : IsSeen room calls r) (call : r.advance s = .call x r' s') :
    IsSeen room (calls ++ [x.call]) r' := by
  have going := going_of_advance call
  constructor
  · exact (chunkSize_advance call).trans h.chunkSize
  · have fits := received_le call
    rw [h.chunkSize] at fits
    rw [Window.seen_snoc, Window.length_after, h.length]
    rw [h.length]
    exact fits
  · intro still
    rw [Window.seen_snoc]
    exact untaken_advance call (h.untaken going) still
  · intro c member last
    rcases List.mem_append.mp member with earlier | here
    · have finished := h.ended c earlier last
      rw [going] at finished
      cases finished
    · rw [List.mem_singleton.mp here] at last
      exact hasEnded_of_isLast call last

theorem IsSeen.orderly {room : Nat} {calls : List Call} {r r' : Relay} {s s' : Script}
    {x : Exchange} (h : IsSeen room calls r) (call : r.advance s = .call x r' s') :
    Orderly room (Window.seen room calls) x := by
  have same := h.untaken (going_of_advance call)
  rcases advance_cases call with ⟨o, reading, -, rfl, -⟩ | ⟨size, b, bs, o, writing, -, rfl, -⟩
  · rw [owed_reading reading] at same
    rw [h.chunkSize]
    cases o with
    | got d =>
      cases d with
      | nil => exact .atEnd same
      | cons b bs =>
        have logged := @Orderly.chunk room _ _ same (List.cons_ne_nil b bs)
        rw [Window.chunk_after_read] at logged
        exact logged
    | failed f => exact .nothing same (by simp)
    | pending => exact .nothing same (by simp)
  · rw [owed_writing writing] at same
    rw [← same]
    apply Orderly.write
    rw [same]
    exact List.cons_ne_nil b bs

theorem Makes.split {r r' : Relay} {s s' : Script} {before after : List Exchange} {x : Exchange}
    (h : Makes r s (before ++ x :: after) r' s') :
    ∃ q t q' t', Makes r s before q t ∧ q.advance t = .call x q' t' := by
  induction before generalizing r s with
  | nil =>
    cases h with
    | call first rest => exact ⟨r, s, _, _, .none r s, first⟩
  | cons y before ih =>
    cases h with
    | call first rest =>
      obtain ⟨q, t, q', t', earlier, step⟩ := ih rest
      exact ⟨q, t, q', t', .call first earlier, step⟩

theorem Makes.isSeen {mode : Mode} {room : Nat} {r : Relay} {s s' : Script} {xs : List Exchange}
    (h : Makes { mode := mode, chunkSize := room } s xs r s') :
    IsSeen room (xs.map Exchange.call) r := by
  have kept : IsSeen room (([] ++ xs).map Exchange.call) r := by
    refine h.keeps (I := fun xs r _ => IsSeen room (xs.map Exchange.call) r) ?_
      (isSeen_start mode room)
    intro ys q t x q' t' seen call
    rw [List.map_append, List.map_singleton]
    exact seen.advance call
  exact kept

theorem received_of_each {xs : List Exchange}
    (each : ∀ x ∈ xs, x.events.filter Event.isReceived =
      x.call.chunk?.toList.map fun d => .received d.length (Utf8.lossy d)) :
    (xs.flatMap Exchange.events).filter Event.isReceived =
      (chunksIn (xs.map Exchange.call)).map fun d => .received d.length (Utf8.lossy d) := by
  induction xs with
  | nil => rfl
  | cons x xs ih =>
    have here := each x List.mem_cons_self
    have rest := ih fun y member => each y (List.mem_cons_of_mem x member)
    rw [List.flatMap_cons, List.filter_append, here, rest, List.map_cons]
    unfold chunksIn
    rw [List.filterMap_cons]
    cases x.call.chunk? with
    | none => rfl
    | some d => rfl

/-- At any time in a run, the calls so far leave a buffer of the size of a chunk, none of them is
one that ends a relay, and the next call with what is logged behind it is in order: a read offers
the whole buffer and comes only when the chunk before has been written back whole, a write offers
what is left of the chunk that came in last. In the whole log there is one event for each chunk, in
the order in which they came in, with its size and its text. -/
theorem run_orderly (mode : Mode) (chunkSize : Nat) (s : Script) :
    (∀ before x after, (run mode chunkSize s).exchanges = before ++ x :: after →
      (Window.seen chunkSize (before.map Exchange.call)).buffer.length = chunkSize ∧
      (∀ y ∈ before, y.call.isLast = false) ∧
      Orderly chunkSize (Window.seen chunkSize (before.map Exchange.call)) x) ∧
    (run mode chunkSize s).events.filter Event.isReceived =
      (chunksIn (run mode chunkSize s).calls).map fun d => .received d.length (Utf8.lossy d) := by
  obtain ⟨last, makes, -⟩ := runFrom_makes { mode := mode, chunkSize := chunkSize } (mode.script s)
  have each : ∀ before x after, (run mode chunkSize s).exchanges = before ++ x :: after →
      (Window.seen chunkSize (before.map Exchange.call)).buffer.length = chunkSize ∧
      (∀ y ∈ before, y.call.isLast = false) ∧
      Orderly chunkSize (Window.seen chunkSize (before.map Exchange.call)) x := by
    intro before x after cut
    unfold run at cut
    rw [cut] at makes
    obtain ⟨q, t, q', t', earlier, call⟩ := makes.split
    have seen := earlier.isSeen
    refine ⟨seen.length, ?_, seen.orderly call⟩
    intro y member
    rw [Bool.eq_false_iff]
    intro final
    have finished := seen.ended y.call (List.mem_map_of_mem member) final
    rw [going_of_advance call] at finished
    cases finished
  refine ⟨each, received_of_each ?_⟩
  intro x member
  obtain ⟨before, after, cut⟩ := List.append_of_mem member
  exact (each before x after cut).2.2.received

theorem run_orderly_over_longer_chunk :
    (Window.seen 4 [.read 4 (.got [97, 98, 99]), .write [97, 98, 99] (.took 3),
      .read 4 (.got [100])]).buffer = [100, 98, 99, 0] ∧
    Orderly 4 (Window.seen 4 [.read 4 (.got [97, 98, 99]), .write [97, 98, 99] (.took 3),
      .read 4 (.got [100])]) ⟨.write [100] (.took 1), []⟩ := by
  have calls : run .blocking 4 ⟨[.data [97, 98, 99], .data [100]], []⟩ =
      ⟨[⟨.read 4 (.got [97, 98, 99]), [.received 3 (Utf8.lossy [97, 98, 99])]⟩,
        ⟨.write [97, 98, 99] (.took 3), []⟩,
        ⟨.read 4 (.got [100]), [.received 1 (Utf8.lossy [100])]⟩,
        ⟨.write [100] (.took 1), []⟩, ⟨.read 4 (.got []), [.closedByPeer]⟩],
        .closed ⟨4, 2, .peerClosed⟩, {}⟩ :=
    runFrom_eq_of_makes
      (.call rfl (.call rfl (.call rfl (.call rfl (.call rfl (.none _ _)))))) rfl
  have order := (run_orderly .blocking 4 ⟨[.data [97, 98, 99], .data [100]], []⟩).1
  rw [calls] at order
  exact ⟨rfl, (order [_, _, _] ⟨.write [100] (.took 1), []⟩ [_] rfl).2.2⟩

/-- An interrupted write is made again in both modes, so a failed write need not be the last call
of a relay that is told when its stream is not ready. -/
theorem interrupted_write_not_last :
    ¬ ∀ before offered f after,
      (run .nonblocking 4 ⟨[.data [97, 98]], [.accept 1, .fail (.bare .interrupted)]⟩).calls =
        before ++ .write offered (.failed f) :: after → after = [] := by
  intro last
  have calls : run .nonblocking 4 ⟨[.data [97, 98]], [.accept 1, .fail (.bare .interrupted)]⟩ =
      ⟨[⟨.read 4 (.got [97, 98]), [.received 2 (Utf8.lossy [97, 98])]⟩,
        ⟨.write [97, 98] (.took 1), []⟩, ⟨.write [98] (.failed (.bare .interrupted)), []⟩,
        ⟨.write [98] (.took 1), []⟩, ⟨.read 4 (.got []), [.closedByPeer]⟩],
        .closed ⟨2, 1, .peerClosed⟩, {}⟩ :=
    runFrom_eq_of_makes
      (.call rfl (.call rfl (.call rfl (.call rfl (.call rfl (.none _ _)))))) rfl
  have finished := last [_, _] [98] (.bare .interrupted) [_, _] (by rw [calls]; rfl)
  cases finished

end Relay
end TcpEcho
