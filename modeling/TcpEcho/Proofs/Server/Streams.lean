import TcpEcho.Proofs.Relay.Calls
import TcpEcho.Proofs.Server.Steps
/- The octets of each client on their way through the server: what has come back to a client
   is a beginning of what it has sent, and all of it if no call on its connection failed. -/
namespace TcpEcho

namespace Client

def owed (c : Client) : Octets :=
  match c.place with
  | .inService r => r.owed
  | _ => []

def isDone (c : Client) : Bool :=
  match c.place with
  | .backlog => false
  | .inService r => r.hasEnded
  | .closed => true

/-- All that a client has sent is somewhere: taken, on its way back, owed, or on its way in. -/
def Flows (c : Client) : Prop := c.received ++ c.outbound ++ c.owed ++ c.inbound = c.sent

/-- What holds of every client at any time, whatever fails. -/
structure Sound (c : Client) : Prop where
  returned : c.received ++ c.outbound <+: c.sent
  dropped : c.hasReset = true → c.outbound = []
  flows : c.hasReset = false → c.isDone = false → c.Flows

/-- What holds of a client as long as no call on its connection has failed. -/
structure Intact (chunkSize : Nat) (c : Client) : Prop where
  room : ∀ r, c.place = .inService r → r.chunkSize = chunkSize
  flows : c.hasReset = false → c.Flows
  finished : c.hasReset = false → c.isDone = true → c.inbound = [] ∧ c.hasShut = true
  whole : c.hasReset = false → c.place = .closed → c.isBroken = false

theorem owed_served {c : Client} {r : Relay} (served : c.place = .inService r) :
    c.owed = r.owed := by
  simp [owed, served]

theorem isDone_served {c : Client} {r : Relay} (served : c.place = .inService r) :
    c.isDone = r.hasEnded := by
  simp [isDone, served]

theorem not_closed_of_going {c : Client} (going : c.isDone = false) : c.place ≠ .closed := by
  intro closed
  simp [isDone, closed] at going

theorem read_cases {c d : Client} {room : Nat} {o : ReadOutcome}
    (call : c.read room = some (o, d)) :
    (c.inbound ≠ [] ∧ o = .got (c.inbound.take room) ∧
      d = { c with inbound := c.inbound.drop room }) ∨
    (c.inbound = [] ∧ c.hasShut = true ∧ o = .got [] ∧ d = c) ∨
    (c.hasReset = true ∧ o = .failed .connectionReset ∧ d = c) := by
  unfold read at call
  split at call
  · rename_i some_left
    cases call
    exact Or.inl ⟨some_left, rfl, rfl⟩
  · rename_i none_left
    split at call
    · rename_i shut
      cases call
      exact Or.inr (Or.inl ⟨by simpa using none_left, shut, rfl, rfl⟩)
    · split at call
      · rename_i reset
        cases call
        exact Or.inr (Or.inr ⟨reset, rfl, rfl⟩)
      · cases call

theorem read_keeps {c d : Client} {room : Nat} {o : ReadOutcome}
    (call : c.read room = some (o, d)) :
    d.received = c.received ∧ d.outbound = c.outbound ∧ d.sent = c.sent ∧
      d.hasReset = c.hasReset := by
  rcases read_cases call with ⟨-, -, rfl⟩ | ⟨-, -, -, rfl⟩ | ⟨-, -, rfl⟩ <;>
    exact ⟨rfl, rfl, rfl, rfl⟩

theorem write_cases {c d : Client} {b : UInt8} {bs : Octets} {n : Nat} {o : WriteOutcome}
    (call : c.write (b :: bs) (n + 1) = (o, d)) :
    (∃ f, o = .failed f ∧ d = c) ∨
    (c.hasReset = false ∧ ∃ m, o = .took (m + 1) ∧
      d = { c with outbound := c.outbound ++ (b :: bs).take (m + 1) }) := by
  have least : min (n + 1) (b :: bs).length = min n bs.length + 1 := by simp
  have taken : (b :: bs).take (n + 1) = (b :: bs).take (min n bs.length + 1) := by
    simp [List.take_eq_take_iff]
  unfold write at call
  split at call
  · cases call
    exact Or.inl ⟨_, rfl, rfl⟩
  · rename_i kept
    have kept : c.hasReset = false := by simpa using kept
    split at call
    · split at call
      · cases call
        exact Or.inl ⟨_, rfl, rfl⟩
      · cases call
        exact Or.inr ⟨kept, _, by rw [least], by rw [taken]⟩
    · cases call
      exact Or.inr ⟨kept, _, by rw [least], by rw [taken]⟩

theorem Flows.send {c : Client} (h : c.Flows) (going : c.place ≠ .closed) (d : Octets) :
    (c.send d).Flows := by
  unfold Client.send
  split
  · exact h
  · simp only [Flows, Client.owed] at h ⊢
    rw [← List.append_assoc, h]

theorem Flows.take {c : Client} (h : c.Flows) (n : Nat) : (c.take n).Flows := by
  have all := List.take_append_drop n c.outbound
  simp only [Flows, Client.take, Client.owed] at h ⊢
  rw [List.append_assoc c.received, all]
  exact h

theorem Flows.read {c d : Client} {r : Relay} {o : ReadOutcome} (h : c.Flows)
    (served : c.place = .inService r) (reading : r.phase = .reading)
    (call : c.read r.chunkSize = some (o, d)) :
    Flows { d with place := .inService (r.afterRead o) } := by
  simp only [Flows, owed_served served, Relay.owed_reading reading, List.append_nil] at h
  rcases read_cases call with ⟨-, rfl, rfl⟩ | ⟨-, -, rfl, rfl⟩ | ⟨-, rfl, rfl⟩
  · simp only [Flows, Client.owed, Relay.owed_afterGot]
    rw [List.append_assoc, List.take_append_drop, h]
  · simp only [Flows, Client.owed, Relay.owed_afterGot, List.append_nil]
    exact h
  · have nothing : (r.afterRead (.failed .connectionReset)).owed = [] := by
      simp only [Relay.afterRead]
      rcases Relay.afterFault_cases r .connectionReset with ⟨-, again⟩ | ⟨-, ended⟩
      · rw [again, Relay.owed_reading reading]
      · rw [ended]
        rfl
    simp only [Flows, Client.owed, nothing, List.append_nil]
    exact h

theorem Flows.write {c : Client} {r : Relay} {size : Nat} {b : UInt8} {bs : Octets}
    (h : c.Flows) (served : c.place = .inService r) (writing : r.phase = .writing size b bs)
    (n : Nat) :
    Flows { c with
      outbound := c.outbound ++ (b :: bs).take (n + 1)
      place := .inService (r.afterWrite size (b :: bs) (.took (n + 1))) } := by
  have all := List.take_append_drop (n + 1) (b :: bs)
  simp only [Flows, owed_served served, Relay.owed_writing writing] at h
  simp only [Flows, Client.owed, (Relay.afterTook size n (b :: bs)).1]
  rw [← List.append_assoc, List.append_assoc (c.received ++ c.outbound), all]
  exact h

theorem Flows.returned {c : Client} (h : c.Flows) : c.received ++ c.outbound <+: c.sent := by
  unfold Flows at h
  rw [← h, List.append_assoc (c.received ++ c.outbound)]
  exact List.prefix_append _ _

theorem sent_send (c : Client) (d : Octets) : c.sent <+: (c.send d).sent := by
  unfold send
  split
  · exact List.prefix_refl _
  · split <;> exact List.prefix_append _ _

theorem Sound.send {c : Client} (h : c.Sound) (d : Octets) : (c.send d).Sound := by
  have same : (c.send d).received ++ (c.send d).outbound = c.received ++ c.outbound ∧
      (c.send d).hasReset = c.hasReset ∧ (c.send d).outbound = c.outbound ∧
      (c.send d).isDone = c.isDone := by
    unfold Client.send
    split
    · exact ⟨rfl, rfl, rfl, rfl⟩
    · split <;> exact ⟨rfl, rfl, rfl, rfl⟩
  obtain ⟨back, reset, out, done⟩ := same
  refine ⟨?_, ?_, ?_⟩
  · rw [back]
    exact h.returned.trans (sent_send c d)
  · rw [reset, out]
    exact h.dropped
  · rw [reset, done]
    intro kept going
    exact (h.flows kept going).send (not_closed_of_going going) d

theorem Sound.reset {c : Client} (h : c.Sound) : c.reset.Sound := by
  refine ⟨?_, fun _ => rfl, fun kept => by cases kept⟩
  have back := (List.prefix_append c.received c.outbound).trans h.returned
  simpa [Client.reset] using back

theorem Sound.take {c : Client} (h : c.Sound) (n : Nat) : (c.take n).Sound := by
  refine ⟨?_, ?_, fun kept going => (h.flows kept going).take n⟩
  · have back := h.returned
    rw [← List.take_append_drop n c.outbound, ← List.append_assoc] at back
    exact back
  · intro reset
    simp [Client.take, h.dropped reset]

theorem Sound.fault {c : Client} {r : Relay} (h : c.Sound) (served : c.place = .inService r)
    (going : c.isDone = false) (f : Fault) :
    Sound { c with place := .inService (r.afterFault f) } := by
  refine ⟨h.returned, h.dropped, fun kept on => ?_⟩
  rcases Relay.afterFault_cases r f with ⟨-, again⟩ | ⟨-, ended⟩
  · have flows := h.flows kept going
    simp only [Flows, Client.owed, served, again] at flows ⊢
    exact flows
  · rw [isDone_served rfl, ended] at on
    cases on

theorem Sound.read {c d : Client} {r : Relay} {o : ReadOutcome} (h : c.Sound)
    (served : c.place = .inService r) (reading : r.phase = .reading)
    (call : c.read r.chunkSize = some (o, d)) :
    Sound { d with place := .inService (r.afterRead o) } := by
  have going : c.isDone = false := (isDone_served served).trans (Relay.hasEnded_reading reading)
  obtain ⟨received, outbound, sent, reset⟩ := read_keeps call
  constructor
  · simp only [received, outbound, sent]
    exact h.returned
  · simp only [reset, outbound]
    exact h.dropped
  · intro kept _
    simp only [reset] at kept
    exact (h.flows kept going).read served reading call

theorem Sound.write {c d : Client} {r : Relay} {size n : Nat} {b : UInt8} {bs : Octets}
    {o : WriteOutcome} (h : c.Sound) (served : c.place = .inService r)
    (writing : r.phase = .writing size b bs) (call : c.write (b :: bs) (n + 1) = (o, d)) :
    Sound { d with place := .inService (r.afterWrite size (b :: bs) o) } := by
  have going : c.isDone = false := (isDone_served served).trans (Relay.hasEnded_writing writing)
  rcases write_cases call with ⟨f, rfl, rfl⟩ | ⟨kept, m, rfl, rfl⟩
  · exact h.fault served going f
  · have flows := (h.flows kept going).write served writing m
    refine ⟨flows.returned, ?_, fun _ _ => flows⟩
    intro reset
    simp only [kept] at reset
    cases reset

theorem Sound.move {fails : Bool} {c d : Client} (h : c.Sound) (move : Move fails c d) :
    d.Sound := by
  cases move with
  | send _ d => exact h.send d
  | shut =>
    unfold shut
    split
    · exact h
    · exact ⟨h.returned, h.dropped, h.flows⟩
  | reset => exact h.reset
  | take _ n => exact h.take n
  | read served reading call => exact h.read served reading call
  | write served writing call => exact h.write served writing call
  | fail served going f => exact h.fault served ((isDone_served served).trans going) f

theorem Sound.admit {c : Client} (h : c.Sound) (waits : c.place = .backlog) {r : Relay}
    (fresh : r.phase = .reading) : Sound { c with place := .inService r } := by
  refine ⟨h.returned, h.dropped, fun kept _ => ?_⟩
  have flows := h.flows kept (by simp [isDone, waits])
  simp only [Flows, Client.owed, waits, Relay.owed_reading fresh] at flows ⊢
  exact flows

theorem Sound.close {c : Client} (h : c.Sound) : c.close.Sound :=
  ⟨h.returned, h.dropped, fun _ going => by cases going⟩

theorem sound_fresh (room : Option Nat) : Sound { room := room } :=
  ⟨List.prefix_refl _, fun _ => rfl, fun _ _ => rfl⟩

theorem Intact.read {chunkSize : Nat} {c d : Client} {r : Relay} {o : ReadOutcome}
    (positive : 0 < chunkSize) (h : c.Intact chunkSize) (served : c.place = .inService r)
    (reading : r.phase = .reading) (call : c.read r.chunkSize = some (o, d))
    (succeeds : o.isFailure = false) :
    Intact chunkSize { d with place := .inService (r.afterRead o) } := by
  have room := h.room r served
  refine ⟨?_, ?_, ?_, fun _ closed => by cases closed⟩
  · intro q place
    cases place
    exact (Relay.settings_afterRead r o).2.trans room
  · intro kept
    have kept : c.hasReset = false := (read_keeps call).2.2.2.symm.trans kept
    exact (h.flows kept).read served reading call
  · intro kept done
    rcases read_cases call with ⟨left, rfl, rfl⟩ | ⟨empty, shut, rfl, rfl⟩ | ⟨-, rfl, -⟩
    · -- Some octets are read, since the buffer has room, so the relay goes on to write.
      obtain ⟨n, size⟩ : ∃ n, r.chunkSize = n + 1 := ⟨r.chunkSize - 1, by omega⟩
      obtain ⟨b, bs, octets⟩ := List.exists_cons_of_ne_nil left
      simp [isDone, octets, size, Relay.afterRead, Relay.hasEnded] at done
    · exact ⟨empty, shut⟩
    · cases succeeds

theorem Intact.write {chunkSize : Nat} {c d : Client} {r : Relay} {size n : Nat} {b : UInt8}
    {bs : Octets} {o : WriteOutcome} (h : c.Intact chunkSize) (served : c.place = .inService r)
    (writing : r.phase = .writing size b bs) (call : c.write (b :: bs) (n + 1) = (o, d))
    (succeeds : o.isFailure = false) :
    Intact chunkSize { d with place := .inService (r.afterWrite size (b :: bs) o) } := by
  rcases write_cases call with ⟨f, rfl, rfl⟩ | ⟨kept, m, rfl, rfl⟩
  · cases succeeds
  · refine ⟨?_, ?_, ?_, fun _ closed => by cases closed⟩
    · intro q place
      cases place
      exact (Relay.settings_afterWrite r size _ _).2.trans (h.room r served)
    · intro _
      exact (h.flows kept).write served writing m
    · intro _ done
      rw [isDone_served rfl, (Relay.afterTook size m (b :: bs)).2] at done
      cases done

theorem isDone_send (c : Client) (d : Octets) : (c.send d).isDone = c.isDone := by
  simp only [isDone, place_send]

theorem Intact.send {chunkSize : Nat} {c : Client} (h : c.Intact chunkSize) (d : Octets) :
    (c.send d).Intact chunkSize := by
  by_cases gone : c.hasShut = true ∨ c.hasReset = true
  · rw [show c.send d = c by simp [Client.send, gone]]
    exact h
  · obtain ⟨unshut, kept⟩ := not_or.mp gone
    rw [Bool.not_eq_true] at kept
    have going : c.isDone = false := by
      cases done : c.isDone with
      | false => rfl
      | true => exact absurd (h.finished kept done).2 unshut
    refine ⟨?_, fun _ => (h.flows kept).send (not_closed_of_going going) d, ?_, ?_⟩
    · rw [place_send]
      exact h.room
    · rw [isDone_send, going]
      intro _ done
      cases done
    · rw [place_send]
      exact fun _ closed => absurd closed (not_closed_of_going going)

theorem Intact.shut {chunkSize : Nat} {c : Client} (h : c.Intact chunkSize) :
    c.shut.Intact chunkSize := by
  unfold Client.shut
  split
  · exact h
  · exact ⟨h.room, h.flows, fun kept done => ⟨(h.finished kept done).1, rfl⟩, h.whole⟩

theorem Intact.reset {chunkSize : Nat} {c : Client} (h : c.Intact chunkSize) :
    c.reset.Intact chunkSize := by
  refine ⟨h.room, ?_, ?_, ?_⟩ <;>
  · intro kept
    cases kept

theorem Intact.move {chunkSize : Nat} {c d : Client} (positive : 0 < chunkSize)
    (h : c.Intact chunkSize) (move : Move false c d) : d.Intact chunkSize := by
  generalize fails : false = succeeds at move
  cases move with
  | send _ d => exact h.send d
  | shut => exact h.shut
  | reset => exact h.reset
  | take _ n => exact ⟨h.room, fun kept => (h.flows kept).take n, h.finished, h.whole⟩
  | read served reading call => exact h.read positive served reading call fails.symm
  | write served writing call => exact h.write served writing call fails.symm
  | fail served going f => cases fails

theorem Intact.admit {chunkSize : Nat} {c : Client} (h : c.Intact chunkSize)
    (waits : c.place = .backlog) {r : Relay} (fresh : r.phase = .reading)
    (room : r.chunkSize = chunkSize) : Intact chunkSize { c with place := .inService r } := by
  refine ⟨?_, fun kept => ?_, ?_, fun _ closed => by cases closed⟩
  · intro q place
    cases place
    exact room
  · have flows := h.flows kept
    simp only [Flows, Client.owed, waits, Relay.owed_reading fresh] at flows ⊢
    exact flows
  · intro _ done
    rw [isDone_served rfl, Relay.hasEnded_reading fresh] at done
    cases done

theorem Intact.close {chunkSize : Nat} {c : Client} {r : Relay} {e : Ending}
    (h : c.Intact chunkSize) (served : c.place = .inService r) (ended : r.phase = .ended e) :
    c.close.Intact chunkSize := by
  have done : c.isDone = true := (isDone_served served).trans (Relay.hasEnded_ended ended)
  refine ⟨?_, fun kept => ?_, fun kept _ => h.finished kept done, fun kept _ => ?_⟩
  · intro _ place
    cases place
  · have flows := h.flows kept
    simp only [Flows, owed_served served, Relay.owed_ended ended] at flows
    exact flows
  · simp [Client.close, (h.finished kept done).1]

theorem intact_fresh (chunkSize : Nat) (room : Option Nat) :
    Intact chunkSize { room := room } := by
  refine ⟨?_, fun _ => rfl, ?_, ?_⟩
  · intro _ place
    cases place
  · intro _ done
    cases done
  · intro _ closed
    cases closed

end Client

namespace Server

variable {runtime : Runtime} {chunkSize maxConnections : Nat} {s t : Server}

theorem Reachable.sound (h : Reachable runtime chunkSize maxConnections s) {k : Nat} {c : Client}
    (here : s.clients[k]? = some c) : c.Sound := by
  induction h generalizing k c with
  | start => cases here
  | step a _ step ih =>
    rcases (step_change step).origin here with ⟨-, room, rfl⟩ | ⟨b, there, passage⟩
    · exact Client.sound_fresh room
    · have before := ih there
      cases passage with
      | stays => exact before
      | moves about move => exact before.move move
      | admitted accept oldest waits => exact before.admit waits rfl
      | dismissed about served ended => exact before.close

/-- The states that a server can come to without a call on the connection of a client that
fails. -/
inductive Spared (runtime : Runtime) (chunkSize maxConnections k : Nat) : Server → Prop where
  | start : Spared runtime chunkSize maxConnections k (start runtime chunkSize maxConnections)
  | step {s t : Server} (a : Action) : Spared runtime chunkSize maxConnections k s →
      s.step a = some t → s.callFails k a = false →
      Spared runtime chunkSize maxConnections k t

theorem Spared.reachable {k : Nat} (h : Spared runtime chunkSize maxConnections k s) :
    Reachable runtime chunkSize maxConnections s := by
  induction h with
  | start => exact .start
  | step a _ step _ ih => exact .step a ih step

theorem Spared.intact {k : Nat} (h : Spared runtime chunkSize maxConnections k s)
    (positive : 0 < chunkSize) {c : Client} (here : s.clients[k]? = some c) :
    c.Intact chunkSize := by
  induction h generalizing c with
  | start => cases here
  | step a spared step succeeds ih =>
    rcases (step_change step).origin here with ⟨-, room, rfl⟩ | ⟨b, there, passage⟩
    · exact Client.intact_fresh chunkSize room
    · have before := ih there
      cases passage with
      | stays => exact before
      | moves about move =>
        rw [succeeds] at move
        exact before.move positive move
      | admitted accept oldest waits =>
        exact before.admit waits rfl spared.reachable.settings.2
      | dismissed about served ended => exact before.close served ended

end Server
end TcpEcho
