import Mathlib.Tactic.SplitIfs
import TcpEcho.Proofs.Server.Streams
/- A server that is left to itself comes to rest: whatever it does next leaves less to be done, and
   the bound on its actions lets it go on until nothing is left. -/
namespace TcpEcho

/-- The actions that a connection can still cause if its client does nothing more: two for each
octet on its way in, and a few to begin and to end. -/
def Client.toDo (c : Client) : Nat :=
  match c.place with
  | .backlog => 2 * c.inbound.length + 3
  | .inService r =>
    match r.phase with
    | .reading => 2 * c.inbound.length + 2
    | .writing _ _ _ => 2 * c.inbound.length + 3
    | .ended _ => 1
  | .closed => 0

namespace Client

theorem toDo_reading {c : Client} {r : Relay} (served : c.place = .inService r)
    (reading : r.phase = .reading) : c.toDo = 2 * c.inbound.length + 2 := by
  simp [toDo, served, reading]

theorem toDo_writing {c : Client} {r : Relay} (served : c.place = .inService r) {size : Nat}
    {b : UInt8} {bs : Octets} (writing : r.phase = .writing size b bs) :
    c.toDo = 2 * c.inbound.length + 3 := by
  simp [toDo, served, writing]

theorem toDo_ended {c : Client} {r : Relay} (served : c.place = .inService r) {e : Ending}
    (ended : r.phase = .ended e) : c.toDo = 1 := by
  simp [toDo, served, ended]

theorem toDo_fault {r : Relay} {f : Fault} (final : f.isInterrupt = false) (c : Client) :
    ({ c with place := .inService (r.afterFault f) } : Client).toDo = 1 := by
  have fails : r.afterFault f = r.fail f := if_neg (by simp [final])
  rw [fails]
  exact toDo_ended rfl rfl

theorem toDo_read {c d : Client} {r : Relay} {o : ReadOutcome} (served : c.place = .inService r)
    (reading : r.phase = .reading) (call : c.read r.chunkSize = some (o, d)) :
    ({ d with place := .inService (r.afterRead o) } : Client).toDo < c.toDo := by
  rw [toDo_reading served reading]
  obtain ⟨-, rfl, rfl⟩ | ⟨-, -, rfl, rfl⟩ | ⟨-, rfl, rfl⟩ := read_cases call
  · have size := congrArg List.length (List.take_append_drop r.chunkSize c.inbound)
    rw [List.length_append] at size
    cases piece : c.inbound.take r.chunkSize with
    | nil =>
      rw [toDo_ended rfl rfl]
      omega
    | cons b bs =>
      -- The write to come is paid for by the octets of the piece.
      rw [piece, List.length_cons] at size
      rw [toDo_writing rfl rfl]
      simp only
      omega
  · rw [toDo_ended rfl rfl]
    omega
  · rw [Relay.afterRead, toDo_fault (by decide)]
    omega

theorem write_whole {c d : Client} {b : UInt8} {bs : Octets} {o : WriteOutcome}
    (call : c.write (b :: bs) (bs.length + 1) = (o, d)) :
    (∃ f, f.isInterrupt = false ∧ o = .failed f) ∨
    o = .took (bs.length + 1) ∧ d.inbound = c.inbound := by
  have all : min (bs.length + 1) (b :: bs).length = bs.length + 1 := by simp
  have final : c.writeFault.isInterrupt = false := by
    unfold writeFault
    split <;> decide
  unfold write at call
  rw [all] at call
  split at call
  · cases call
    exact Or.inl ⟨_, final, rfl⟩
  · split at call
    · split at call
      · cases call
        exact Or.inl ⟨.timedOut, by decide, rfl⟩
      · cases call
        exact Or.inr ⟨rfl, rfl⟩
    · cases call
      exact Or.inr ⟨rfl, rfl⟩

theorem toDo_write {c d : Client} {r : Relay} (served : c.place = .inService r) {size : Nat}
    {b : UInt8} {bs : Octets} (writing : r.phase = .writing size b bs) {o : WriteOutcome}
    (call : c.write (b :: bs) (bs.length + 1) = (o, d)) :
    ({ d with place := .inService (r.afterWrite size (b :: bs) o) } : Client).toDo < c.toDo := by
  rw [toDo_writing served writing]
  rcases write_whole call with ⟨f, final, rfl⟩ | ⟨rfl, same⟩
  · rw [Relay.afterWrite, toDo_fault final]
    omega
  · have reads : (r.afterWrite size (b :: bs) (.took (bs.length + 1))).phase = .reading := by
      simp [Relay.afterWrite]
    rw [toDo_reading rfl reads]
    simp only [same]
    omega

theorem toDo_le_workFor (c : Client) : c.toDo ≤ Server.workFor c := by
  unfold toDo Server.workFor
  split
  · omega
  · split <;> omega
  · omega

end Client

namespace Server

/-- One accept can fail, and the loop pauses behind it. -/
def toDo (s : Server) : Nat :=
  s.clients.foldr (fun c n => c.toDo + n) 0 + if s.loop = .pausing then 0 else 1

variable {s t : Server} {a : Action}

theorem foldr_set_lt {cs : List Client} {k : Nat} {c d : Client} (here : cs[k]? = some c)
    (less : d.toDo < c.toDo) :
    (cs.set k d).foldr (fun c n => c.toDo + n) 0 < cs.foldr (fun c n => c.toDo + n) 0 := by
  induction cs generalizing k with
  | nil => cases here
  | cons b cs ih =>
    cases k with
    | zero =>
      cases here
      simpa using less
    | succ k => simpa using ih here

theorem toDo_set_lt {k : Nat} {c d : Client} (here : s.clients[k]? = some c)
    (less : d.toDo < c.toDo) (same : t.clients = s.clients.set k d)
    (awake : s.loop = .pausing → t.loop = .pausing) : t.toDo < s.toDo := by
  have fewer := foldr_set_lt here less
  unfold toDo
  rw [same]
  split_ifs with before after after
  · omega
  · omega
  · exact absurd (awake after) before
  · omega

theorem pending_lighter {k : Nat} (pending : s.pendingAction? k = some a) :
    ∃ t, s.step a = some t ∧ t.toDo < s.toDo := by
  unfold pendingAction? at pending
  cases found : s.relay? k with
  | none =>
    rw [found] at pending
    cases pending
  | some p =>
    obtain ⟨c, r⟩ := p
    obtain ⟨here, served⟩ := relay?_eq_some found
    rw [found] at pending
    simp only at pending
    split at pending
    · rename_i reading
      obtain ⟨⟨o, d⟩, call, rfl⟩ := Option.map_eq_some_iff.mp pending
      refine ⟨_, by simp only [step, found, if_pos reading, call, Option.map_some]; rfl, ?_⟩
      refine toDo_set_lt here (Client.toDo_read served reading call) ?_ id
      simp only [change_eq_set here]
    · rename_i size b bs writing
      cases pending
      cases call : c.write (b :: bs) (bs.length + 1) with
      | mk o d =>
        refine ⟨_, by simp only [step, found, writing, call]; rfl, ?_⟩
        refine toDo_set_lt here (Client.toDo_write served writing call) ?_ id
        simp only [change_eq_set here]
    · rename_i e ended
      cases pending
      have closes : c.close.toDo < c.toDo := by
        rw [Client.toDo_ended served ended]
        exact Nat.one_pos
      refine ⟨_, by simp only [step, found, ended]; rfl, ?_⟩
      refine toDo_set_lt here closes ?_ id
      simp only [change_eq_set here]

theorem accept_lighter (waits : s.oldest?.isSome = true) (may : s.mayAccept = true)
    (descriptors : s.hasDescriptors = true) :
    ∃ t, s.step .accept = some t ∧ t.toDo < s.toDo := by
  obtain ⟨k, oldest⟩ := Option.isSome_iff_exists.mp waits
  have inside := (List.findIdx?_eq_some_iff_getElem.mp oldest).1
  have here := List.getElem?_eq_getElem inside
  have place := waits_of_oldest oldest here
  refine ⟨_, by simp only [step, oldest, if_pos (And.intro may descriptors)]; rfl, ?_⟩
  refine toDo_set_lt here (d := { s.clients[k] with place := .inService s.newRelay }) ?_ ?_ ?_
  · rw [Client.toDo_reading rfl rfl]
    simp [Client.toDo, place]
  · simp only [change_eq_set here]
    rfl
  · intro pausing
    simp [mayAccept, pausing] at may

theorem failAccept_lighter (may : s.mayAccept = true) (f : Fault) :
    ∃ t, s.step (.failAccept f) = some t ∧ t.toDo < s.toDo := by
  refine ⟨_, by simp only [step, if_pos may]; rfl, ?_⟩
  have awake : s.loop ≠ .pausing := by
    intro pausing
    simp [mayAccept, pausing] at may
  simp [toDo, awake]

theorem next_lighter (next : s.nextAction? = some a) :
    ∃ t, s.step a = some t ∧ t.toDo < s.toDo := by
  unfold nextAction? at next
  split at next
  · rename_i found
    cases next
    obtain ⟨k, -, pending⟩ := List.exists_of_findSome?_eq_some found
    exact pending_lighter pending
  · split_ifs at next with idle descriptors
    · cases next
      exact accept_lighter idle.1 idle.2 descriptors
    · cases next
      exact failAccept_lighter idle.2 _

theorem toDo_acquired (s : Server) : s.acquired.toDo = s.toDo := by
  unfold acquired
  cases done : s.step .acquire with
  | none => rfl
  | some t =>
    simp only [step] at done
    split at done
    · rename_i idle free
      cases done
      simp [toDo, idle]
    · cases done

theorem settleFor_rests (fuel : Nat) (enough : s.toDo ≤ fuel) :
    (settleFor fuel s).nextAction? = none := by
  induction fuel generalizing s with
  | zero =>
    cases next : s.nextAction? with
    | none => exact next
    | some a =>
      obtain ⟨t, -, less⟩ := next_lighter next
      omega
  | succ fuel ih =>
    cases next : s.nextAction? with
    | none =>
      simp only [settleFor, next, Option.bind_none]
    | some a =>
      obtain ⟨t, made, less⟩ := next_lighter next
      simp only [settleFor, next, Option.bind_some, made]
      apply ih
      rw [toDo_acquired]
      omega

theorem toDo_le_workLeft (s : Server) : s.toDo ≤ s.workLeft := by
  have each : ∀ cs : List Client,
      cs.foldr (fun c n => c.toDo + n) 0 + 1 ≤ cs.foldr (fun c n => workFor c + n) 1 := by
    intro cs
    induction cs with
    | nil => exact Nat.le_refl 1
    | cons c cs ih =>
      have first := c.toDo_le_workFor
      rw [List.foldr_cons, List.foldr_cons]
      omega
  have all := each s.clients
  unfold toDo workLeft
  split_ifs <;> omega

/-- A server that waits for its clients: each connection waits for more to come in, and nobody
waits for the server unless it may not accept. -/
structure Resting (s : Server) : Prop where
  served : ∀ c ∈ s.clients, ∀ r, c.place = .inService r →
    r.phase = .reading ∧ c.inbound = [] ∧ c.hasShut = false ∧ c.hasReset = false
  waits : ∀ c ∈ s.clients, c.place = .backlog → s.mayAccept = false

theorem resting_of_none (none : s.nextAction? = none) : s.Resting := by
  unfold nextAction? at none
  split at none
  · cases none
  · rename_i nothing
    rw [List.findSome?_eq_none_iff] at nothing
    constructor
    · intro c member r served
      obtain ⟨k, inside, rfl⟩ := List.getElem_of_mem member
      have found : s.relay? k = some (s.clients[k], r) := by
        simp [relay?, List.getElem?_eq_getElem inside, served]
      have pending := nothing k (List.mem_range.mpr inside)
      simp only [pendingAction?, found] at pending
      split at pending
      · rename_i reading
        rw [Option.map_eq_none_iff] at pending
        unfold Client.read at pending
        split_ifs at pending with some_left shut gone
        simp only [ne_eq, Decidable.not_not, Bool.not_eq_true] at some_left shut gone
        exact ⟨reading, some_left, shut, gone⟩
      · cases pending
      · cases pending
    · intro c member waits
      rw [Bool.eq_false_iff]
      intro may
      have some_waits : s.oldest?.isSome = true := by
        rw [oldest?, List.findIdx?_isSome]
        exact List.any_eq_true.mpr ⟨c, member, (Client.waits_iff c).mpr waits⟩
      rw [if_pos ⟨some_waits, may⟩] at none
      cases none

/-- However a server stands, it comes to rest. -/
theorem settle_rests (s : Server) : s.settle.Resting := by
  apply resting_of_none
  apply settleFor_rests
  rw [toDo_acquired]
  cases done : s.step .resume with
  | none => exact s.toDo_le_workLeft
  | some t =>
    have same : t.clients = s.clients := by
      simp only [step] at done
      split_ifs at done
      cases done
      rfl
    have bound := t.toDo_le_workLeft
    unfold workLeft at bound ⊢
    rw [same] at bound
    exact bound

end Server
end TcpEcho
