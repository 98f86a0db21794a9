import TcpEcho.Proofs.Server.Permits
import TcpEcho.Proofs.Server.Rest
/- A server never ends. Whatever its clients have done, and however its calls and its accepts have
   come out, it can still come to serve somebody who has not connected yet: once all clients have
   left and there are descriptors again, all that it has to do is to come to rest. -/
namespace TcpEcho

/-- What a server does by itself while nothing fails. -/
def Action.isWork : Action → Bool
  | .acquire => true
  | .accept => true
  | .resume => true
  | .read _ => true
  | .write _ _ => true
  | .finish _ => true
  | _ => false

namespace Server

/-- One server becomes the other by actions of a kind. -/
inductive Leads (kind : Action → Bool) : Server → Server → Prop where
  | refl (s : Server) : Leads kind s s
  | step {s t u : Server} {a : Action} (before : Leads kind s t) (of_kind : kind a = true)
      (made : t.step a = some u) : Leads kind s u

/-- Whatever happens from now on, nobody who connects from now on is ever served. -/
def HasEnded (s : Server) : Prop :=
  ∀ t, Leads (fun _ => true) s t → ∀ k c, s.clients.length ≤ k → t.clients[k]? = some c →
    c.place = .backlog

variable {s t u : Server} {a : Action} {kind : Action → Bool}

theorem Leads.trans (first : Leads kind s t) (second : Leads kind t u) : Leads kind s u := by
  induction second with
  | refl => exact first
  | step before of_kind made ih => exact ih.step of_kind made

theorem Leads.single (of_kind : kind a = true) (made : s.step a = some t) : Leads kind s t :=
  (Leads.refl s).step of_kind made

theorem Leads.anyhow (h : Leads kind s t) : Leads (fun _ => true) s t := by
  induction h with
  | refl => exact .refl _
  | step before of_kind made ih => exact ih.step rfl made

theorem Reachable.leads {runtime : Runtime} {chunkSize maxConnections : Nat}
    (h : Reachable runtime chunkSize maxConnections s) (onward : Leads kind s t) :
    Reachable runtime chunkSize maxConnections t := by
  induction onward with
  | refl => exact h
  | step before of_kind made ih => exact ih.step _ made

/- Clients that have left -/

theorem hasReset_move {fails : Bool} {c d : Client} (h : Client.Move fails c d)
    (gone : c.hasReset = true) : d.hasReset = true := by
  cases h with
  | send d =>
    unfold Client.send
    rw [if_pos (Or.inr gone)]
    exact gone
  | shut =>
    unfold Client.shut
    rw [if_pos gone]
    exact gone
  | reset => rfl
  | take n => exact gone
  | read served reading call => exact (Client.read_keeps call).2.2.2.trans gone
  | write served writing call =>
    rcases Client.write_cases call with ⟨f, -, rfl⟩ | ⟨kept, -⟩
    · exact gone
    · rw [gone] at kept
      cases kept
  | fail served going f => exact gone

theorem Passage.hasReset {k : Nat} {c d : Client} (h : Passage s k a c d)
    (gone : c.hasReset = true) : d.hasReset = true := by
  cases h with
  | stays => exact gone
  | moves about move => exact hasReset_move move gone
  | admitted accept oldest waits => exact gone
  | dismissed about served ended => exact gone

theorem Leads.hasReset (h : Leads kind s t) {k : Nat} {c : Client} (here : s.clients[k]? = some c)
    (gone : c.hasReset = true) : ∃ d, t.clients[k]? = some d ∧ d.hasReset = true := by
  induction h with
  | refl => exact ⟨c, here, gone⟩
  | step before of_kind made ih =>
    obtain ⟨d, there, left⟩ := ih
    obtain ⟨e, found, passage⟩ := (step_change made).passage there
    exact ⟨e, found, passage.hasReset left⟩

theorem leads_reset (left still : List Client) (all : s.clients = left ++ still) :
    Leads (fun _ => true) s { s with clients := left ++ still.map Client.reset } := by
  induction still generalizing s left with
  | nil =>
    have same : s = { s with clients := left ++ [].map Client.reset } := by
      rw [List.map_nil, ← all]
    rw [← same]
    exact .refl s
  | cons c still ih =>
    have here : s.clients[left.length]? = some c := by simp [all]
    have inside := (List.getElem?_eq_some_iff.mp here).1
    have set : s.clients.set left.length c.reset = left ++ c.reset :: still := by simp [all]
    have made : s.step (.reset left.length) =
        some { s with clients := left ++ c.reset :: still } := by
      simp only [step, onClient, if_pos inside, change_eq_set here, set]
    have others := ih (s := { s with clients := left ++ c.reset :: still }) (left ++ [c.reset])
      (by simp)
    simp only [List.append_assoc, List.singleton_append] at others
    exact (Leads.single rfl made).trans others

theorem leads_deserted (s : Server) : ∃ t newcomer, Leads (fun _ => true) s t ∧
    t.hasDescriptors = true ∧ t.clients = s.clients.map Client.reset ++ [newcomer] := by
  have left := leads_reset [] s.clients rfl
  have restored := left.step (a := .restoreDescriptors) rfl rfl
  have joined := restored.step (a := .connect none) rfl rfl
  exact ⟨_, _, joined, rfl, rfl⟩

/- The accept loop -/

/-- The accept loop neither pauses nor is about to, and waits for a permit only if it needs
one. -/
structure Awake (s : Server) : Prop where
  hasDescriptors : s.hasDescriptors = true
  loop : s.loop = .ready ∨ s.loop = .idle ∧ s.runtime = .concurrent

theorem Reachable.idle_concurrent {runtime : Runtime} {chunkSize maxConnections : Nat}
    (h : Reachable runtime chunkSize maxConnections s) (idle : s.loop = .idle) :
    s.runtime = .concurrent := by
  have rests : ∀ q : Server, q.loopAtRest = .idle → q.runtime = .concurrent := by
    intro q rest
    unfold loopAtRest at rest
    split at rest
    · cases rest
    · rename_i concurrent
      exact concurrent
  induction h with
  | start =>
    cases runtime with
    | serial => cases idle
    | concurrent => rfl
  | step a before made ih =>
    cases step_change made with
    | acquires concurrent was_idle free => exact concurrent
    | admits oldest here may log => exact rests _ idle
    | declines f may log => cases idle
    | resumes pausing => exact rests _ idle
    | _ => exact ih idle

theorem awake_loopAtRest (s : Server) :
    s.loopAtRest = .ready ∨ s.loopAtRest = .idle ∧ s.runtime = .concurrent := by
  unfold loopAtRest
  split
  · exact Or.inl rfl
  · rename_i concurrent
    exact Or.inr ⟨rfl, concurrent⟩

theorem Awake.work (h : s.Awake) (work : a.isWork = true) (made : s.step a = some t) :
    t.Awake := by
  cases step_change made with
  | joins room => cases work
  | moves about here move log => exact ⟨h.hasDescriptors, h.loop⟩
  | exhausts => cases work
  | restores => cases work
  | acquires concurrent idle free => exact ⟨h.hasDescriptors, Or.inl rfl⟩
  | admits oldest here may log => exact ⟨h.hasDescriptors, awake_loopAtRest s⟩
  | declines f may log => cases work
  | resumes pausing => exact ⟨h.hasDescriptors, awake_loopAtRest s⟩
  | dismisses here served ended log => exact ⟨h.hasDescriptors, h.loop⟩

theorem length_work (work : a.isWork = true) (made : s.step a = some t) :
    t.clients.length = s.clients.length := by
  rcases (step_change made).joins_or_length with ⟨room, joined⟩ | same
  · cases step_change made with
    | joins room => cases work
    | moves about here move log => simp
    | admits oldest here may log => simp
    | dismisses here served ended log => simp
    | _ => rfl
  · exact same

theorem Leads.length (h : Leads Action.isWork s t) : t.clients.length = s.clients.length := by
  induction h with
  | refl => rfl
  | step before work made ih => exact (length_work work made).trans ih

theorem Leads.awake (h : Leads Action.isWork s t) (start : s.Awake) : t.Awake := by
  induction h with
  | refl => exact start
  | step before work made ih => exact ih.work work made

theorem leads_acquired (s : Server) : Leads Action.isWork s s.acquired := by
  unfold acquired
  cases made : s.step .acquire with
  | none => exact .refl s
  | some t => exact .single rfl made

theorem permits_acquired (idle : s.acquired.loop = .idle)
    (concurrent : s.acquired.runtime = .concurrent) : s.acquired.permits = 0 := by
  unfold acquired at idle concurrent ⊢
  cases made : s.step .acquire with
  | none =>
    simp only [made, Option.getD_none] at idle concurrent ⊢
    cases free : s.permits with
    | zero => rfl
    | succ n => simp [step, idle, concurrent, free] at made
  | some t =>
    simp only [made, Option.getD_some] at idle
    cases step_change made with
    | moves about here move log => cases about
    | acquires _ was_idle free => cases idle

theorem isWork_of_next (h : s.Awake) (next : s.nextAction? = some a) : a.isWork = true := by
  unfold nextAction? at next
  split at next
  · rename_i found
    cases next
    obtain ⟨k, -, pending⟩ := List.exists_of_findSome?_eq_some found
    unfold pendingAction? at pending
    split at pending
    · cases pending
    · split at pending
      · obtain ⟨p, -, rfl⟩ := Option.map_eq_some_iff.mp pending
        rfl
      · cases pending
        rfl
      · cases pending
        rfl
  · rw [if_pos h.hasDescriptors] at next
    split at next
    · cases next
      rfl
    · cases next

theorem settleFor_leads (fuel : Nat) (h : s.Awake)
    (taken : s.loop = .idle → s.runtime = .concurrent → s.permits = 0) :
    Leads Action.isWork s (settleFor fuel s) ∧
    ((settleFor fuel s).loop = .idle → (settleFor fuel s).runtime = .concurrent →
      (settleFor fuel s).permits = 0) := by
  induction fuel generalizing s with
  | zero => exact ⟨.refl s, taken⟩
  | succ fuel ih =>
    unfold settleFor
    split
    · rename_i t done
      obtain ⟨a, next, made⟩ := Option.bind_eq_some_iff.mp done
      have onward : Leads Action.isWork s t.acquired :=
        (Leads.single (isWork_of_next h next) made).trans (leads_acquired t)
      obtain ⟨rest, permits⟩ := ih (onward.awake h) permits_acquired
      exact ⟨onward.trans rest, permits⟩
    · exact ⟨.refl s, taken⟩

theorem resume_leads {runtime : Runtime} {chunkSize maxConnections : Nat}
    (h : Reachable runtime chunkSize maxConnections s) (descriptors : s.hasDescriptors = true) :
    Leads Action.isWork s ((s.step .resume).getD s) ∧ ((s.step .resume).getD s).Awake := by
  cases made : s.step .resume with
  | some t =>
    refine ⟨.single rfl made, ?_⟩
    cases step_change made with
    | moves about here move log => cases about
    | resumes pausing => exact ⟨descriptors, awake_loopAtRest s⟩
  | none =>
    refine ⟨.refl s, descriptors, ?_⟩
    cases loop : s.loop with
    | idle => exact Or.inr ⟨loop, h.idle_concurrent loop⟩
    | ready => exact Or.inl loop
    | pausing => simp [step, loop] at made

theorem settle_leads {runtime : Runtime} {chunkSize maxConnections : Nat}
    (h : Reachable runtime chunkSize maxConnections s) (descriptors : s.hasDescriptors = true) :
    Leads Action.isWork s s.settle ∧ s.settle.Awake ∧
    (s.settle.loop = .idle → s.settle.runtime = .concurrent → s.settle.permits = 0) := by
  obtain ⟨resumed, awake⟩ := resume_leads h descriptors
  have acquired := leads_acquired ((s.step .resume).getD s)
  obtain ⟨settled, permits⟩ := settleFor_leads s.workLeft (acquired.awake awake) permits_acquired
  have onward : Leads Action.isWork s s.settle := (resumed.trans acquired).trans settled
  exact ⟨onward, settled.awake (acquired.awake awake), permits⟩

theorem Resting.inService_eq_zero (rests : s.Resting)
    (each : ∀ c ∈ s.clients, c.hasReset = true ∨ c.place = .backlog) : s.inService = 0 := by
  unfold inService
  rw [List.countP_eq_zero]
  intro c member served
  unfold Client.isServed at served
  split at served
  · rename_i r place
    rcases each c member with gone | waits
    · rw [(rests.served c member r place).2.2.2] at gone
      cases gone
    · rw [place] at waits
      cases waits
  · cases served

theorem Reachable.mayAccept {runtime : Runtime} {chunkSize maxConnections : Nat}
    (h : Reachable runtime chunkSize maxConnections s) (some_place : 1 ≤ maxConnections)
    (awake : s.Awake) (taken : s.loop = .idle → s.runtime = .concurrent → s.permits = 0)
    (nobody : s.inService = 0) : s.mayAccept = true := by
  rcases awake.loop with ready | ⟨idle, concurrent⟩
  · simp [Server.mayAccept, ready, nobody]
  · have same := h.settings.1
    rw [concurrent] at same
    subst same
    have balance := h.permits
    rw [taken idle concurrent, nobody, heldPermits_idle idle] at balance
    omega

/-- When all others have left, a server that has descriptors is at rest only if it has taken its
last client out of the backlog: the others hold no place in service for long. -/
theorem settle_serves {runtime : Runtime} {chunkSize maxConnections : Nat}
    (h : Reachable runtime chunkSize maxConnections s) (some_place : 1 ≤ maxConnections)
    (descriptors : s.hasDescriptors = true) {others : List Client} {newcomer : Client}
    (all : s.clients = others ++ [newcomer]) (gone : ∀ c ∈ others, c.hasReset = true) :
    ∃ c, s.settle.clients[others.length]? = some c ∧ c.place ≠ .backlog := by
  obtain ⟨onward, awake, taken⟩ := settle_leads h descriptors
  have rests := settle_rests s
  have count : s.settle.clients.length = others.length + 1 := by
    rw [onward.length, all, List.length_append, List.length_singleton]
  have inside : others.length < s.settle.clients.length := by omega
  refine ⟨s.settle.clients[others.length], List.getElem?_eq_getElem inside, ?_⟩
  intro waits
  have nobody : s.settle.inService = 0 := by
    apply rests.inService_eq_zero
    intro c member
    obtain ⟨k, here, rfl⟩ := List.getElem_of_mem member
    by_cases last : k = others.length
    · subst last
      exact Or.inr waits
    · have other : k < others.length := by omega
      have before : s.clients[k]? = some others[k] := by
        rw [all, List.getElem?_append_left other, List.getElem?_eq_getElem other]
      obtain ⟨d, there, left⟩ := onward.hasReset before (gone _ (List.getElem_mem other))
      rw [List.getElem?_eq_getElem here] at there
      cases there
      exact Or.inl left
  have may := (h.leads onward).mayAccept some_place awake taken nobody
  rw [rests.waits _ (List.getElem_mem inside) waits] at may
  cases may

/-- From wherever a server has come to, it can come to serve somebody who has not connected
yet. -/
theorem not_hasEnded {runtime : Runtime} {chunkSize maxConnections : Nat}
    (h : Reachable runtime chunkSize maxConnections s) (some_place : 1 ≤ maxConnections) :
    ¬ s.HasEnded := by
  intro ended
  obtain ⟨t, newcomer, deserted, descriptors, all⟩ := leads_deserted s
  have reached := h.leads deserted
  have gone : ∀ c ∈ s.clients.map Client.reset, c.hasReset = true := by
    intro c member
    obtain ⟨b, -, rfl⟩ := List.mem_map.mp member
    rfl
  obtain ⟨c, here, served⟩ := settle_serves reached some_place descriptors all gone
  rw [List.length_map] at here
  have onward := deserted.trans (settle_leads reached descriptors).1.anyhow
  exact served (ended _ onward s.clients.length c (Nat.le_refl _) here)

end Server
end TcpEcho
