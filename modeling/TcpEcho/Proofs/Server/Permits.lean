import TcpEcho.Proofs.Server.Steps
/- The permits of the concurrent server. Each is free, held by the accept loop, or with a
   connection in service, whatever the clients do and however connections and accepts end. -/
namespace TcpEcho.Server

theorem countP_set_add {α : Type} (p : α → Bool) {xs : List α} {k : Nat} {a b : α}
    (here : xs[k]? = some a) :
    (xs.set k b).countP p + (if p a then 1 else 0) = xs.countP p + (if p b then 1 else 0) := by
  obtain ⟨inside, rfl⟩ := List.getElem?_eq_some_iff.mp here
  have counted := List.boole_getElem_le_countP (p := p) inside
  rw [List.countP_set inside]
  omega

theorem inService_set {s : Server} {k : Nat} {c : Client} (here : s.clients[k]? = some c)
    (d : Client) :
    (s.clients.set k d).countP Client.isServed + (if c.isServed then 1 else 0) =
      s.inService + (if d.isServed then 1 else 0) :=
  countP_set_add Client.isServed here

theorem isServed_move {fails : Bool} {c d : Client} (h : Client.Move fails c d) :
    d.isServed = c.isServed := by
  rw [Bool.eq_iff_iff, Client.isServed_iff, Client.isServed_iff, Client.stage_move h]

theorem loop_of_mayAccept {s : Server} (may : s.mayAccept = true) : s.loop = .ready := by
  simp only [mayAccept, Bool.and_eq_true, decide_eq_true_eq] at may
  exact may.1

theorem heldPermits_ready {s : Server} (concurrent : s.runtime = .concurrent)
    (ready : s.loop = .ready) : s.heldPermits = 1 := by
  simp [heldPermits, concurrent, ready]

theorem heldPermits_pausing {s : Server} (concurrent : s.runtime = .concurrent)
    (pausing : s.loop = .pausing) : s.heldPermits = 1 := by
  simp [heldPermits, concurrent, pausing]

theorem heldPermits_idle {s : Server} (idle : s.loop = .idle) : s.heldPermits = 0 := by
  simp [heldPermits, idle]

theorem inService_of_dismissal {s : Server} {k : Nat} {c : Client} {r : Relay}
    (here : s.clients[k]? = some c) (served : c.place = .inService r) :
    (s.clients.set k c.close).countP Client.isServed + 1 = s.inService := by
  have counted := inService_set here c.close
  simpa [Client.isServed, served, Client.close] using counted

theorem Change.permits {s t : Server} {a : Action} (h : Change s a t)
    (concurrent : s.runtime = .concurrent) :
    t.permits + t.inService + t.heldPermits = s.permits + s.inService + s.heldPermits := by
  cases h with
  | joins room => simp [inService, heldPermits, Client.isServed]
  | @moves a k c d about here move log =>
    have counted := inService_set here d
    rw [isServed_move move] at counted
    have same : (s.clients.set k d).countP Client.isServed = s.inService := by omega
    simp only [inService, heldPermits] at same ⊢
    rw [same]
  | exhausts => rfl
  | restores => rfl
  | acquires _ idle free =>
    simp only [inService, heldPermits, concurrent, idle, free]
    omega
  | @admits k c oldest here may log =>
    have counted := inService_set here { c with place := .inService s.newRelay }
    simp only [Client.isServed, waits_of_oldest oldest here] at counted
    simp only [inService, heldPermits, loopAtRest, concurrent, loop_of_mayAccept may]
      at counted ⊢
    simp at counted
    omega
  | declines f may log =>
    simp only [inService, heldPermits, concurrent, loop_of_mayAccept may]
  | resumes pausing =>
    simp only [inService, heldPermits, loopAtRest, released, concurrent, pausing]
    omega
  | dismisses here served ended log =>
    have counted := inService_of_dismissal here served
    simp only [inService, heldPermits, released, concurrent] at counted ⊢
    omega

theorem Reachable.permits {chunkSize maxConnections : Nat} {s : Server}
    (h : Reachable .concurrent chunkSize maxConnections s) :
    s.permits + s.inService + s.heldPermits = maxConnections := by
  induction h with
  | start => rfl
  | step a reached step ih => rw [(step_change step).permits reached.settings.1, ih]

theorem permits_finish {s t : Server} {k : Nat} (concurrent : s.runtime = .concurrent)
    (step : s.step (.finish k) = some t) :
    t.permits = s.permits + 1 ∧ t.inService + 1 = s.inService ∧
      t.heldPermits = s.heldPermits := by
  cases step_change step with
  | moves about here move log => cases about
  | dismisses here served ended log =>
    refine ⟨?_, inService_of_dismissal here served, rfl⟩
    simp [released, concurrent]

theorem permits_failAccept {s t : Server} {f : Fault} (concurrent : s.runtime = .concurrent)
    (step : s.step (.failAccept f) = some t) :
    t.permits = s.permits ∧ t.inService = s.inService ∧ s.heldPermits = 1 ∧
      t.heldPermits = 1 := by
  cases step_change step with
  | moves about here move log => cases about
  | declines _ may log =>
    exact ⟨rfl, rfl, heldPermits_ready concurrent (loop_of_mayAccept may),
      heldPermits_pausing concurrent rfl⟩

theorem permits_resume {s t : Server} (concurrent : s.runtime = .concurrent)
    (step : s.step .resume = some t) :
    t.permits = s.permits + 1 ∧ t.inService = s.inService ∧ s.heldPermits = 1 ∧
      t.heldPermits = 0 := by
  cases step_change step with
  | moves about here move log => cases about
  | resumes pausing =>
    refine ⟨?_, rfl, heldPermits_pausing concurrent pausing, heldPermits_idle ?_⟩
    · simp [released, concurrent]
    · simp [loopAtRest, concurrent]

def loopStep (s : Server) : Action :=
  match s.loop with
  | .idle => .acquire
  | .ready => .accept
  | .pausing => .resume

theorem loopStep_enabled {s : Server} (concurrent : s.runtime = .concurrent)
    (free : 0 < s.permits + s.heldPermits) (descriptors : s.hasDescriptors = true) {c : Client}
    (here : c ∈ s.clients) (waits : c.waits = true) : (s.step s.loopStep).isSome = true := by
  cases loop : s.loop with
  | idle =>
    rw [heldPermits_idle loop] at free
    obtain ⟨n, permits⟩ : ∃ n, s.permits = n + 1 := ⟨s.permits - 1, by omega⟩
    simp [loopStep, step, loop, concurrent, permits]
  | ready =>
    have some_waits : s.oldest?.isSome = true := by
      rw [oldest?, List.findIdx?_isSome, List.any_eq_true]
      exact ⟨c, here, waits⟩
    obtain ⟨k, oldest⟩ := Option.isSome_iff_exists.mp some_waits
    simp [loopStep, step, loop, oldest, mayAccept, concurrent, descriptors]
  | pausing => simp [loopStep, step, loop]

/-- Free permits, connections in service and the permit that the accept loop may hold make up
all permits at any time, so that there are never more connections in service than permits. An
ending gives back one permit; an accept that fails keeps its permit until the pause is over.
As long as a client waits, a place is free and there are descriptors, the accept loop can go on. -/
theorem permits_balance {chunkSize maxConnections : Nat} {s : Server}
    (h : Reachable .concurrent chunkSize maxConnections s) :
    s.permits + s.inService + s.heldPermits = maxConnections ∧
    s.inService ≤ maxConnections ∧
    (∀ k t, s.step (.finish k) = some t → t.permits = s.permits + 1 ∧
      t.inService + 1 = s.inService ∧ t.heldPermits = s.heldPermits) ∧
    (∀ f t, s.step (.failAccept f) = some t → t.permits = s.permits ∧
      t.inService = s.inService ∧ s.heldPermits = 1 ∧ t.heldPermits = 1) ∧
    (∀ t, s.step .resume = some t → t.permits = s.permits + 1 ∧
      t.inService = s.inService ∧ s.heldPermits = 1 ∧ t.heldPermits = 0) ∧
    (∀ c ∈ s.clients, c.waits = true → s.inService < maxConnections →
      s.hasDescriptors = true → (s.step s.loopStep).isSome = true) := by
  have balance := h.permits
  have concurrent := h.settings.1
  refine ⟨balance, by omega, ?_, ?_, ?_, ?_⟩
  · intro k t step
    exact permits_finish concurrent step
  · intro f t step
    exact permits_failAccept concurrent step
  · intro t step
    exact permits_resume concurrent step
  · intro c here waits free descriptors
    exact loopStep_enabled concurrent (by omega) descriptors here waits

theorem permits_balance_in_a_pause :
    ∃ s : Server, Reachable .concurrent 4 1 s ∧ s.loop = .pausing ∧ s.permits = 0 ∧
      s.inService = 0 ∧ s.permits + s.inService + s.heldPermits = 1 ∧
      (s.step s.loopStep).isSome = true := by
  have s0 : Reachable .concurrent 4 1 _ := .start
  have s1 := s0.step (.connect none) rfl
  have s2 := s1.step (.connect none) rfl
  have s3 := s2.step .acquire rfl
  have s4 := s3.step .accept rfl
  have s5 := s4.step (.send 0 [1, 2]) rfl
  have s6 := s5.step (.read 0) rfl
  have s7 := s6.step (.failCall 0 .timedOut) rfl
  have s8 := s7.step (.finish 0) rfl
  have s9 := s8.step .acquire rfl
  have s10 := s9.step (.failAccept .tooManyOpenFiles) rfl
  have laws := permits_balance s10
  exact ⟨_, s10, rfl, rfl, rfl, laws.1,
    laws.2.2.2.2.2 _ (.tail _ (.head _)) rfl (by decide) rfl⟩

end TcpEcho.Server
