import TcpEcho.Proofs.Server.Permits
/- A concurrent server with one permit does what a serial server does, action by action, and so
   comes to rest where the serial one does. -/
namespace TcpEcho

/-- An event of the serial server as the concurrent one logs it: a failure of a connection is told
in the words of the connection, and these name its octets. -/
def Event.concurrently : Event → Event
  | .connectionError peer (some bytes) error => .connectionError peer none
      ("connection failed after " ++ Decimal.text bytes ++ " bytes: " ++ error)
  | e => e

theorem Ending.events_concurrent (peer : String) (e : Ending) :
    e.events .concurrent peer = (e.events .serial peer).map Event.concurrently := by
  cases e with
  | closed s =>
    obtain ⟨bytes, chunks, reason⟩ := s
    cases reason <;> rfl
  | failed e => rfl

theorem Relay.readEvents_concurrently (o : ReadOutcome) :
    (readEvents o).map Event.concurrently = readEvents o := by
  unfold readEvents
  split <;> rfl

/-- A relay whose calls are told when to come back in the place of one that waits in its calls. -/
def Relay.concurrently (r : Relay) : Relay := { r with mode := .nonblocking }

theorem Relay.afterFault_concurrently (r : Relay) (f : Fault) :
    r.concurrently.afterFault f = (r.afterFault f).concurrently := by
  unfold afterFault
  split <;> rfl

theorem Relay.afterRead_concurrently (r : Relay) (o : ReadOutcome) :
    r.concurrently.afterRead o = (r.afterRead o).concurrently := by
  unfold afterRead
  split
  · rfl
  · rfl
  · exact r.afterFault_concurrently _
  · rfl

theorem Relay.afterWrite_concurrently (r : Relay) (size : Nat) (owed : Octets) {o : WriteOutcome}
    (some_taken : o ≠ .took 0) :
    r.concurrently.afterWrite size owed o = (r.afterWrite size owed o).concurrently := by
  unfold afterWrite
  split
  · exact absurd rfl some_taken
  · split <;> rfl
  · exact r.afterFault_concurrently _
  · rfl

def Place.concurrently : Place → Place
  | .inService r => .inService r.concurrently
  | p => p

namespace Client

/-- A client of the serial server as the concurrent one has it. -/
def concurrently (c : Client) : Client := { c with place := c.place.concurrently }

theorem write_took_ne_zero {offered : Octets} (some_offered : offered ≠ []) (n : Nat)
    (c : Client) : (c.write offered (n + 1)).1 ≠ .took 0 := by
  have positive := List.length_pos_iff.mpr some_offered
  have taken : min (n + 1) offered.length ≠ 0 := by omega
  unfold write
  split
  · simp
  · split
    · split
      · simp
      · simpa using taken
    · simpa using taken

theorem waits_concurrently (c : Client) : c.concurrently.waits = c.waits := by
  cases place : c.place <;> simp [waits, concurrently, Place.concurrently, place]

theorem closed_concurrently (c : Client) : c.concurrently.place = .closed ↔ c.place = .closed := by
  cases place : c.place <;> simp [concurrently, Place.concurrently, place]

theorem send_concurrently (d : Octets) (c : Client) :
    c.concurrently.send d = (c.send d).concurrently := by
  obtain ⟨sent, inbound, outbound, received, hasShut, hasReset, isBroken, room, place⟩ := c
  cases hasShut <;> cases hasReset <;> cases place <;> rfl

theorem shut_concurrently (c : Client) : c.concurrently.shut = c.shut.concurrently := by
  obtain ⟨sent, inbound, outbound, received, hasShut, hasReset, isBroken, room, place⟩ := c
  cases hasReset <;> rfl

theorem read_concurrently (room : Nat) (c : Client) :
    c.concurrently.read room = (c.read room).map fun p => (p.1, p.2.concurrently) := by
  obtain ⟨sent, inbound, outbound, received, hasShut, hasReset, isBroken, room, place⟩ := c
  cases inbound <;> cases hasShut <;> cases hasReset <;> rfl

theorem write_concurrently (offered : Octets) (n : Nat) (c : Client) :
    c.concurrently.write offered n =
      ((c.write offered n).1, (c.write offered n).2.concurrently) := by
  obtain ⟨sent, inbound, outbound, received, hasShut, hasReset, isBroken, room, place⟩ := c
  cases hasReset with
  | true => rfl
  | false =>
    cases room with
    | none => rfl
    | some room =>
      by_cases full : room < outbound.length + offered.length
      · simp [write, concurrently, full]
      · simp [write, concurrently, full]

end Client

def Action.isOutside : Action → Bool
  | .connect _ => true
  | .send _ _ => true
  | .shutdown _ => true
  | .reset _ => true
  | .take _ _ => true
  | .exhaustDescriptors => true
  | .restoreDescriptors => true
  | _ => false

namespace Server

/-- An accept loop that needs the only permit waits for it while a client has it. -/
def waitingFor (loop : AcceptLoop) : Nat → AcceptLoop
  | 0 => loop
  | _ + 1 => .idle

/-- The concurrent server with one permit that stands where a serial server stands. The permit is
with the client in service or else with the accept loop. -/
def concurrently (s : Server) : Server where
  runtime := .concurrent
  chunkSize := s.chunkSize
  permits := 0
  loop := waitingFor s.loop s.inService
  hasDescriptors := s.hasDescriptors
  clients := s.clients.map Client.concurrently
  log := s.log.map Event.concurrently

/-- A serial server has at most one client in service, and none while it pauses. -/
structure Serving (s : Server) : Prop where
  runtime : s.runtime = .serial
  awake : s.loop ≠ .idle
  alone : s.inService ≤ 1
  paused : s.loop = .pausing → s.inService = 0

variable {s t : Server} {a : Action}

theorem serving_start (chunkSize maxConnections : Nat) :
    Serving (start .serial chunkSize maxConnections) :=
  ⟨rfl, by simp [start], Nat.zero_le 1, fun _ => rfl⟩

theorem Serving.step_none (h : s.Serving) : s.step .acquire = none := by
  simp [step, h.runtime]

theorem inService_of_mayAccept (serial : s.runtime = .serial) (may : s.mayAccept = true) :
    s.inService = 0 := by
  simpa [mayAccept, serial] using (Bool.and_eq_true_iff.mp may).2

theorem Serving.change (h : s.Serving) (change : Change s a t) : t.Serving := by
  obtain ⟨runtime, awake, alone, paused⟩ := h
  have same := change.settings.1
  cases change with
  | joins room =>
    have counted : (s.clients ++ [({ room := room } : Client)]).countP Client.isServed =
        s.inService := by
      simp [inService, Client.isServed]
    refine ⟨runtime, awake, ?_, fun pausing => ?_⟩
    · rw [inService, counted]
      exact alone
    · rw [inService, counted]
      exact paused pausing
  | @moves a k c d about here move log =>
    have counted := inService_set here d
    rw [isServed_move move] at counted
    have unchanged : (s.clients.set k d).countP Client.isServed = s.inService := by omega
    refine ⟨runtime, awake, ?_, fun pausing => ?_⟩
    · rw [inService, unchanged]
      exact alone
    · rw [inService, unchanged]
      exact paused pausing
  | exhausts => exact ⟨runtime, awake, alone, paused⟩
  | restores => exact ⟨runtime, awake, alone, paused⟩
  | acquires concurrent idle free => exact absurd idle awake
  | @admits k c oldest here may log =>
    -- Nobody is in service when a client is admitted, so it is alone.
    have nobody := inService_of_mayAccept runtime may
    have counted := inService_set here { c with place := .inService s.newRelay }
    simp only [Client.isServed, waits_of_oldest oldest here, nobody] at counted
    refine ⟨runtime, ?_, ?_, fun pausing => ?_⟩
    · simp [loopAtRest, runtime]
    · simp only [inService]
      simp at counted
      omega
    · simp [loopAtRest, runtime] at pausing
  | declines f may log =>
    have nobody := inService_of_mayAccept runtime may
    exact ⟨runtime, by simp, alone, fun _ => nobody⟩
  | resumes pausing =>
    refine ⟨runtime, ?_, alone, fun _ => paused pausing⟩
    simp [loopAtRest, runtime]
  | @dismisses k c r e here served ended log =>
    have counted := inService_of_dismissal here served
    have nobody : (s.clients.set k c.close).countP Client.isServed = 0 := by omega
    exact ⟨runtime, awake, Nat.le_of_lt (Nat.lt_one_iff.mpr nobody), fun _ => nobody⟩

theorem Serving.step (h : s.Serving) (step : s.step a = some t) : t.Serving :=
  h.change (step_change step)

theorem clients_concurrently (s : Server) (k : Nat) :
    s.concurrently.clients[k]? = (s.clients[k]?).map Client.concurrently := by
  simp [concurrently]

theorem oldest?_concurrently (s : Server) : s.concurrently.oldest? = s.oldest? := by
  simp only [oldest?, concurrently, List.findIdx?_map]
  congr 1
  funext c
  exact c.waits_concurrently

theorem mayAccept_concurrently (h : s.Serving) : s.concurrently.mayAccept = s.mayAccept := by
  cases served : s.inService with
  | zero => simp [mayAccept, h.runtime, concurrently, waitingFor, served]
  | succ n => simp [mayAccept, h.runtime, concurrently, waitingFor, served]

theorem relay?_concurrently (s : Server) (k : Nat) :
    s.concurrently.relay? k = (s.relay? k).map fun p => (p.1.concurrently, p.2.concurrently) := by
  unfold relay?
  rw [clients_concurrently]
  cases s.clients[k]? with
  | none => rfl
  | some c =>
    cases place : c.place <;> simp [Client.concurrently, Place.concurrently, place]

theorem set_concurrently {k : Nat} {c : Client} (here : s.clients[k]? = some c) {d : Client}
    (same : d.isServed = c.isServed) (log : List Event) :
    ({ s with clients := s.clients.set k d, log := log } : Server).concurrently =
      { s.concurrently with
        clients := s.concurrently.clients.set k d.concurrently
        log := log.map Event.concurrently } := by
  have counted := inService_set here d
  rw [same] at counted
  have unchanged : (s.clients.set k d).countP Client.isServed = s.inService := by omega
  simp only [concurrently, inService, unchanged, List.map_set]

theorem isServed_of_place {c d : Client} (same : d.place = c.place) : d.isServed = c.isServed := by
  simp only [Client.isServed, same]

theorem onClient_concurrently (k : Nat) {f : Client → Client}
    (commutes : ∀ c, f c.concurrently = (f c).concurrently)
    (same : ∀ c, (f c).isServed = c.isServed) :
    s.concurrently.onClient k f = (s.onClient k f).map concurrently := by
  unfold onClient
  have length : s.concurrently.clients.length = s.clients.length := by simp [concurrently]
  rw [length]
  by_cases inside : k < s.clients.length
  · have here := List.getElem?_eq_getElem inside
    have there := clients_concurrently s k
    rw [here, Option.map_some] at there
    rw [if_pos inside, if_pos inside, Option.map_some, change_eq_set here, change_eq_set there,
      set_concurrently here (same _), commutes]
    rfl
  · rw [if_neg inside, if_neg inside]
    rfl

theorem acquired_concurrently (s : Server) : s.concurrently.acquired = s.concurrently := by
  unfold acquired step
  split <;> simp_all [concurrently]

theorem serve_concurrently {k : Nat} {c : Client} {r : Relay} (found : s.relay? k = some (c, r))
    (d : Client) (r' : Relay) (log : List Event) :
    { s.concurrently.change k fun _ =>
        { d.concurrently with place := .inService r'.concurrently } with
      log := log.map Event.concurrently } =
    ({ s.change k fun _ => { d with place := .inService r' } with log := log } :
      Server).concurrently := by
  obtain ⟨here, served⟩ := relay?_eq_some found
  have there := clients_concurrently s k
  rw [here, Option.map_some] at there
  have same : ({ d with place := .inService r' } : Client).isServed = c.isServed := by
    simp [Client.isServed, served]
  rw [change_eq_set here, change_eq_set there]
  exact (set_concurrently here same log).symm

theorem read_step (s : Server) (k : Nat) :
    s.concurrently.step (.read k) = (s.step (.read k)).map concurrently := by
  simp only [step, relay?_concurrently]
  cases found : s.relay? k with
  | none => rfl
  | some p =>
    obtain ⟨c, r⟩ := p
    simp only [Option.map_some]
    by_cases reading : r.phase = .reading
    · rw [if_pos reading, if_pos (show r.concurrently.phase = .reading from reading),
        show r.concurrently.chunkSize = r.chunkSize from rfl, c.read_concurrently]
      cases c.read r.chunkSize with
      | none => rfl
      | some q =>
        obtain ⟨o, d⟩ := q
        simp only [Option.map_some, Option.some.injEq]
        have changed := serve_concurrently found d (r.afterRead o) (s.log ++ Relay.readEvents o)
        rw [List.map_append, Relay.readEvents_concurrently, ← r.afterRead_concurrently] at changed
        exact changed
    · rw [if_neg reading, if_neg (show ¬ r.concurrently.phase = .reading from reading)]
      rfl

theorem write_step (s : Server) (k n : Nat) :
    s.concurrently.step (.write k n) = (s.step (.write k n)).map concurrently := by
  simp only [step, relay?_concurrently]
  cases found : s.relay? k with
  | none => rfl
  | some p =>
    obtain ⟨c, r⟩ := p
    simp only [Option.map_some, show r.concurrently.phase = r.phase from rfl]
    split
    · rename_i size b bs n writing
      have some_taken := c.write_took_ne_zero (List.cons_ne_nil b bs) n
      simp only [c.write_concurrently, r.afterWrite_concurrently size _ some_taken,
        Option.map_some, Option.some.injEq]
      exact serve_concurrently found _ _ s.log
    · rfl

theorem failCall_step (s : Server) (k : Nat) (f : Fault) :
    s.concurrently.step (.failCall k f) = (s.step (.failCall k f)).map concurrently := by
  simp only [step, relay?_concurrently]
  cases found : s.relay? k with
  | none => rfl
  | some p =>
    obtain ⟨c, r⟩ := p
    simp only [Option.map_some, show r.concurrently.hasEnded = r.hasEnded from rfl,
      r.afterFault_concurrently]
    split
    · rfl
    · simp only [Option.map_some, Option.some.injEq]
      exact serve_concurrently found c _ s.log

theorem accept_step (h : s.Serving) :
    s.concurrently.step .accept = (s.step .accept).map concurrently := by
  simp only [step, oldest?_concurrently, mayAccept_concurrently h]
  cases oldest : s.oldest? with
  | none => rfl
  | some k =>
    simp only [show s.concurrently.hasDescriptors = s.hasDescriptors from rfl]
    by_cases may : s.mayAccept = true ∧ s.hasDescriptors = true
    · obtain ⟨inside, -, -⟩ := List.findIdx?_eq_some_iff_getElem.mp oldest
      have here := List.getElem?_eq_getElem inside
      have there := clients_concurrently s k
      rw [here, Option.map_some] at there
      have counted := inService_set here { s.clients[k] with place := .inService s.newRelay }
      simp only [Client.isServed, waits_of_oldest oldest here,
        inService_of_mayAccept h.runtime may.1] at counted
      have taken : (s.clients.set k { s.clients[k] with
          place := .inService s.newRelay }).countP Client.isServed = 1 := by
        simpa [Client.isServed] using counted
      rw [if_pos may, if_pos may, change_eq_set here, change_eq_set there]
      simp only [newRelay, h.runtime] at taken
      simp only [concurrently, inService, Option.map_some, List.map_set, h.runtime, taken]
      simp [waitingFor, loopAtRest, Client.concurrently, Place.concurrently,
        Relay.concurrently, Runtime.mode, Event.concurrently]
    · rw [if_neg may, if_neg may]
      rfl

theorem failAccept_step (h : s.Serving) (f : Fault) :
    s.concurrently.step (.failAccept f) = (s.step (.failAccept f)).map concurrently := by
  simp only [step, mayAccept_concurrently h]
  by_cases may : s.mayAccept = true
  · have nobody := inService_of_mayAccept h.runtime may
    rw [if_pos may, if_pos may]
    simp only [inService] at nobody
    simp [concurrently, inService, nobody, waitingFor, Event.concurrently]
  · rw [if_neg may, if_neg may]
    rfl

theorem Serving.ready (h : s.Serving) (awake : s.loop ≠ .pausing) : s.loop = .ready := by
  cases loop : s.loop with
  | idle => exact absurd loop h.awake
  | ready => rfl
  | pausing => exact absurd loop awake

theorem acquired_of_free {n : Nat} (concurrent : s.runtime = .concurrent) (idle : s.loop = .idle)
    (free : s.permits = n + 1) : s.acquired = { s with permits := n, loop := .ready } := by
  simp [acquired, step, concurrent, idle, free]

theorem resume_step (h : s.Serving) :
    (s.concurrently.step .resume).map acquired = (s.step .resume).map concurrently := by
  simp only [step]
  by_cases pausing : s.loop = .pausing
  · have nobody := h.paused pausing
    have waits : s.concurrently.loop = .pausing := by
      simp [concurrently, nobody, waitingFor, pausing]
    rw [if_pos pausing, if_pos waits, Option.map_some, Option.map_some]
    simp only [inService] at nobody
    simp [concurrently, inService, nobody, acquired, step, loopAtRest, released, waitingFor,
      h.runtime]
  · have ready := h.ready pausing
    have goes_on : s.concurrently.loop ≠ .pausing := by
      cases served : s.inService <;> simp [concurrently, served, waitingFor, ready]
    rw [if_neg pausing, if_neg goes_on]
    rfl

theorem finish_step (h : s.Serving) (k : Nat) :
    (s.concurrently.step (.finish k)).map acquired = (s.step (.finish k)).map concurrently := by
  simp only [step, relay?_concurrently]
  cases found : s.relay? k with
  | none => rfl
  | some p =>
    obtain ⟨c, r⟩ := p
    simp only [Option.map_some, show r.concurrently.phase = r.phase from rfl]
    cases phase : r.phase with
    | reading => rfl
    | writing size b bs => rfl
    | ended e =>
      obtain ⟨here, served⟩ := relay?_eq_some found
      have there := clients_concurrently s k
      rw [here, Option.map_some] at there
      have counted := inService_of_dismissal here served
      have alone := h.alone
      have nobody : (s.clients.set k c.close).countP Client.isServed = 0 := by omega
      -- The only permit was with this client, so the loop has been waiting for it.
      have one : s.inService = 1 := by omega
      have ready := h.ready fun pausing => by simp [h.paused pausing] at one
      have idle : s.concurrently.loop = .idle := by simp [concurrently, one, waitingFor]
      have closes : c.concurrently.close = c.close.concurrently := rfl
      simp only [Option.map_some, change_eq_set here, change_eq_set there, closes,
        Option.some.injEq]
      refine (acquired_of_free (n := 0) ?_ ?_ ?_).trans ?_
      · rfl
      · exact idle
      · rfl
      simp only [concurrently, inService, nobody, List.map_set, waitingFor, ready,
        List.map_append, h.runtime, e.events_concurrent]

theorem outside_step (s : Server) {a : Action} (outside : a.isOutside = true) :
    s.concurrently.step a = (s.step a).map concurrently := by
  cases a with
  | connect room =>
    simp [step, concurrently, inService, Client.isServed, Client.concurrently, Place.concurrently]
  | send k d =>
    exact onClient_concurrently k (fun c => c.send_concurrently d) fun c =>
      isServed_of_place (c.place_send d)
  | shutdown k =>
    exact onClient_concurrently k (fun c => c.shut_concurrently) fun c =>
      isServed_of_place c.place_shut
  | reset k => exact onClient_concurrently k (fun c => rfl) fun c => rfl
  | take k n => exact onClient_concurrently k (fun c => rfl) fun c => rfl
  | exhaustDescriptors => rfl
  | restoreDescriptors => rfl
  | _ => cases outside

/-- Every action of a serial server is one of the concurrent server with one permit, which takes
the permit as soon as it is free, and the other way round. -/
theorem step_concurrently (h : s.Serving) (a : Action) :
    (s.concurrently.step a).map acquired = (s.step a).map concurrently := by
  have kept : s.concurrently.step a = (s.step a).map concurrently →
      (s.concurrently.step a).map acquired = (s.step a).map concurrently := by
    intro same
    rw [same, Option.map_map]
    exact Option.map_congr fun t _ => acquired_concurrently t
  cases a with
  | acquire =>
    have none_free : s.concurrently.step .acquire = none := by
      unfold step
      split <;> simp_all [concurrently]
    rw [none_free, h.step_none]
    rfl
  | accept => exact kept (accept_step h)
  | failAccept f => exact kept (failAccept_step h f)
  | resume => exact resume_step h
  | read k => exact kept (read_step s k)
  | write k n => exact kept (write_step s k n)
  | failCall k f => exact kept (failCall_step s k f)
  | finish k => exact finish_step h k
  | _ => exact kept (outside_step s rfl)

theorem pendingAction?_concurrently (s : Server) (k : Nat) :
    s.concurrently.pendingAction? k = s.pendingAction? k := by
  unfold pendingAction?
  rw [relay?_concurrently]
  cases s.relay? k with
  | none => rfl
  | some p =>
    obtain ⟨c, r⟩ := p
    simp only [Option.map_some, show r.concurrently.phase = r.phase from rfl,
      show r.concurrently.chunkSize = r.chunkSize from rfl]
    cases r.phase with
    | reading =>
      simp only [c.read_concurrently]
      cases c.read r.chunkSize <;> rfl
    | _ => rfl

theorem nextAction?_concurrently (h : s.Serving) :
    s.concurrently.nextAction? = s.nextAction? := by
  have pending : s.concurrently.pendingAction? = s.pendingAction? := by
    funext k
    exact s.pendingAction?_concurrently k
  have length : s.concurrently.clients.length = s.clients.length := by simp [concurrently]
  simp only [nextAction?, pending, length, oldest?_concurrently, mayAccept_concurrently h,
    show s.concurrently.hasDescriptors = s.hasDescriptors from rfl]

theorem Serving.acquired (h : s.Serving) : s.acquired = s := by
  rw [Server.acquired, h.step_none]
  rfl

theorem settleFor_concurrently (fuel : Nat) {s : Server} (h : s.Serving) :
    settleFor fuel s.concurrently = (settleFor fuel s).concurrently := by
  induction fuel generalizing s with
  | zero => rfl
  | succ fuel ih =>
    simp only [settleFor, nextAction?_concurrently h]
    cases s.nextAction? with
    | none => rfl
    | some a =>
      have same := step_concurrently h a
      simp only [Option.bind_some]
      cases done : s.step a with
      | none =>
        rw [done, Option.map_none, Option.map_eq_none_iff] at same
        rw [same]
      | some t =>
        rw [done, Option.map_some, Option.map_eq_some_iff] at same
        obtain ⟨u, made, settled⟩ := same
        have next := h.step done
        simp only [made, settled, next.acquired]
        exact ih next

theorem serving_settleFor (fuel : Nat) {s : Server} (h : s.Serving) :
    (settleFor fuel s).Serving := by
  induction fuel generalizing s with
  | zero => exact h
  | succ fuel ih =>
    simp only [settleFor]
    split
    · rename_i t done
      obtain ⟨a, -, step⟩ := Option.bind_eq_some_iff.mp done
      have next := h.step step
      rw [next.acquired]
      exact ih next
    · exact h

theorem workLeft_concurrently (s : Server) : s.concurrently.workLeft = s.workLeft := by
  simp only [workLeft, concurrently, List.foldr_map]
  rfl

theorem Serving.resumed (h : s.Serving) : ((s.step .resume).getD s).Serving := by
  cases done : s.step .resume with
  | none => exact h
  | some t => exact h.step done

theorem settle_concurrently (h : s.Serving) : s.concurrently.settle = s.settle.concurrently := by
  have resumed : ((s.concurrently.step .resume).getD s.concurrently).acquired =
      ((s.step .resume).getD s).concurrently := by
    have same := resume_step h
    cases done : s.step .resume with
    | none =>
      rw [done, Option.map_none, Option.map_eq_none_iff] at same
      rw [same]
      exact acquired_concurrently s
    | some t =>
      rw [done, Option.map_some, Option.map_eq_some_iff] at same
      obtain ⟨u, made, settled⟩ := same
      rw [made]
      exact settled
  rw [settle, settle, resumed, h.resumed.acquired, workLeft_concurrently]
  exact settleFor_concurrently _ h.resumed

theorem Serving.settle (h : s.Serving) : s.settle.Serving := by
  rw [Server.settle, h.resumed.acquired]
  exact serving_settleFor _ h.resumed

end Server
end TcpEcho
