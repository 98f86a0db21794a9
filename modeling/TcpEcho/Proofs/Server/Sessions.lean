import TcpEcho.Server.Session
import TcpEcho.Proofs.Server.Launch
import TcpEcho.Proofs.Server.Lockstep
/- Sessions with a serial server and with a concurrent one that serves one client at a time: no
client can tell the two apart, and but for the wording of a failure neither can a reader of the
log. -/
namespace TcpEcho

namespace Session

def concurrently (s : Session) : Session := { s with server := s.server.concurrently }

variable {s : Session}

theorem act_concurrently (h : s.server.Serving) {a : Action} (outside : a.isOutside = true) :
    s.concurrently.act a = (s.act a).concurrently := by
  have stepped : (s.concurrently.server.step a).getD s.concurrently.server =
      ((s.server.step a).getD s.server).concurrently := by
    simp only [concurrently, s.server.outside_step outside]
    cases s.server.step a <;> rfl
  have serving : ((s.server.step a).getD s.server).Serving := by
    cases done : s.server.step a with
    | none => exact h
    | some t => exact h.step done
  simp only [act, stepped, Server.settle_concurrently serving]
  rfl

theorem serving_act (h : s.server.Serving) (a : Action) : (s.act a).server.Serving := by
  cases done : s.server.step a with
  | none =>
    simp only [act, done]
    exact h.settle
  | some t =>
    simp only [act, done]
    exact (h.step done).settle

theorem hasLogged_concurrently (s : Session) {p : Event → Bool}
    (same : ∀ e : Event, p e.concurrently = p e) :
    s.concurrently.hasLogged p = s.hasLogged p := by
  simp only [hasLogged, concurrently, Server.concurrently, List.any_map]
  congr 1
  funext e
  exact same e

theorem isClosingOf_concurrently (peer : String) (e : Event) :
    isClosingOf peer e.concurrently = isClosingOf peer e := by
  unfold Event.concurrently
  split <;> rfl

theorem isErrorOf_concurrently (peer : String) (e : Event) :
    isErrorOf peer e.concurrently = isErrorOf peer e := by
  unfold Event.concurrently
  split <;> rfl

theorem isAcceptError_concurrently (e : Event) :
    isAcceptError e.concurrently = isAcceptError e := by
  unfold Event.concurrently
  split <;> rfl

theorem endFault?_concurrently (c : Client) : endFault? c.concurrently = endFault? c := by
  simp only [endFault?, c.closed_concurrently]
  rfl

def both (p : Session × Reply) : Session × Reply := (p.1.concurrently, p.2)

theorem takeAll_concurrently (h : s.server.Serving) (k : Nat) (c : Client) :
    s.concurrently.takeAll k c.concurrently = (s.takeAll k c).concurrently :=
  act_concurrently h rfl

theorem receive_concurrently (h : s.server.Serving) (k n : Nat) (c : Client) :
    s.concurrently.receive k n c.concurrently = both (s.receive k n c) := by
  have outbound : c.concurrently.outbound = c.outbound := rfl
  simp only [receive, outbound, act_concurrently h (show (Action.take k n).isOutside from rfl),
    takeAll_concurrently h, endFault?_concurrently]
  split <;> rfl

theorem poll_concurrently (h : s.server.Serving) (k : Nat) (c : Client) :
    s.concurrently.poll k c.concurrently = both (s.poll k c) := by
  have outbound : c.concurrently.outbound = c.outbound := rfl
  simp only [poll, outbound, ne_eq, c.closed_concurrently, takeAll_concurrently h]
  split <;> rfl

theorem drain_concurrently (h : s.server.Serving) (k : Nat) (c : Client) :
    s.concurrently.drain k c.concurrently = both (s.drain k c) := by
  simp only [drain, takeAll_concurrently h, endFault?_concurrently]
  rfl

theorem onClient_concurrently (k : Nat) {f g : Client → Session × Reply}
    (same : ∀ c, g c.concurrently = both (f c)) :
    s.concurrently.onClient k g = both (s.onClient k f) := by
  have there := s.server.clients_concurrently k
  simp only [onClient, show s.concurrently.server = s.server.concurrently from rfl, there]
  cases s.server.clients[k]? with
  | none => rfl
  | some c => exact same c

theorem perform_concurrently (h : s.server.Serving) (step : Step) :
    s.concurrently.perform step = both (s.perform step) := by
  have acts : ∀ (a : Action) (reply : Reply), a.isOutside = true →
      (s.concurrently.act a, reply) = both (s.act a, reply) := by
    intro a reply outside
    rw [act_concurrently h outside]
    rfl
  cases step with
  | connect isStalled => exact acts _ _ rfl
  | send k data => exact acts _ _ rfl
  | receive k n => exact onClient_concurrently k (receive_concurrently h k n)
  | poll k => exact onClient_concurrently k (poll_concurrently h k)
  | shutdown k => exact acts _ _ rfl
  | close k =>
    have shut := act_concurrently h (show (Action.shutdown k).isOutside from rfl)
    simp only [perform, shut]
    exact onClient_concurrently k (drain_concurrently (serving_act h _) k)
  | reset k =>
    have gone := act_concurrently h (show (Action.reset k).isOutside from rfl)
    simp only [perform, gone, hasLogged_concurrently _ (isClosingOf_concurrently (clientName k))]
    rfl
  | abandon k => exact acts _ _ rfl
  | exhaustDescriptors => exact acts _ _ rfl
  | restoreDescriptors => exact acts _ _ rfl
  | awaitAcceptError =>
    simp only [perform, hasLogged_concurrently _ isAcceptError_concurrently]
    rfl
  | awaitError k =>
    simp only [perform, hasLogged_concurrently _ (isErrorOf_concurrently (clientName k))]
    rfl

theorem serving_onClient (h : s.server.Serving) (k : Nat) {f : Client → Session × Reply}
    (keeps : ∀ c, (f c).1.server.Serving) : (s.onClient k f).1.server.Serving := by
  unfold onClient
  split
  · exact keeps _
  · exact h

theorem serving_perform (h : s.server.Serving) (step : Step) :
    (s.perform step).1.server.Serving := by
  cases step with
  | receive k n =>
    refine serving_onClient h k fun c => ?_
    unfold receive
    split <;> exact serving_act h _
  | poll k =>
    refine serving_onClient h k fun c => ?_
    unfold poll
    split
    · exact h
    · exact serving_act h _
  | close k => exact serving_onClient (serving_act h _) k fun c => serving_act (serving_act h _) _
  | awaitAcceptError => exact h
  | awaitError k => exact h
  | _ => exact serving_act h _

theorem performAll_concurrently (h : s.server.Serving) (steps : List Step) :
    s.concurrently.performAll steps =
      ((s.performAll steps).1.concurrently, (s.performAll steps).2) := by
  induction steps generalizing s with
  | nil => rfl
  | cons step steps ih =>
    simp only [performAll, perform_concurrently h, both, ih (serving_perform h step)]

theorem serving_performAll (h : s.server.Serving) (steps : List Step) :
    (s.performAll steps).1.server.Serving := by
  induction steps generalizing s with
  | nil => exact h
  | cons step steps ih => exact ih (serving_perform h step)

theorem conclude_concurrently (h : s.server.Serving) :
    s.concurrently.conclude = s.conclude.concurrently := by
  have length : s.concurrently.server.clients.length = s.server.clients.length := by
    simp [concurrently, Server.concurrently]
  have closing : ∀ (ks : List Nat) {s : Session}, s.server.Serving →
      ks.foldl (fun s k => (s.perform (.close k)).1) s.concurrently =
        (ks.foldl (fun s k => (s.perform (.close k)).1) s).concurrently := by
    intro ks
    induction ks with
    | nil => exact fun _ => rfl
    | cons k ks ih =>
      intro s h
      rw [List.foldl_cons, List.foldl_cons, perform_concurrently h]
      exact ih (serving_perform h _)
  -- Clients that leave are not forgotten, so both sessions count them up to the same number.
  rw [conclude, conclude, length]
  exact closing _ h

theorem clientLogs_concurrently (s : Session) :
    s.concurrently.clientLogs = s.clientLogs.map (List.map Event.concurrently) := by
  have length : s.concurrently.server.clients.length = s.server.clients.length := by
    simp [concurrently, Server.concurrently]
  have peer : ∀ e : Event, e.concurrently.peer? = e.peer? := by
    intro e
    unfold Event.concurrently
    split <;> rfl
  simp only [clientLogs, length, List.map_map]
  refine List.map_congr_left fun k _ => ?_
  simp only [concurrently, Server.concurrently, Function.comp_apply, List.filter_map]
  congr 2
  funext e
  simp only [Function.comp_apply, peer]

theorem hold_concurrently (chunkSize maxConnections : Nat) (hasWriteLimit : Bool)
    (steps : List Step) :
    hold (Server.start .concurrent chunkSize 1) hasWriteLimit steps =
      let serial := hold (Server.start .serial chunkSize maxConnections) hasWriteLimit steps
      ⟨serial.replies, serial.final.concurrently⟩ := by
  have serving : (Session.mk (Server.start .serial chunkSize maxConnections)
      hasWriteLimit).server.Serving := Server.serving_start chunkSize maxConnections
  have first : (⟨(Server.start .concurrent chunkSize 1).acquired, hasWriteLimit⟩ : Session) =
      concurrently ⟨Server.start .serial chunkSize maxConnections, hasWriteLimit⟩ := rfl
  have rest : (Server.start .serial chunkSize maxConnections).acquired =
      Server.start .serial chunkSize maxConnections := serving.acquired
  simp only [hold, rest, first, performAll_concurrently serving,
    conclude_concurrently (serving_performAll serving steps)]

/-- A concurrent server that serves one client at a time gives every reply that a serial one
gives, and logs the same events in the same order, in its own words where a connection fails. -/
theorem runtimes_agree (grant : Granting) (settings : Settings) (hasWriteLimit : Bool)
    (steps : List Step) :
    (∃ o, run grant { settings with runtime := .serial } hasWriteLimit steps = .error o ∧
      run grant { settings with runtime := .concurrent, maxConnections := 1 } hasWriteLimit
        steps = .error o) ∨
    ∃ serial concurrent,
      run grant { settings with runtime := .serial } hasWriteLimit steps = .ok serial ∧
      run grant { settings with runtime := .concurrent, maxConnections := 1 } hasWriteLimit
        steps = .ok concurrent ∧
      concurrent.replies = serial.replies ∧
      concurrent.final.server.log = serial.final.server.log.map Event.concurrently ∧
      concurrent.final.clientLogs = serial.final.clientLogs.map (List.map Event.concurrently) := by
  have few : ¬ Settings.permitLimit < 1 := by decide
  cases bound : bind grant settings.host settings.port with
  | error e =>
    refine Or.inl ⟨.bind e, ?_, ?_⟩
    · unfold run
      rw [Server.launch_serial rfl, bound]
      rfl
    · unfold run Server.launch
      simp only [bound]
      rfl
  | ok place =>
    have serially : run grant { settings with runtime := .serial } hasWriteLimit steps =
        .ok (hold (Server.start .serial settings.chunkSize.toNat settings.maxConnections.toNat)
          hasWriteLimit steps) := by
      unfold run
      rw [Server.launch_serial rfl, bound]
      rfl
    have concurrently : run grant { settings with runtime := .concurrent, maxConnections := 1 }
        hasWriteLimit steps =
        .ok (hold (Server.start .concurrent settings.chunkSize.toNat 1) hasWriteLimit steps) := by
      unfold run
      rw [Server.launch_concurrent rfl rfl bound rfl, if_neg few]
      rfl
    refine Or.inr ⟨_, _, serially, concurrently, ?_⟩
    rw [hold_concurrently settings.chunkSize.toNat settings.maxConnections.toNat]
    exact ⟨rfl, rfl, clientLogs_concurrently _⟩

end Session
end TcpEcho
