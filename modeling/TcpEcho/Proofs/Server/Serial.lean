import TcpEcho.Proofs.Relay.Accounts
import TcpEcho.Proofs.Relay.Pieces
import TcpEcho.Proofs.Server.Line
/- The serial server over whole scripts: clients are taken one by one in the order in which they
   connected, and what comes of each follows from what it has done by itself, whatever the others
   do before, in between and afterwards. -/
namespace TcpEcho.Serial

variable {size n : Nat} {limit : Bool} {past : List Step} {d : Desk}

def receipts (size : Nat) (d : Octets) : List Event :=
  (pieces size d).map fun p => .received p.length (Utf8.lossy p)

theorem serve_shut {size : Nat} (positive : 0 < size) {c : Client} (shut : c.hasShut = true)
    (kept : c.hasReset = false) (peer : String) :
    (Connection.serve .serial peer size c.script).summary =
        some ⟨c.inbound.length, (pieces size c.inbound).length, .peerClosed⟩ ∧
      (Connection.serve .serial peer size c.script).log =
        .newConnection peer :: receipts size c.inbound ++ [.closedByPeer,
          .connectionClosed peer c.inbound.length (pieces size c.inbound).length] ∧
      (Connection.serve .serial peer size c.script).run.written = c.inbound ∧
      (Connection.serve .serial peer size c.script).run.rest.reads = [] := by
  have script : c.script = ⟨ReadStep.bringing c.inbound, []⟩ := by
    simp [Client.script, shut, kept]
  have run := Relay.run_to_end positive c.inbound
  simp only [Connection.serve, script, Runtime.mode, run]
  refine ⟨rfl, ?_, ?_, trivial⟩
  · simp [Relay.Run.events, Relay.events_echoes, receipts, Ending.events]
  · simp [Relay.Run.written, Relay.Run.calls, Relay.written_echoes positive, Call.written]

theorem serve_silent {size : Nat} (positive : 0 < size) {c : Client} (going : c.hasShut = false)
    (kept : c.hasReset = false) (peer : String) :
    (Connection.serve .serial peer size c.script).summary = none ∧
      (Connection.serve .serial peer size c.script).log =
        .newConnection peer :: receipts size c.inbound ++ [.connectionError peer
          (some c.inbound.length) "Resource temporarily unavailable (os error 11)"] ∧
      (Connection.serve .serial peer size c.script).run.written = c.inbound ∧
      (Connection.serve .serial peer size c.script).run.rest.reads = [] := by
  have script : c.script = ⟨ReadStep.bringing c.inbound ++ [.fail .wouldBlock], []⟩ := by
    simp [Client.script, going, kept]
  have run := Relay.run_to_fault positive c.inbound (f := .wouldBlock) (by decide)
  have ending : ∀ r : Relay,
      r.endingOf .wouldBlock = .failed ⟨r.summary .peerClosed, .wouldBlock⟩ :=
    fun r => if_neg (by decide)
  have text : Fault.wouldBlock.text = "Resource temporarily unavailable (os error 11)" := by
    decide
  simp only [Connection.serve, script, Runtime.mode, run, ending]
  refine ⟨rfl, ?_, ?_, trivial⟩
  · simp [Relay.Run.events, Relay.events_echoes, receipts, Ending.events, text, Relay.credited,
      Relay.summary]
  · simp [Relay.Run.written, Relay.Run.calls, Relay.written_echoes positive, Call.written]

theorem serve_reset {size : Nat} (positive : 0 < size) {c : Client} (gone : c.hasReset = true)
    (open_end : c.hasShut = false) (peer : String) :
    (Connection.serve .serial peer size c.script).summary =
        some ⟨0, 0, .disconnected .connectionReset⟩ ∧
      (Connection.serve .serial peer size c.script).log =
        .newConnection peer :: (if c.inbound = [] then [] else
          [.received (min c.inbound.length size) (Utf8.lossy (c.inbound.take size))]) ++
        [.peerDisconnected peer .connectionReset, .connectionClosed peer 0 0] := by
  have ending : Relay.endingOf { mode := .blocking, chunkSize := size } .connectionReset =
      .closed ⟨0, 0, .disconnected .connectionReset⟩ := rfl
  have final : Fault.connectionReset.isInterrupt = false := by decide
  have script : c.script = ⟨ReadStep.bringing c.inbound ++ [.fail .connectionReset],
      [.fail .connectionReset]⟩ := by
    simp [Client.script, Client.writeFault, gone, open_end]
  by_cases nothing : c.inbound = []
  · have run := Relay.run_failed size final [.fail .connectionReset] (by simp)
    have silent : ReadStep.bringing c.inbound = [] := if_pos nothing
    rw [silent, List.nil_append] at script
    simp only [Connection.serve, script, Runtime.mode, run, ending]
    refine ⟨rfl, ?_⟩
    simp [Relay.Run.events, Ending.events, nothing]
  · have run := Relay.run_refused positive nothing [.fail .connectionReset] (by simp)
      final
    have piece : c.inbound.take size ≠ [] := by
      simp [nothing, Nat.ne_of_gt positive]
    simp only [Connection.serve, script, Runtime.mode, run, ending]
    refine ⟨rfl, ?_⟩
    simp [Relay.Run.events, Ending.events, nothing, Relay.readEvents_got piece, Nat.min_comm]

theorem unread_clientScript (c : Client) : c.script.unread = c.inbound := by
  unfold Script.unread Client.script ReadStep.bringing
  by_cases nothing : c.inbound = [] <;> cases c.hasShut <;> simp [nothing, ReadStep.octets]

theorem summary_le {size : Nat} {c : Client} {peer : String} {sm : Summary}
    (h : (Connection.serve .serial peer size c.script).summary = some sm) :
    sm.chunks ≤ sm.bytes ∧ sm.bytes ≤ c.inbound.length := by
  obtain ⟨chunks, bytes⟩ := (Relay.run_settles .blocking size c.script).totals_le
  have totals : (Relay.run .blocking size c.script).ending.totals = sm := by
    have summary : (Relay.run .blocking size c.script).ending.summary? = some sm := h
    cases ending : (Relay.run .blocking size c.script).ending with
    | closed s =>
      rw [ending] at summary
      exact Option.some.inj summary
    | failed e =>
      rw [ending] at summary
      cases summary
  have whole := congrArg List.length (Relay.run_unread .blocking size c.script)
  rw [List.length_append, unread_clientScript] at whole
  rw [totals] at chunks bytes
  exact ⟨chunks, by omega⟩

def drained (k : Nat) (steps : List Step) (replies : List Reply) : List (Octets × Option Fault) :=
  (steps.zip replies).filterMap fun
    | (.drain j, .drained data f) => if j = k then some (data, f) else none
    | _ => none

theorem drained_cons (k : Nat) (s : Step) (ss : List Step) (r : Reply) (rs : List Reply) :
    drained k (s :: ss) (r :: rs) = drained k [s] [r] ++ drained k ss rs := by
  rw [drained, drained, drained, List.zip_cons_cons, ← List.singleton_append,
    List.filterMap_append]
  rfl

theorem drained_other {k : Nat} {s : Step} (other : s ≠ .drain k) (r : Reply) :
    drained k [s] [r] = [] := by
  cases s with
  | drain j =>
    have unlike : j ≠ k := fun same => other (by rw [same])
    cases r <;> simp [drained, unlike]
  | _ => cases r <;> rfl

theorem drained_self (k : Nat) (data : Octets) (f : Option Fault) :
    drained k [.drain k] [.drained data f] = [(data, f)] := by
  simp [drained]

theorem Lined.left_alone (h : Lined size limit n past d) {k : Nat} {c : Client}
    (here : d.clients[k]? = some c) (closed : c.place = .closed) {s : Step}
    (silent : s.speaker? ≠ some k) (other : s ≠ .drain k) :
    (d.perform s).1.clients[k]? = some c := by
  have elsewhere : ∀ {j : Nat} (f : Client → Client), j ≠ k →
      (d.change j f).clients[k]? = some c := by
    intro j f unlike
    rw [getElem?_change, here, Option.map_some, if_neg unlike]
  cases s with
  | connect =>
    have inside := (List.getElem?_eq_some_iff.mp here).1
    rw [Desk.perform, List.getElem?_append_left inside]
    exact here
  | send j data => exact elsewhere _ fun same => silent (by rw [same]; rfl)
  | shutdown j => exact elsewhere _ fun same => silent (by rw [same]; rfl)
  | reset j => exact elsewhere _ fun same => silent (by rw [same]; rfl)
  | serve =>
    have called := h.calls
    rw [Desk.perform]
    cases result : d.serveNext with
    | mk d' reply =>
      rw [result] at called
      cases called with
      | fails => exact here
      | blocks => exact here
      | serves descriptors there ready =>
        -- Whoever is taken now has been waiting, so it is not the client that is closed.
        refine elsewhere _ fun same => ?_
        have place := (h.waits there (Nat.le_refl n)).place
        rw [same] at there
        cases here.symm.trans there
        rw [closed] at place
        cases place
  | drain j =>
    rw [Desk.perform, Desk.drain]
    split
    · exact here
    · exact elsewhere _ fun same => other (by rw [same])
  | exhaustDescriptors => exact here
  | restoreDescriptors => exact here

theorem Lined.drains (h : Lined size limit n past d) {k : Nat} {c : Client}
    (here : d.clients[k]? = some c) (closed : c.place = .closed) (whole : c.isBroken = false)
    {after : List Step} (silent : ∀ s ∈ after, s.speaker? ≠ some k) :
    (drained k after (d.performAll after).2).flatMap Prod.fst =
        (if .drain k ∈ after then c.outbound else []) ∧
      ∀ p ∈ drained k after (d.performAll after).2, p.2 = none := by
  induction after generalizing n past d c with
  | nil => exact ⟨rfl, by simp [drained]⟩
  | cons s after ih =>
    have quiet := silent s List.mem_cons_self
    have later := fun t among => silent t (List.mem_cons_of_mem s among)
    rw [Desk.performAll]
    simp only
    rw [drained_cons, List.flatMap_append]
    -- The first drain brings all there is; behind it nothing is left for the others.
    by_cases drains : s = .drain k
    · subst drains
      have reply : d.perform (.drain k) = (d.change k (Client.take c.outbound.length),
          .drained c.outbound none) := by
        simp [Desk.perform, Desk.drain, here, whole]
      have emptied : (d.perform (.drain k)).1.clients[k]? = some (c.take c.outbound.length) := by
        rw [reply, getElem?_change, here, Option.map_some, if_pos rfl]
      obtain ⟨rest, well⟩ := ih (h.perform _) emptied closed whole later
      have nothing : (c.take c.outbound.length).outbound = [] := by simp [Client.take]
      rw [rest, nothing, reply, drained_self]
      refine ⟨by simp, fun p member => ?_⟩
      rcases List.mem_append.mp member with first | among
      · rw [List.mem_singleton.mp first]
      · rw [reply] at well
        exact well p among
    · have kept := h.left_alone here closed quiet drains
      obtain ⟨rest, well⟩ := ih (h.perform s) kept closed whole later
      rw [drained_other drains, List.flatMap_nil, List.nil_append, List.nil_append, rest]
      have same : (.drain k ∈ s :: after) ↔ .drain k ∈ after := by
        simp [Ne.symm drains]
      simp only [same]
      exact ⟨trivial, well⟩

/-- Whoever does nothing but drain after a call gets back these octets and no failure. -/
def Returns (k : Nat) (after : List Step) (replies : List Reply) (data : Octets) : Prop :=
  (∀ s ∈ after, s.speaker? ≠ some k) → .drain k ∈ after →
    (drained k after replies).flatMap Prod.fst = data ∧
      ∀ p ∈ drained k after replies, p.2 = none

/-- What a client comes to that has done some steps by itself before it is taken: all is told by
what it has sent and by how it has left, and nothing else in the script has a part in it. -/
structure Treated (size : Nat) (limit : Bool) (k : Nat) (own after : List Step)
    (replies : List Reply) (summary : Option Summary) (log : List Event) : Prop where
  /-- However it has left, no counter exceeds the octets that it has sent. -/
  counters : ∀ sm, summary = some sm →
    sm.chunks ≤ sm.bytes ∧ sm.bytes ≤ (sentBy k own).length
  /-- It has shut down its end: all is read, piece by piece, and all comes back. -/
  shut : .shutdown k ∈ own → .reset k ∉ own →
    summary = some ⟨(sentBy k own).length, ((sentBy k own).length + size - 1) / size,
      .peerClosed⟩ ∧
    log = .newConnection (clientName k) :: receipts size (sentBy k own) ++ [.closedByPeer,
      .connectionClosed (clientName k) (sentBy k own).length
        (((sentBy k own).length + size - 1) / size)] ∧
    Returns k after replies (sentBy k own)
  /-- It has reset the connection: one piece is read, if there is any, and none counts. -/
  reset : ResetFirst k own →
    summary = some ⟨0, 0, .disconnected .connectionReset⟩ ∧
    log = .newConnection (clientName k) :: (if sentBy k own = [] then [] else
        [.received (min (sentBy k own).length size) (Utf8.lossy ((sentBy k own).take size))]) ++
      [.peerDisconnected (clientName k) .connectionReset,
        .connectionClosed (clientName k) 0 0]
  /-- It has done neither: the server gives up waiting for more, and all comes back. -/
  silent : .shutdown k ∉ own → .reset k ∉ own →
    limit = true ∧ summary = none ∧
    log = .newConnection (clientName k) :: receipts size (sentBy k own) ++ [.connectionError
      (clientName k) (some (sentBy k own).length)
      "Resource temporarily unavailable (os error 11)"] ∧
    Returns k after replies (sentBy k own)

theorem Lined.returns (h : Lined size limit n past d) (after : List Step) {c : Client}
    (here : d.clients[n]? = some c)
    (none_left : (Connection.serve .serial (clientName n) size c.script).run.rest.reads = []) :
    Returns n after ((d.serveClient n c).1.performAll after).2
      (Connection.serve .serial (clientName n) size c.script).run.written := by
  intro silent drains
  have size_here := h.size
  subst size_here
  have lined := h.serve (List.getElem?_eq_some_iff.mp here).1
    (Connection.serve .serial (clientName n) d.chunkSize c.script).run
  have there := getElem?_change d n n (Desk.afterService
    (Connection.serve .serial (clientName n) d.chunkSize c.script).run)
  rw [here, Option.map_some, if_pos rfl] at there
  have whole : (Desk.afterService (Connection.serve .serial (clientName n) d.chunkSize
      c.script).run c).isBroken = false := by
    simp [Desk.afterService, Client.close, none_left]
  obtain ⟨all, well⟩ := lined.drains there (place_afterService _ c) whole silent
  rw [if_pos drains] at all
  refine ⟨?_, well⟩
  rw [Desk.serveClient, all]
  simp [Desk.afterService, Client.close, (h.waits here (Nat.le_refl n)).outbound]

theorem Lined.treated (positive : 0 < size) (h : Lined size limit n past d) (after : List Step)
    {c : Client} (here : d.clients[n]? = some c)
    (ready : limit = true ∨ c.hasShut = true ∨ c.hasReset = true) :
    Treated size limit n (sinceConnect n past) after ((d.serveClient n c).1.performAll after).2
      (Connection.serve .serial (clientName n) size c.script).summary
      (Connection.serve .serial (clientName n) size c.script).log := by
  have sent := h.inbound here (Nat.le_refl n)
  have gone := h.hasReset here (Nat.le_refl n)
  have returns := h.returns after here
  constructor
  · intro sm returned
    rw [← sent]
    exact summary_le returned
  · intro shut kept
    obtain ⟨summary, log, written, left⟩ := serve_shut positive
      ((h.hasShut here (Nat.le_refl n) kept).trans (decide_eq_true shut))
      (gone.trans (decide_eq_false kept)) (clientName n)
    rw [sent, length_pieces positive] at summary log
    rw [written, sent] at returns
    exact ⟨summary, log, returns left⟩
  · intro first
    obtain ⟨reset, open_end⟩ := waiting_resetFirst first
    rw [← h.own n c here (Nat.le_refl n)] at reset open_end
    obtain ⟨summary, log⟩ := serve_reset positive reset open_end (clientName n)
    rw [sent] at log
    exact ⟨summary, log⟩
  · intro open_end kept
    have going := (h.hasShut here (Nat.le_refl n) kept).trans (decide_eq_false open_end)
    have whole := gone.trans (decide_eq_false kept)
    obtain ⟨summary, log, written, left⟩ := serve_silent positive going whole (clientName n)
    rw [sent] at log
    rw [written, sent] at returns
    refine ⟨?_, summary, log, returns left⟩
    simpa [going, whole] using ready

/-- What a call for the next client comes to when the first n have been served. Either the next
in the order in which they connected is served, whom the steps since it connected have made what it
is, or nothing is done at all: no call is made that could only block, and a call fails only if the
accept itself does. -/
inductive Answers (size : Nat) (limit : Bool) (n : Nat) (own after : List Step) (d : Desk) :
    Desk → Reply → Prop where
  | fails {f : Fault} (cause : AcceptFails d f) :
      Answers size limit n own after d d (.acceptFailed f)
  | blocks (descriptors : d.hasDescriptors = true) (patient : limit = false)
      (idle : d.clients.length = n ∨ .shutdown n ∉ own ∧ .reset n ∉ own) :
      Answers size limit n own after d d .wouldBlock
  | serves {d' : Desk} {summary : Option Summary} {log : List Event}
      (descriptors : d.hasDescriptors = true) (waits : n < d.clients.length)
      (gone : d'.clients[n]?.map Client.place = some .closed)
      (others : ∀ k, k ≠ n → d'.clients[k]? = d.clients[k]?)
      (opening : log.head? = some (.newConnection (clientName n)))
      (treated : Treated size limit n own after (d'.performAll after).2 summary log) :
      Answers size limit n own after d d' (.served summary log)

theorem Lined.answers (positive : 0 < size) (h : Lined size limit n past d) (after : List Step) :
    Answers size limit n (sinceConnect n past) after d (d.perform .serve).1
      (d.perform .serve).2 := by
  have called := h.calls
  rw [Desk.perform]
  cases result : d.serveNext with
  | mk d' reply =>
    rw [result] at called
    cases called with
    | fails cause => exact .fails cause
    | blocks descriptors patient idle =>
      refine .blocks descriptors (h.limit ▸ patient) ?_
      by_cases some_left : n < d.clients.length
      · have here := List.getElem?_eq_getElem some_left
        obtain ⟨open_end, going⟩ := idle _ here
        have gone := h.hasReset here (Nat.le_refl n)
        have kept : .reset n ∉ sinceConnect n past := of_decide_eq_false (gone.symm.trans going)
        have shut := h.hasShut here (Nat.le_refl n) kept
        exact Or.inr ⟨of_decide_eq_false (shut.symm.trans open_end), kept⟩
      · exact Or.inl (Nat.le_antisymm (Nat.le_of_not_lt some_left) h.served)
    | serves descriptors here ready =>
      rename_i c
      refine .serves descriptors (List.getElem?_eq_some_iff.mp here).1 ?_ (fun k other => ?_) rfl ?_
      · rw [getElem?_change, here]
        simp [place_afterService]
      · rw [getElem?_change, Option.map_congr fun c _ => if_neg (Ne.symm other)]
        exact Option.map_id'
      · have done := h.treated positive after here (h.limit ▸ ready)
        rw [Desk.serveClient, h.size] at done
        rw [h.size]
        exact done

def Reply.opening? : Reply → Option Event
  | .served _ log => log.head?
  | _ => none

theorem Lined.opening (h : Lined size limit n past d) (s : Step) :
    [(d.perform s).2].filterMap Reply.opening? =
      if (d.perform s).2.isServed then [.newConnection (clientName n)] else [] := by
  cases s with
  | serve =>
    have called := h.calls
    rw [Desk.perform]
    cases result : d.serveNext with
    | mk d' reply =>
      rw [result] at called
      cases called <;> rfl
  | drain k =>
    rw [Desk.perform, Desk.drain]
    split <;> rfl
  | _ => rfl

theorem openings_in_order (size : Nat) (limit : Bool) (steps : List Step) :
    ((opened size limit).performAll steps).2.filterMap Reply.opening? =
      (List.range (((opened size limit).performAll steps).2.countP Reply.isServed)).map
        fun k => .newConnection (clientName k) := by
  induction steps using List.reverseRecOn with
  | nil => rfl
  | append_singleton past s ih =>
    have last := (lined_performAll size limit past).opening s
    rw [performAll_append]
    simp only [Desk.performAll, List.filterMap_append, List.countP_append, List.countP_singleton]
    rw [last, ih]
    split_ifs
    · rw [List.range_succ, List.map_append, List.map_singleton]
    · rw [List.append_nil, Nat.add_zero]

/-- The law of the serial server, for scripts of any length over any number of clients. -/
theorem serial_law (size : Nat) (positive : 0 < size) (limit : Bool) (steps : List Step) :
    ((opened size limit).performAll steps).2.filterMap Reply.opening? =
      (List.range (((opened size limit).performAll steps).2.countP Reply.isServed)).map
        (fun k => .newConnection (clientName k)) ∧
    ∀ before after, steps = before ++ .serve :: after →
      ∃ n d past d' reply,
        (opened size limit).performAll before = (d, past) ∧ past.countP Reply.isServed = n ∧
        ((opened size limit).performAll steps).2 = past ++ reply :: (d'.performAll after).2 ∧
        (∀ k c, d.clients[k]? = some c → c.place = if k < n then .closed else .backlog) ∧
        Answers size limit n (sinceConnect n before) after d d' reply := by
  refine ⟨openings_in_order size limit steps, ?_⟩
  rintro before after rfl
  have lined := lined_performAll size limit before
  refine ⟨_, _, _, _, _, rfl, rfl, ?_, fun k c here => lined.place here,
    lined.answers positive after⟩
  rw [performAll_append]
  rfl

theorem serial_law_at_a_reset :
    let before : List Step := [.connect, .send 0 [1, 2, 3, 4], .connect, .send 1 [5, 6], .reset 1,
      .shutdown 0, .exhaustDescriptors, .serve, .restoreDescriptors, .serve]
    let after : List Step := [.drain 0, .connect, .serve, .drain 1]
    0 < 3 ∧ .serve ∈ before ∧ ∃ n d past d' reply,
      (opened 3 true).performAll before = (d, past) ∧ past.countP Reply.isServed = n ∧
      ((opened 3 true).performAll (before ++ .serve :: after)).2 =
        past ++ reply :: (d'.performAll after).2 ∧
      (∀ k c, d.clients[k]? = some c → c.place = if k < n then .closed else .backlog) ∧
      Answers 3 true n (sinceConnect n before) after d d' reply :=
  ⟨by decide, by simp, (serial_law 3 (by decide) true _).2 _ _ rfl⟩

end TcpEcho.Serial
