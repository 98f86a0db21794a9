import TcpEcho.Server.State
/- All that one action can do to a server and to each of its clients. -/
namespace TcpEcho

def ReadOutcome.isFailure : ReadOutcome → Bool
  | .failed _ => true
  | _ => false

def WriteOutcome.isFailure : WriteOutcome → Bool
  | .failed _ => true
  | _ => false

def Place.stage : Place → Nat
  | .backlog => 0
  | .inService _ => 1
  | .closed => 2

namespace Client

def isClosed (c : Client) : Bool := c.place = .closed

theorem waits_iff (c : Client) : c.waits = true ↔ c.place = .backlog := by
  simp [waits]

theorem isServed_iff (c : Client) : c.isServed = true ↔ c.place.stage = 1 := by
  unfold isServed
  cases c.place <;> simp [Place.stage]

/-- What an action makes of a client that stays where it stands. The flag tells the calls of
the server that fail. -/
inductive Move : Bool → Client → Client → Prop where
  | send (c : Client) (d : Octets) : Move false c (c.send d)
  | shut (c : Client) : Move false c c.shut
  | reset (c : Client) : Move false c c.reset
  | take (c : Client) (n : Nat) : Move false c (c.take n)
  | read {c d : Client} {r : Relay} {o : ReadOutcome} (served : c.place = .inService r)
      (reading : r.phase = .reading) (call : c.read r.chunkSize = some (o, d)) :
      Move o.isFailure c { d with place := .inService (r.afterRead o) }
  | write {c d : Client} {r : Relay} {size n : Nat} {b : UInt8} {bs : Octets} {o : WriteOutcome}
      (served : c.place = .inService r) (writing : r.phase = .writing size b bs)
      (call : c.write (b :: bs) (n + 1) = (o, d)) :
      Move o.isFailure c { d with place := .inService (r.afterWrite size (b :: bs) o) }
  | fail {c : Client} {r : Relay} (served : c.place = .inService r)
      (going : r.hasEnded = false) (f : Fault) :
      Move true c { c with place := .inService (r.afterFault f) }

theorem place_send (c : Client) (d : Octets) : (c.send d).place = c.place := by
  unfold send
  split
  · rfl
  · split <;> rfl

theorem place_shut (c : Client) : c.shut.place = c.place := by
  unfold shut
  split <;> rfl

theorem stage_move {fails : Bool} {c d : Client} (h : Move fails c d) :
    d.place.stage = c.place.stage := by
  cases h with
  | send => rw [place_send]
  | shut => rw [place_shut]
  | reset => rfl
  | take => rfl
  | read served reading call => rw [served]; rfl
  | write served writing call => rw [served]; rfl
  | fail served going f => rw [served]; rfl

end Client

def Action.mover? : Action → Option Nat
  | .send k _ => some k
  | .shutdown k => some k
  | .reset k => some k
  | .take k _ => some k
  | .read k => some k
  | .write k _ => some k
  | .failCall k _ => some k
  | _ => none

namespace Server

def newRelay (s : Server) : Relay := { mode := s.runtime.mode, chunkSize := s.chunkSize }

def subject? (s : Server) : Action → Option Nat
  | .accept => s.oldest?
  | .finish k => some k
  | a => a.mover?

theorem subject?_of_mover? {s : Server} {a : Action} {k : Nat} (h : a.mover? = some k) :
    s.subject? a = some k := by
  cases a with
  | accept => cases h
  | finish j => cases h
  | _ => exact h

def callFails (s : Server) (k : Nat) : Action → Bool
  | .read j => j = k && (s.relay? j).any fun (c, r) =>
      (c.read r.chunkSize).any fun (o, _) => o.isFailure
  | .write j n => j = k && (s.relay? j).any fun (c, r) => (c.write r.owed n).1.isFailure
  | .failCall j _ => j = k
  | _ => false

/-- All that an action can make of a server. -/
inductive Change (s : Server) : Action → Server → Prop where
  | joins (room : Option Nat) :
      Change s (.connect room) { s with clients := s.clients ++ [{ room := room }] }
  | moves {a : Action} {k : Nat} {c d : Client} (about : a.mover? = some k)
      (here : s.clients[k]? = some c) (move : Client.Move (s.callFails k a) c d)
      (log : List Event) :
      Change s a { s with clients := s.clients.set k d, log := s.log ++ log }
  | exhausts : Change s .exhaustDescriptors { s with hasDescriptors := false }
  | restores : Change s .restoreDescriptors { s with hasDescriptors := true }
  | acquires {n : Nat} (concurrent : s.runtime = .concurrent) (idle : s.loop = .idle)
      (free : s.permits = n + 1) : Change s .acquire { s with permits := n, loop := .ready }
  | admits {k : Nat} {c : Client} (oldest : s.oldest? = some k) (here : s.clients[k]? = some c)
      (may : s.mayAccept = true) (log : List Event) :
      Change s .accept { s with
        clients := s.clients.set k { c with place := .inService s.newRelay }
        loop := s.loopAtRest
        log := log }
  | declines (f : Fault) (may : s.mayAccept = true) (log : List Event) :
      Change s (.failAccept f) { s with loop := .pausing, log := log }
  | resumes (pausing : s.loop = .pausing) :
      Change s .resume { s with loop := s.loopAtRest, permits := s.released }
  | dismisses {k : Nat} {c : Client} {r : Relay} {e : Ending} (here : s.clients[k]? = some c)
      (served : c.place = .inService r) (ended : r.phase = .ended e) (log : List Event) :
      Change s (.finish k) { s with
        clients := s.clients.set k c.close
        permits := s.released
        log := log }

theorem relay?_eq_some {s : Server} {k : Nat} {c : Client} {r : Relay}
    (h : s.relay? k = some (c, r)) : s.clients[k]? = some c ∧ c.place = .inService r := by
  unfold relay? at h
  split at h
  · rename_i d here
    split at h
    · rename_i q place
      cases h
      exact ⟨here, place⟩
    · cases h
  · cases h

theorem change_eq_set {s : Server} {k : Nat} {c : Client} (here : s.clients[k]? = some c)
    (f : Client → Client) : s.change k f = { s with clients := s.clients.set k (f c) } := by
  have : Inhabited Client := ⟨c⟩
  simp [change, List.modify_eq_set, here]

theorem change_of_onClient {s t : Server} {a : Action} {k : Nat} {f : Client → Client}
    (h : s.onClient k f = some t) (about : a.mover? = some k)
    (move : ∀ c, Client.Move (s.callFails k a) c (f c)) : Change s a t := by
  unfold onClient at h
  split at h
  · rename_i inside
    cases h
    have here := List.getElem?_eq_getElem inside
    rw [change_eq_set here]
    simpa using Change.moves about here (move _) []
  · cases h

theorem change_of_accept {s t : Server} (h : s.step .accept = some t) : Change s .accept t := by
  simp only [step] at h
  split at h
  · rename_i k oldest
    split at h
    · rename_i may
      cases h
      obtain ⟨inside, -⟩ := List.findIdx?_eq_some_iff_getElem.mp oldest
      have here := List.getElem?_eq_getElem inside
      rw [change_eq_set here]
      exact .admits oldest here may.1 _
    · cases h
  · cases h

theorem change_of_read {s t : Server} {k : Nat} (h : s.step (.read k) = some t) :
    Change s (.read k) t := by
  simp only [step] at h
  split at h
  · rename_i c r served
    split at h
    · rename_i reading
      obtain ⟨⟨o, d⟩, call, rfl⟩ := Option.map_eq_some_iff.mp h
      have fails : s.callFails k (.read k) = o.isFailure := by simp [callFails, served, call]
      obtain ⟨here, place⟩ := relay?_eq_some served
      have move := Client.Move.read place reading call
      rw [← fails] at move
      simpa only [change_eq_set here] using Change.moves rfl here move _
    · cases h
  · cases h

theorem change_of_write {s t : Server} {k n : Nat} (h : s.step (.write k n) = some t) :
    Change s (.write k n) t := by
  simp only [step] at h
  split at h
  · rename_i c r served
    split at h
    · rename_i size b bs n writing
      cases call : c.write (b :: bs) (n + 1) with
      | mk o d =>
        simp only [call] at h
        cases h
        have fails : s.callFails k (.write k (n + 1)) = o.isFailure := by
          simp [callFails, served, Relay.owed, writing, call]
        obtain ⟨here, place⟩ := relay?_eq_some served
        have move := Client.Move.write place writing call
        rw [← fails] at move
        rw [change_eq_set here]
        simpa using Change.moves rfl here move []
    · cases h
  · cases h

theorem change_of_failCall {s t : Server} {k : Nat} {f : Fault}
    (h : s.step (.failCall k f) = some t) : Change s (.failCall k f) t := by
  simp only [step] at h
  split at h
  · rename_i c r served
    split at h
    · cases h
    · rename_i going
      cases h
      have fails : s.callFails k (.failCall k f) = true := by simp [callFails]
      obtain ⟨here, place⟩ := relay?_eq_some served
      have move := Client.Move.fail place (by simpa using going) f
      rw [← fails] at move
      rw [change_eq_set here]
      simpa using Change.moves rfl here move []
  · cases h

theorem change_of_finish {s t : Server} {k : Nat} (h : s.step (.finish k) = some t) :
    Change s (.finish k) t := by
  simp only [step] at h
  split at h
  · rename_i c r served
    split at h
    · rename_i e ended
      cases h
      obtain ⟨here, place⟩ := relay?_eq_some served
      rw [change_eq_set here]
      exact .dismisses here place ended _
    · cases h
  · cases h

theorem step_change {s t : Server} {a : Action} (h : s.step a = some t) : Change s a t := by
  cases a with
  | connect room =>
    cases h
    exact .joins room
  | send k d => exact change_of_onClient h rfl fun c => .send c d
  | shutdown k => exact change_of_onClient h rfl fun c => .shut c
  | reset k => exact change_of_onClient h rfl fun c => .reset c
  | take k n => exact change_of_onClient h rfl fun c => .take c n
  | exhaustDescriptors =>
    cases h
    exact .exhausts
  | restoreDescriptors =>
    cases h
    exact .restores
  | acquire =>
    simp only [step] at h
    split at h
    · rename_i concurrent idle free
      cases h
      exact .acquires concurrent idle free
    · cases h
  | accept => exact change_of_accept h
  | failAccept f =>
    simp only [step] at h
    split at h
    · rename_i may
      cases h
      exact .declines f may _
    · cases h
  | resume =>
    simp only [step] at h
    split at h
    · rename_i pausing
      cases h
      exact .resumes pausing
    · cases h
  | read k => exact change_of_read h
  | write k n => exact change_of_write h
  | failCall k f => exact change_of_failCall h
  | finish k => exact change_of_finish h

/-- What an action can make of the client of one number. -/
inductive Passage (s : Server) (k : Nat) (a : Action) : Client → Client → Prop where
  | stays (c : Client) : Passage s k a c c
  | moves {c d : Client} (about : s.subject? a = some k)
      (move : Client.Move (s.callFails k a) c d) : Passage s k a c d
  | admitted {c : Client} (accept : a = .accept) (oldest : s.oldest? = some k)
      (waits : c.place = .backlog) :
      Passage s k a c { c with place := .inService s.newRelay }
  | dismissed {c : Client} {r : Relay} {e : Ending} (about : s.subject? a = some k)
      (served : c.place = .inService r) (ended : r.phase = .ended e) : Passage s k a c c.close

theorem waits_of_oldest {s : Server} {k : Nat} {c : Client} (oldest : s.oldest? = some k)
    (here : s.clients[k]? = some c) : c.place = .backlog := by
  obtain ⟨inside, waits, -⟩ := List.findIdx?_eq_some_iff_getElem.mp oldest
  rw [List.getElem?_eq_getElem inside] at here
  cases here
  exact (Client.waits_iff _).mp waits

theorem passage_of_set {s : Server} {a : Action} {j k : Nat} {b c d : Client}
    (there : s.clients[j]? = some b) (step : Passage s j a b d) (here : s.clients[k]? = some c) :
    ∃ e, (s.clients.set j d)[k]? = some e ∧ Passage s k a c e := by
  have inside := (List.getElem?_eq_some_iff.mp there).1
  rw [List.getElem?_set]
  by_cases same : j = k
  · subst same
    rw [there] at here
    cases here
    exact ⟨d, by simp [inside], step⟩
  · exact ⟨c, by simp [same, here], .stays c⟩

theorem Change.passage {s t : Server} {a : Action} (h : Change s a t) {k : Nat} {c : Client}
    (here : s.clients[k]? = some c) : ∃ d, t.clients[k]? = some d ∧ Passage s k a c d := by
  cases h with
  | joins room =>
    have inside := (List.getElem?_eq_some_iff.mp here).1
    exact ⟨c, by rw [List.getElem?_append_left inside]; exact here, .stays c⟩
  | moves about there move log =>
    exact passage_of_set there (.moves (subject?_of_mover? about) move) here
  | exhausts => exact ⟨c, here, .stays c⟩
  | restores => exact ⟨c, here, .stays c⟩
  | acquires concurrent idle free => exact ⟨c, here, .stays c⟩
  | admits oldest there may log =>
    exact passage_of_set there (.admitted rfl oldest (waits_of_oldest oldest there)) here
  | declines f may log => exact ⟨c, here, .stays c⟩
  | resumes pausing => exact ⟨c, here, .stays c⟩
  | dismisses there served ended log =>
    exact passage_of_set there (.dismissed rfl served ended) here

theorem Change.joins_or_length {s t : Server} {a : Action} (h : Change s a t) :
    (∃ room, t.clients = s.clients ++ [{ room := room }]) ∨
    t.clients.length = s.clients.length := by
  cases h with
  | joins room => exact Or.inl ⟨room, rfl⟩
  | moves about here move log => exact Or.inr List.length_set
  | admits oldest here may log => exact Or.inr List.length_set
  | dismisses here served ended log => exact Or.inr List.length_set
  | _ => exact Or.inr rfl

theorem Change.origin {s t : Server} {a : Action} (h : Change s a t) {k : Nat} {d : Client}
    (there : t.clients[k]? = some d) :
    (s.clients.length = k ∧ ∃ room, d = { room := room }) ∨
    ∃ c, s.clients[k]? = some c ∧ Passage s k a c d := by
  cases here : s.clients[k]? with
  | some c =>
    obtain ⟨e, found, step⟩ := h.passage here
    rw [there] at found
    cases found
    exact Or.inr ⟨c, rfl, step⟩
  | none =>
    have outside := List.getElem?_eq_none_iff.mp here
    have inside := (List.getElem?_eq_some_iff.mp there).1
    rcases h.joins_or_length with ⟨room, joined⟩ | same
    · rw [joined] at there inside
      have last : s.clients.length = k := by
        simp only [List.length_append, List.length_singleton] at inside
        omega
      subst last
      exact Or.inl ⟨rfl, room, by simpa using there.symm⟩
    · omega

theorem Passage.of_other {s : Server} {k : Nat} {a : Action} {c d : Client}
    (h : Passage s k a c d) (other : s.subject? a ≠ some k) : d = c := by
  cases h with
  | stays => rfl
  | moves about move => exact absurd about other
  | admitted accept oldest waits =>
    subst accept
    exact absurd oldest other
  | dismissed about served ended => exact absurd about other

theorem Change.settings {s t : Server} {a : Action} (h : Change s a t) :
    t.runtime = s.runtime ∧ t.chunkSize = s.chunkSize := by
  cases h <;> exact ⟨rfl, rfl⟩

theorem Reachable.settings {runtime : Runtime} {chunkSize maxConnections : Nat} {s : Server}
    (h : Reachable runtime chunkSize maxConnections s) :
    s.runtime = runtime ∧ s.chunkSize = chunkSize := by
  induction h with
  | start => exact ⟨rfl, rfl⟩
  | step a _ step ih =>
    obtain ⟨runtime, chunkSize⟩ := (step_change step).settings
    exact ⟨runtime.trans ih.1, chunkSize.trans ih.2⟩

end Server
end TcpEcho
