import TcpEcho.Proofs.Server.Streams
/- The clients of a server side by side: each has its place, they leave the backlog in the order
   in which they connected, and none is touched by what happens to another. -/
namespace TcpEcho.Server

variable {runtime : Runtime} {chunkSize maxConnections : Nat} {s t : Server} {a : Action}

/-- The clients from the n-th on wait, and those before it do not. -/
def QueuedFrom (n : Nat) (cs : List Client) : Prop :=
  n ≤ cs.length ∧ ∀ k c, cs[k]? = some c → (c.place = .backlog ↔ n ≤ k)

theorem waits_false_iff (c : Client) : c.waits = false ↔ c.place ≠ .backlog := by
  rw [← Bool.not_eq_true, Client.waits_iff]

theorem stage_eq_zero (p : Place) : p.stage = 0 ↔ p = .backlog := by
  cases p <;> simp [Place.stage]

theorem gone_before_oldest {j k : Nat} {c : Client} (oldest : s.oldest? = some k)
    (before : j < k) (here : s.clients[j]? = some c) : c.place ≠ .backlog := by
  obtain ⟨inside, -, others⟩ := List.findIdx?_eq_some_iff_getElem.mp oldest
  have later := others j before
  obtain ⟨_, rfl⟩ := List.getElem?_eq_some_iff.mp here
  simpa [Client.waits] using later

theorem oldest_eq {n k : Nat} (h : QueuedFrom n s.clients) (oldest : s.oldest? = some k) :
    k = n := by
  obtain ⟨inside, -, -⟩ := List.findIdx?_eq_some_iff_getElem.mp oldest
  have here := List.getElem?_eq_getElem inside
  have reached : n ≤ k := (h.2 k _ here).mp (waits_of_oldest oldest here)
  by_cases same : k = n
  · exact same
  · have between : n < s.clients.length := by omega
    have there := List.getElem?_eq_getElem between
    have waits := (h.2 n _ there).mpr (Nat.le_refl n)
    exact absurd waits (gone_before_oldest oldest (by omega) there)

theorem QueuedFrom.append {n : Nat} {cs : List Client} (h : QueuedFrom n cs) {c : Client}
    (waits : c.place = .backlog) : QueuedFrom n (cs ++ [c]) := by
  refine ⟨?_, fun k d there => ?_⟩
  · rw [List.length_append]
    exact Nat.le_trans h.1 (Nat.le_add_right _ _)
  by_cases inside : k < cs.length
  · rw [List.getElem?_append_left inside] at there
    exact h.2 k d there
  · have last : k = cs.length := by
      have := (List.getElem?_eq_some_iff.mp there).1
      simp only [List.length_append, List.length_singleton] at this
      omega
    subst last
    simp only [List.getElem?_append_right, Nat.le_refl, Nat.sub_self, List.getElem?_cons_zero,
      Option.some.injEq] at there
    subst there
    exact iff_of_true waits h.1

theorem QueuedFrom.set {n k : Nat} {cs : List Client} (h : QueuedFrom n cs) {c d : Client}
    (here : cs[k]? = some c) (same : d.place = .backlog ↔ c.place = .backlog) :
    QueuedFrom n (cs.set k d) := by
  refine ⟨by rw [List.length_set]; exact h.1, fun j e there => ?_⟩
  rw [List.getElem?_set] at there
  split at there
  · rename_i eq
    subst eq
    split at there
    · cases there
      exact same.trans (h.2 k c here)
    · cases there
  · exact h.2 j e there

theorem QueuedFrom.leave {n : Nat} {cs : List Client} (h : QueuedFrom n cs) {c d : Client}
    (here : cs[n]? = some c) (gone : d.place ≠ .backlog) : QueuedFrom (n + 1) (cs.set n d) := by
  have inside := (List.getElem?_eq_some_iff.mp here).1
  refine ⟨by rw [List.length_set]; exact inside, fun j e there => ?_⟩
  rw [List.getElem?_set] at there
  split at there
  · rename_i eq
    subst eq
    simp only [Option.some.injEq] at there
    subst there
    exact iff_of_false gone (by omega)
  · rename_i other
    rw [h.2 j e there]
    omega

theorem QueuedFrom.change {n : Nat} (h : QueuedFrom n s.clients) (change : Change s a t) :
    ∃ m, QueuedFrom m t.clients := by
  cases change with
  | joins room => exact ⟨n, h.append rfl⟩
  | moves about here move log =>
    refine ⟨n, h.set here ?_⟩
    rw [← stage_eq_zero, ← stage_eq_zero, Client.stage_move move]
  | exhausts => exact ⟨n, h⟩
  | restores => exact ⟨n, h⟩
  | acquires concurrent idle free => exact ⟨n, h⟩
  | admits oldest here may log =>
    have first := oldest_eq h oldest
    subst first
    refine ⟨_, h.leave here ?_⟩
    intro backlog
    cases backlog
  | declines f may log => exact ⟨n, h⟩
  | resumes pausing => exact ⟨n, h⟩
  | dismisses here served ended log =>
    refine ⟨n, h.set here ?_⟩
    simp [Client.close, served]

theorem Reachable.queued (h : Reachable runtime chunkSize maxConnections s) :
    ∃ n, QueuedFrom n s.clients := by
  induction h with
  | start =>
    refine ⟨0, Nat.le_refl 0, fun k c here => ?_⟩
    cases here
  | step a _ step ih =>
    obtain ⟨n, queued⟩ := ih
    exact queued.change (step_change step)

theorem places_add_up (cs : List Client) :
    cs.countP Client.waits + cs.countP Client.isServed + cs.countP Client.isClosed =
      cs.length := by
  induction cs with
  | nil => rfl
  | cons c cs ih =>
    simp only [List.countP_cons, List.length_cons]
    cases place : c.place <;>
      simp [Client.waits, Client.isServed, Client.isClosed, place] <;> omega

theorem Passage.stage {k : Nat} {c d : Client} (h : Passage s k a c d) :
    c.place.stage ≤ d.place.stage ∧ d.place.stage ≤ c.place.stage + 1 := by
  cases h with
  | stays => exact ⟨Nat.le_refl _, Nat.le_succ _⟩
  | moves about move =>
    rw [Client.stage_move move]
    exact ⟨Nat.le_refl _, Nat.le_succ _⟩
  | admitted accept oldest waits =>
    rw [waits]
    exact ⟨Nat.zero_le 1, Nat.le_refl 1⟩
  | dismissed about served ended =>
    rw [served]
    exact ⟨Nat.le_succ 1, Nat.le_refl 2⟩

theorem Passage.oldest {k : Nat} {c d : Client} (h : Passage s k a c d)
    (waits : c.place = .backlog) (left : d.place ≠ .backlog) : s.oldest? = some k := by
  cases h with
  | stays => exact absurd waits left
  | moves about move =>
    rw [← stage_eq_zero, ← Client.stage_move move, stage_eq_zero] at waits
    exact absurd waits left
  | admitted accept oldest _ => exact oldest
  | dismissed about served ended =>
    rw [served] at waits
    cases waits

theorem Passage.in_order {k : Nat} {c d : Client} (h : Passage s k a c d)
    (waits : c.waits = true) (left : d.waits = false) {j : Nat} {b : Client} (before : j < k)
    (here : s.clients[j]? = some b) : b.waits = false := by
  have oldest := h.oldest ((Client.waits_iff c).mp waits) ((waits_false_iff d).mp left)
  exact (waits_false_iff b).mpr (gone_before_oldest oldest before here)

/-- Each client has one place, and those in the backlog are those that connected last. What has
come back to a client is a beginning of what it has sent, and nothing is missing from it when
the server has let go of a client that did not reset and for which no call failed. An action
moves a client on by one place at most, from the backlog in the order of connecting, and it
leaves every client alone that it is not about. -/
theorem clients_kept_apart (positive : 0 < chunkSize)
    (h : Reachable runtime chunkSize maxConnections s) :
    s.clients.countP Client.waits + s.inService + s.clients.countP Client.isClosed =
      s.clients.length ∧
    (∃ n, QueuedFrom n s.clients) ∧
    (∀ c ∈ s.clients, c.received ++ c.outbound <+: c.sent) ∧
    (∀ k c, Spared runtime chunkSize maxConnections k s → s.clients[k]? = some c →
      c.place = .closed → c.hasReset = false → c.hasShut = true ∧ c.isBroken = false ∧
      ∀ n, c.outbound.length ≤ n → (c.take n).received = c.sent) ∧
    (∀ a t, s.step a = some t → ∀ k c, s.clients[k]? = some c →
      ∃ d, t.clients[k]? = some d ∧
        c.place.stage ≤ d.place.stage ∧ d.place.stage ≤ c.place.stage + 1 ∧
        (c.waits = true → d.waits = false →
          ∀ j b, j < k → s.clients[j]? = some b → b.waits = false) ∧
        (s.subject? a ≠ some k → d = c)) := by
  refine ⟨places_add_up s.clients, h.queued, ?_, ?_, ?_⟩
  · intro c member
    obtain ⟨k, here⟩ := List.mem_iff_getElem?.mp member
    exact (h.sound here).returned
  · intro k c spared here closed kept
    have intact := spared.intact positive here
    have done : c.isDone = true := by simp [Client.isDone, closed]
    obtain ⟨empty, shut⟩ := intact.finished kept done
    refine ⟨shut, intact.whole kept closed, fun n all => ?_⟩
    have flows := intact.flows kept
    simp only [Client.Flows, Client.owed, closed, empty, List.append_nil] at flows
    simp only [Client.take, List.take_of_length_le all]
    exact flows
  · intro a t step k c here
    obtain ⟨d, there, passage⟩ := (step_change step).passage here
    obtain ⟨onward, near⟩ := passage.stage
    refine ⟨d, there, onward, near, ?_, passage.of_other⟩
    intro waits left j b before there
    exact passage.in_order waits left before there

theorem kept_apart_from_a_reset :
    ∃ (s : Server) (c d : Client), 0 < 2 ∧ Reachable .concurrent 2 1 s ∧
      s.clients[0]? = some c ∧ s.clients[1]? = some d ∧ d.hasReset = true ∧
      d.place = .closed ∧ c.sent = [1, 2, 3] ∧ c.received = [1] ∧ c.outbound = [2, 3] ∧
      (c.take 2).received = c.sent := by
  have s0 : Spared .concurrent 2 1 0 _ := .start
  have s1 := s0.step (.connect none) rfl rfl
  have s2 := s1.step (.connect none) rfl rfl
  have s3 := s2.step (.send 0 [1, 2, 3]) rfl rfl
  have s4 := s3.step .acquire rfl rfl
  have s5 := s4.step .accept rfl rfl
  have s6 := s5.step (.read 0) rfl rfl
  have s7 := s6.step (.reset 1) rfl rfl
  have s8 := s7.step (.write 0 1) rfl rfl
  have s9 := s8.step (.shutdown 0) rfl rfl
  have s10 := s9.step (.write 0 5) rfl rfl
  have s11 := s10.step (.read 0) rfl rfl
  have s12 := s11.step (.write 0 5) rfl rfl
  have s13 := s12.step (.take 0 1) rfl rfl
  have s14 := s13.step (.read 0) rfl rfl
  have s15 := s14.step (.finish 0) rfl rfl
  have s16 := s15.step .acquire rfl rfl
  have s17 := s16.step (.failAccept .tooManyOpenFiles) rfl rfl
  have s18 := s17.step .resume rfl rfl
  have s19 := s18.step .acquire rfl rfl
  have s20 := s19.step .accept rfl rfl
  have s21 := s20.step (.read 1) rfl rfl
  have s22 := s21.step (.finish 1) rfl rfl
  have laws := clients_kept_apart (by decide) s22.reachable
  exact ⟨_, _, _, by decide, s22.reachable, rfl, rfl, rfl, rfl, rfl, rfl, rfl,
    (laws.2.2.2.1 0 _ s22 rfl rfl rfl).2.2 2 (by decide)⟩

end TcpEcho.Server
