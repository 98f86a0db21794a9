import Mathlib.Data.List.Induction
import TcpEcho.Proofs.Server.Waiting
/- The line at the desk of the serial server: the first clients have been served, in the order in
   which they connected, and the others are what they have made of themselves. -/
namespace TcpEcho.Serial

def opened (size : Nat) (limit : Bool) : Desk := { chunkSize := size, hasTimeLimit := limit }

/-- The part of a script behind the connecting of its k-th client. -/
def sinceConnect : Nat → List Step → List Step
  | _, [] => []
  | 0, .connect :: ss => ss
  | k + 1, .connect :: ss => sinceConnect k ss
  | k, _ :: ss => sinceConnect k ss

/-- The clients at a desk after some steps, of which the first n have been served. -/
structure Lined (size : Nat) (limit : Bool) (n : Nat) (past : List Step) (d : Desk) : Prop where
  size : d.chunkSize = size
  limit : d.hasTimeLimit = limit
  served : n ≤ d.clients.length
  connected : d.clients.length = past.count .connect
  closed : ∀ k c, d.clients[k]? = some c → k < n → c.place = .closed
  own : ∀ k c, d.clients[k]? = some c → n ≤ k → c = waiting k (sinceConnect k past)

theorem sinceConnect_snoc (k : Nat) (past : List Step) (s : Step) :
    sinceConnect k (past ++ [s]) =
      if k < past.count .connect then sinceConnect k past ++ [s] else [] := by
  induction past generalizing k with
  | nil => cases s <;> cases k <;> rfl
  | cons p past ih =>
    cases p with
    | connect =>
      cases k with
      | zero => simp [sinceConnect]
      | succ k => simp [sinceConnect, ih]
    | _ => simp [sinceConnect, ih]

variable {size n : Nat} {limit : Bool} {past : List Step} {d : Desk}

theorem lined_opened (size : Nat) (limit : Bool) : Lined size limit 0 [] (opened size limit) :=
  ⟨rfl, rfl, Nat.le_refl 0, rfl, by simp [opened], by simp [opened]⟩

theorem Lined.touches (h : Lined size limit n past d) {d' : Desk} (s : Step)
    (same : d'.chunkSize = d.chunkSize ∧ d'.hasTimeLimit = d.hasTimeLimit)
    (joins : s ≠ .connect) (length : d'.clients.length = d.clients.length)
    (gone : ∀ k c', d'.clients[k]? = some c' → k < n → c'.place = .closed)
    (waits : ∀ k c c', d.clients[k]? = some c → d'.clients[k]? = some c' → n ≤ k →
      c' = touch k c s) : Lined size limit n (past ++ [s]) d' := by
  have count : (past ++ [s]).count .connect = past.count .connect := by
    simp [List.count_append, joins]
  refine ⟨same.1.trans h.size, same.2.trans h.limit, ?_, ?_, gone, ?_⟩
  · rw [length]
    exact h.served
  · rw [length, count]
    exact h.connected
  · intro k c' here after
    have inside : k < d.clients.length := by
      rw [← length]
      exact (List.getElem?_eq_some_iff.mp here).1
    have before := List.getElem?_eq_getElem inside
    rw [sinceConnect_snoc, if_pos (by rw [← h.connected]; exact inside), waiting,
      List.foldl_append, waits k _ c' before here after, h.own k _ before after]
    rfl

theorem Lined.still (h : Lined size limit n past d) {d' : Desk} {s : Step} (joins : s ≠ .connect)
    (same : d'.clients = d.clients)
    (settings : d'.chunkSize = d.chunkSize ∧ d'.hasTimeLimit = d.hasTimeLimit)
    (quiet : ∀ k c, touch k c s = c) :
    Lined size limit n (past ++ [s]) d' := by
  refine h.touches s settings joins (by rw [same]) (by rw [same]; exact h.closed) ?_
  intro k c c' was here _
  rw [same, was] at here
  rw [quiet k c]
  exact (Option.some.inj here).symm

theorem getElem?_change (d : Desk) (j k : Nat) (f : Client → Client) :
    (d.change j f).clients[k]? = (d.clients[k]?).map fun c => if j = k then f c else c := by
  rw [Desk.change, List.getElem?_modify]
  rfl

theorem Lined.change (h : Lined size limit n past d) (s : Step) (joins : s ≠ .connect) (j : Nat)
    {f : Client → Client} (closes : ∀ c, c.place = .closed → (f c).place = .closed)
    (acts : ∀ c, d.clients[j]? = some c → n ≤ j → f c = touch j c s)
    (others : ∀ k c, j ≠ k → touch k c s = c) :
    Lined size limit n (past ++ [s]) (d.change j f) := by
  refine h.touches s ⟨rfl, rfl⟩ joins (by simp [Desk.change]) ?_ ?_
  · intro k c' here before
    rw [getElem?_change] at here
    obtain ⟨c, was, rfl⟩ := Option.map_eq_some_iff.mp here
    split_ifs with same
    · exact closes c (h.closed k c was before)
    · exact h.closed k c was before
  · intro k c c' was here after
    rw [getElem?_change, was, Option.map_some, Option.some.injEq] at here
    subst here
    split_ifs with same
    · subst same
      exact acts c was after
    · exact (others k c same).symm

theorem Lined.waits (h : Lined size limit n past d) {k : Nat} {c : Client}
    (here : d.clients[k]? = some c) (after : n ≤ k) : Untouched c := by
  rw [h.own k c here after]
  exact untouched_waiting k _

theorem Lined.inbound (h : Lined size limit n past d) {k : Nat} {c : Client}
    (here : d.clients[k]? = some c) (after : n ≤ k) :
    c.inbound = sentBy k (sinceConnect k past) := by
  rw [(h.waits here after).inbound, h.own k c here after, sent_waiting]

theorem Lined.hasReset (h : Lined size limit n past d) {k : Nat} {c : Client}
    (here : d.clients[k]? = some c) (after : n ≤ k) :
    c.hasReset = decide (.reset k ∈ sinceConnect k past) := by
  rw [h.own k c here after, Bool.eq_iff_iff, hasReset_waiting, decide_eq_true_iff]

theorem Lined.hasShut (h : Lined size limit n past d) {k : Nat} {c : Client}
    (here : d.clients[k]? = some c) (after : n ≤ k) (kept : .reset k ∉ sinceConnect k past) :
    c.hasShut = decide (.shutdown k ∈ sinceConnect k past) := by
  rw [h.own k c here after, Bool.eq_iff_iff, hasShut_waiting kept, decide_eq_true_iff]

theorem Lined.place (h : Lined size limit n past d) {k : Nat} {c : Client}
    (here : d.clients[k]? = some c) : c.place = if k < n then .closed else .backlog := by
  split_ifs with before
  · exact h.closed k c here before
  · exact (h.waits here (Nat.le_of_not_lt before)).place

theorem Lined.oldest (h : Lined size limit n past d) :
    d.oldest? = if n < d.clients.length then some n else none := by
  split_ifs with some_left
  · rw [Desk.oldest?, List.findIdx?_eq_some_iff_getElem]
    refine ⟨some_left, ?_, ?_⟩
    · have place := (h.waits (List.getElem?_eq_getElem some_left) (Nat.le_refl n)).place
      exact decide_eq_true place
    · intro j before
      have place := h.closed j _ (List.getElem?_eq_getElem (by omega)) before
      simp [Client.waits, place]
  · rw [Desk.oldest?, List.findIdx?_eq_none_iff]
    intro c member
    obtain ⟨k, inside, rfl⟩ := List.getElem_of_mem member
    have place := h.closed k _ (List.getElem?_eq_getElem inside) (by omega)
    simp [Client.waits, place]

theorem place_afterService (run : Relay.Run) (c : Client) :
    (Desk.afterService run c).place = .closed := rfl

theorem Lined.serve (h : Lined size limit n past d) (some_left : n < d.clients.length)
    (run : Relay.Run) :
    Lined size limit (n + 1) (past ++ [.serve]) (d.change n (Desk.afterService run)) := by
  have waits : Lined size limit n (past ++ [.serve]) d :=
    h.still (by simp) rfl ⟨rfl, rfl⟩ fun _ _ => rfl
  have length : (d.change n (Desk.afterService run)).clients.length = d.clients.length := by
    simp [Desk.change]
  refine ⟨h.size, h.limit, ?_, ?_, ?_, ?_⟩
  · rw [length]
    exact some_left
  · rw [length]
    exact waits.connected
  · intro k c' here before
    rw [getElem?_change] at here
    obtain ⟨c, was, rfl⟩ := Option.map_eq_some_iff.mp here
    split_ifs with same
    · exact place_afterService run c
    · exact h.closed k c was (by omega)
  · intro k c' here after
    rw [getElem?_change] at here
    obtain ⟨c, was, rfl⟩ := Option.map_eq_some_iff.mp here
    rw [if_neg (by omega)]
    exact waits.own k c was (by omega)

def Reply.isServed : Reply → Bool
  | .served _ _ => true
  | _ => false

/-- Why an accept fails: the server is out of descriptors, or it has waited for as long as it may
while nobody came. -/
def AcceptFails (d : Desk) (f : Fault) : Prop :=
  d.hasDescriptors = false ∧ f = .tooManyOpenFiles ∨
    d.hasDescriptors = true ∧ d.hasTimeLimit = true ∧ f = .wouldBlock ∧
      ∀ c ∈ d.clients, c.place = .closed

/-- A call for the next client, of whom the one with the number n is served. -/
inductive Calls (d : Desk) (n : Nat) : Desk × Reply → Prop where
  | fails {f : Fault} (cause : AcceptFails d f) : Calls d n (d, .acceptFailed f)
  | blocks (descriptors : d.hasDescriptors = true) (patient : d.hasTimeLimit = false)
      (idle : ∀ c, d.clients[n]? = some c → c.hasShut = false ∧ c.hasReset = false) :
      Calls d n (d, .wouldBlock)
  | serves {c : Client} (descriptors : d.hasDescriptors = true) (here : d.clients[n]? = some c)
      (ready : d.hasTimeLimit = true ∨ c.hasShut = true ∨ c.hasReset = true) :
      Calls d n (d.serveClient n c)

theorem Lined.calls (h : Lined size limit n past d) : Calls d n d.serveNext := by
  unfold Desk.serveNext
  cases descriptors : d.hasDescriptors with
  | false => exact .fails (Or.inl ⟨descriptors, rfl⟩)
  | true =>
    rw [if_neg (by simp), h.oldest]
    by_cases some_left : n < d.clients.length
    · have here := List.getElem?_eq_getElem some_left
      simp only [if_pos some_left, here]
      split_ifs with ready
      · exact .serves descriptors here ready
      · simp only [not_or, Bool.not_eq_true] at ready
        refine .blocks descriptors ready.1 fun c there => ?_
        cases here.symm.trans there
        exact ready.2
    · simp only [if_neg some_left]
      split_ifs with limited
      · refine .fails (Or.inr ⟨descriptors, limited, rfl, fun c member => ?_⟩)
        obtain ⟨k, inside, rfl⟩ := List.getElem_of_mem member
        exact h.closed k _ (List.getElem?_eq_getElem inside) (by omega)
      · refine .blocks descriptors (by simpa using limited) fun c there => ?_
        exact absurd (List.getElem?_eq_some_iff.mp there).1 some_left

theorem Lined.connect (h : Lined size limit n past d) :
    Lined size limit n (past ++ [.connect]) { d with clients := d.clients ++ [{}] } := by
  refine ⟨h.size, h.limit, ?_, ?_, ?_, ?_⟩
  · have := h.served
    simp only [List.length_append, List.length_singleton]
    omega
  · simp [List.count_append, h.connected]
  · intro k c here before
    have inside := h.served
    rw [List.getElem?_append_left (by omega)] at here
    exact h.closed k c here before
  · intro k c here after
    rw [sinceConnect_snoc, ← h.connected]
    split_ifs with inside
    · rw [List.getElem?_append_left inside] at here
      rw [waiting, List.foldl_append]
      exact h.own k c here after
    · -- The newcomer has not done anything yet.
      have last : k = d.clients.length := by
        have bound := (List.getElem?_eq_some_iff.mp here).1
        simp only [List.length_append, List.length_singleton] at bound
        omega
      rw [last, List.getElem?_concat_length] at here
      exact (Option.some.inj here).symm

theorem Untouched.take {c : Client} (h : Untouched c) : c.take c.outbound.length = c := by
  have nothing := h.outbound
  obtain ⟨sent, inbound, outbound, received, hasShut, hasReset, isBroken, room, place⟩ := c
  simp only at nothing
  subst nothing
  simp [Client.take]

theorem Lined.drain (h : Lined size limit n past d) (k : Nat) :
    Lined size limit n (past ++ [.drain k]) (d.drain k).1 := by
  unfold Desk.drain
  split
  · exact h.still (by simp) rfl ⟨rfl, rfl⟩ fun _ _ => rfl
  · rename_i c here
    refine h.change _ (by simp) k (fun c closed => closed) (fun c' there after => ?_)
      fun j c _ => rfl
    cases here.symm.trans there
    exact (h.waits here after).take

theorem Lined.perform (h : Lined size limit n past d) (s : Step) :
    Lined size limit (n + if (d.perform s).2.isServed then 1 else 0) (past ++ [s])
      (d.perform s).1 := by
  cases s with
  | connect => exact h.connect
  | send k data =>
    refine h.change _ (by simp) k (fun c closed => ?_) (fun c _ _ => (if_pos rfl).symm)
      fun j c other => if_neg other
    unfold Client.send
    split_ifs <;> exact closed
  | shutdown k =>
    refine h.change _ (by simp) k (fun c closed => ?_) (fun c _ _ => (if_pos rfl).symm)
      fun j c other => if_neg other
    unfold Client.shut
    split_ifs <;> exact closed
  | reset k =>
    exact h.change _ (by simp) k (fun c closed => closed) (fun c _ _ => (if_pos rfl).symm)
      fun j c other => if_neg other
  | serve =>
    have called := h.calls
    rw [Desk.perform]
    cases result : d.serveNext with
    | mk d' reply =>
      rw [result] at called
      cases called with
      | fails => exact h.still (by simp) rfl ⟨rfl, rfl⟩ fun _ _ => rfl
      | blocks => exact h.still (by simp) rfl ⟨rfl, rfl⟩ fun _ _ => rfl
      | serves descriptors here ready =>
        exact h.serve (List.getElem?_eq_some_iff.mp here).1 _
  | drain k =>
    have drained : (d.drain k).2.isServed = false := by
      unfold Desk.drain
      split <;> rfl
    rw [Desk.perform, drained]
    exact h.drain k
  | exhaustDescriptors => exact h.still (by simp) rfl ⟨rfl, rfl⟩ fun _ _ => rfl
  | restoreDescriptors => exact h.still (by simp) rfl ⟨rfl, rfl⟩ fun _ _ => rfl

theorem performAll_append (d : Desk) (ss ts : List Step) :
    d.performAll (ss ++ ts) =
      (((d.performAll ss).1.performAll ts).1,
        (d.performAll ss).2 ++ ((d.performAll ss).1.performAll ts).2) := by
  induction ss generalizing d with
  | nil => rfl
  | cons s ss ih => simp only [List.cons_append, Desk.performAll, ih]

theorem lined_performAll (size : Nat) (limit : Bool) (past : List Step) :
    Lined size limit (((opened size limit).performAll past).2.countP Reply.isServed) past
      ((opened size limit).performAll past).1 := by
  induction past using List.reverseRecOn with
  | nil => exact lined_opened size limit
  | append_singleton past s ih =>
    have next := ih.perform s
    rw [performAll_append]
    simp only [Desk.performAll, List.countP_append, List.countP_singleton]
    exact next

end TcpEcho.Serial
