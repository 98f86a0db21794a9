import Mathlib.Tactic.SplitIfs
import TcpEcho.Server.Serial
/- Clients that wait to be served by the serial server: what they have sent, and how they have
   left, are read off the steps that they have done themselves. -/
namespace TcpEcho.Serial

/-- The client that sends, shuts down its end or resets its connection in a step. -/
def Step.speaker? : Step → Option Nat
  | .send k _ => some k
  | .shutdown k => some k
  | .reset k => some k
  | _ => none

/-- What a step of a script is to a client that waits. -/
def touch (k : Nat) (c : Client) : Step → Client
  | .send j d => if j = k then c.send d else c
  | .shutdown j => if j = k then c.shut else c
  | .reset j => if j = k then c.reset else c
  | _ => c

theorem touch_cases (k : Nat) (c : Client) (s : Step) :
    (∃ d, s = .send k d ∧ touch k c s = c.send d) ∨ (s = .shutdown k ∧ touch k c s = c.shut) ∨
    (s = .reset k ∧ touch k c s = c.reset) ∨ (s.speaker? ≠ some k ∧ touch k c s = c) := by
  cases s with
  | send j d =>
    by_cases same : j = k
    · exact Or.inl ⟨d, by rw [same], if_pos same⟩
    · exact Or.inr (Or.inr (Or.inr ⟨by simp [Step.speaker?, same], if_neg same⟩))
  | shutdown j =>
    by_cases same : j = k
    · exact Or.inr (Or.inl ⟨by rw [same], if_pos same⟩)
    · exact Or.inr (Or.inr (Or.inr ⟨by simp [Step.speaker?, same], if_neg same⟩))
  | reset j =>
    by_cases same : j = k
    · exact Or.inr (Or.inr (Or.inl ⟨by rw [same], if_pos same⟩))
    · exact Or.inr (Or.inr (Or.inr ⟨by simp [Step.speaker?, same], if_neg same⟩))
  | _ => exact Or.inr (Or.inr (Or.inr ⟨nofun, rfl⟩))

def waiting (k : Nat) (own : List Step) : Client := own.foldl (touch k) {}

/-- The server has not touched a client that waits: all that it has sent is still to be read, and
nothing has come back. -/
structure Untouched (c : Client) : Prop where
  place : c.place = .backlog
  inbound : c.inbound = c.sent
  outbound : c.outbound = []

theorem Untouched.send {c : Client} (h : Untouched c) (d : Octets) : Untouched (c.send d) := by
  unfold Client.send
  split_ifs with finished closed
  · exact h
  · rw [h.place] at closed
    cases closed
  · exact ⟨h.place, by rw [h.inbound], h.outbound⟩

theorem Untouched.shut {c : Client} (h : Untouched c) : Untouched c.shut := by
  unfold Client.shut
  split_ifs
  · exact h
  · exact ⟨h.place, h.inbound, h.outbound⟩

theorem Untouched.touch {c : Client} (h : Untouched c) (k : Nat) (s : Step) :
    Untouched (touch k c s) := by
  obtain ⟨d, -, same⟩ | ⟨-, same⟩ | ⟨-, same⟩ | ⟨-, same⟩ := touch_cases k c s
  all_goals rw [same]
  · exact h.send d
  · exact h.shut
  · exact ⟨h.place, h.inbound, rfl⟩
  · exact h

theorem untouched_waiting (k : Nat) (own : List Step) : Untouched (waiting k own) := by
  have each : ∀ (ss : List Step) (c : Client), Untouched c → Untouched (ss.foldl (touch k) c) := by
    intro ss
    induction ss with
    | nil => exact fun c h => h
    | cons s ss ih => exact fun c h => ih _ (h.touch k s)
  exact each own {} ⟨rfl, rfl, rfl⟩

theorem ends_send (c : Client) (d : Octets) :
    (c.send d).hasShut = c.hasShut ∧ (c.send d).hasReset = c.hasReset := by
  unfold Client.send
  split_ifs <;> exact ⟨rfl, rfl⟩

theorem hasReset_touch (k : Nat) (c : Client) (s : Step) :
    (touch k c s).hasReset = true ↔ c.hasReset = true ∨ .reset k = s := by
  obtain ⟨d, rfl, same⟩ | ⟨rfl, same⟩ | ⟨rfl, same⟩ | ⟨silent, same⟩ := touch_cases k c s
  all_goals rw [same]
  · simp [ends_send]
  · unfold Client.shut
    split_ifs <;> simp
  · simp [Client.reset]
  · have unlike : .reset k ≠ s := by
      rintro rfl
      exact silent rfl
    simp [unlike]

theorem hasShut_touch (k : Nat) (c : Client) (s : Step) :
    (touch k c s).hasShut = true ↔
      c.hasShut = true ∨ c.hasReset = false ∧ .shutdown k = s := by
  obtain ⟨d, rfl, same⟩ | ⟨rfl, same⟩ | ⟨rfl, same⟩ | ⟨silent, same⟩ := touch_cases k c s
  all_goals rw [same]
  · simp [ends_send]
  · unfold Client.shut
    split_ifs with gone <;> simp [gone]
  · simp [Client.reset]
  · have unlike : .shutdown k ≠ s := by
      rintro rfl
      exact silent rfl
    simp [unlike]

/-- What a client sends before it shuts down its end or resets the connection. -/
def sentBy (k : Nat) : List Step → Octets
  | [] => []
  | .send j d :: ss => if j = k then d ++ sentBy k ss else sentBy k ss
  | .shutdown j :: ss => if j = k then [] else sentBy k ss
  | .reset j :: ss => if j = k then [] else sentBy k ss
  | _ :: ss => sentBy k ss

theorem sent_touch_of_finished (k : Nat) (s : Step) {c : Client}
    (finished : c.hasShut = true ∨ c.hasReset = true) : (touch k c s).sent = c.sent := by
  obtain ⟨d, -, same⟩ | ⟨-, same⟩ | ⟨-, same⟩ | ⟨-, same⟩ := touch_cases k c s
  all_goals rw [same]
  · rw [Client.send, if_pos finished]
  · unfold Client.shut
    split_ifs <;> rfl
  · rfl

theorem sent_of_finished (k : Nat) (ss : List Step) {c : Client}
    (finished : c.hasShut = true ∨ c.hasReset = true) :
    (ss.foldl (touch k) c).sent = c.sent := by
  induction ss generalizing c with
  | nil => rfl
  | cons s ss ih =>
    have still : (touch k c s).hasShut = true ∨ (touch k c s).hasReset = true := by
      rw [hasShut_touch, hasReset_touch]
      exact finished.imp Or.inl Or.inl
    rw [List.foldl_cons, ih still, sent_touch_of_finished k s finished]

theorem sent_touches (k : Nat) (ss : List Step) {c : Client} (place : c.place = .backlog)
    (going : c.hasShut = false ∧ c.hasReset = false) :
    (ss.foldl (touch k) c).sent = c.sent ++ sentBy k ss := by
  induction ss generalizing c with
  | nil => simp [sentBy]
  | cons s ss ih =>
    rw [List.foldl_cons]
    cases s with
    | send j d =>
      simp only [touch, sentBy]
      split_ifs
      · have more : c.send d = { c with sent := c.sent ++ d, inbound := c.inbound ++ d } := by
          simp [Client.send, going, place]
        rw [more, ← List.append_assoc]
        exact ih place going
      · exact ih place going
    | shutdown j =>
      simp only [touch, sentBy]
      split_ifs
      · rw [Client.shut, if_neg (by simp [going]), sent_of_finished k ss (Or.inl rfl)]
        exact (List.append_nil _).symm
      · exact ih place going
    | reset j =>
      simp only [touch, sentBy]
      split_ifs
      · rw [sent_of_finished k ss (Or.inr rfl)]
        exact (List.append_nil _).symm
      · exact ih place going
    | _ => exact ih place going

theorem sent_waiting (k : Nat) (own : List Step) : (waiting k own).sent = sentBy k own :=
  sent_touches k own rfl ⟨rfl, rfl⟩

theorem hasReset_touches (k : Nat) (ss : List Step) (c : Client) :
    (ss.foldl (touch k) c).hasReset = true ↔ c.hasReset = true ∨ .reset k ∈ ss := by
  induction ss generalizing c with
  | nil => simp
  | cons s ss ih => rw [List.foldl_cons, ih, hasReset_touch, List.mem_cons, or_assoc]

theorem hasShut_touches (k : Nat) (ss : List Step) {c : Client} (going : c.hasReset = false)
    (kept : .reset k ∉ ss) :
    (ss.foldl (touch k) c).hasShut = true ↔ c.hasShut = true ∨ .shutdown k ∈ ss := by
  induction ss generalizing c with
  | nil => simp
  | cons s ss ih =>
    rw [List.mem_cons, not_or] at kept
    have still : (touch k c s).hasReset = false := by
      rw [Bool.eq_false_iff, ne_eq, hasReset_touch]
      simp [going, kept.1]
    rw [List.foldl_cons, ih still kept.2, hasShut_touch, List.mem_cons, or_assoc]
    simp only [going, true_and]

theorem hasShut_touches_of_reset (k : Nat) (ss : List Step) {c : Client}
    (gone : c.hasReset = true) :
    (ss.foldl (touch k) c).hasShut = true ↔ c.hasShut = true := by
  induction ss generalizing c with
  | nil => rfl
  | cons s ss ih =>
    have still : (touch k c s).hasReset = true := (hasReset_touch k c s).mpr (Or.inl gone)
    rw [List.foldl_cons, ih still, hasShut_touch]
    simp [gone]

theorem shutdown_mem_of_hasShut {k : Nat} {ss : List Step} {c : Client}
    (shut : (ss.foldl (touch k) c).hasShut = true) : c.hasShut = true ∨ .shutdown k ∈ ss := by
  induction ss generalizing c with
  | nil => exact Or.inl shut
  | cons s ss ih =>
    rcases ih shut with early | later
    · rcases (hasShut_touch k c s).mp early with before | ⟨-, now⟩
      · exact Or.inl before
      · exact Or.inr (List.mem_cons.mpr (Or.inl now))
    · exact Or.inr (List.mem_cons_of_mem s later)

theorem hasReset_waiting (k : Nat) (own : List Step) :
    (waiting k own).hasReset = true ↔ .reset k ∈ own := by
  rw [waiting, hasReset_touches]
  simp

theorem hasShut_waiting {k : Nat} {own : List Step} (kept : .reset k ∉ own) :
    (waiting k own).hasShut = true ↔ .shutdown k ∈ own := by
  rw [waiting, hasShut_touches k own rfl kept]
  simp

/-- A client that has reset the connection without having shut down its end before. -/
def ResetFirst (k : Nat) (own : List Step) : Prop :=
  ∃ front back, own = front ++ .reset k :: back ∧ .shutdown k ∉ front

theorem waiting_resetFirst {k : Nat} {own : List Step} (h : ResetFirst k own) :
    (waiting k own).hasReset = true ∧ (waiting k own).hasShut = false := by
  obtain ⟨front, back, rfl, kept⟩ := h
  refine ⟨(hasReset_waiting k _).mpr (by simp), ?_⟩
  rw [Bool.eq_false_iff]
  intro shut
  have gone : (touch k (front.foldl (touch k) {}) (.reset k)).hasReset = true :=
    (hasReset_touch k _ _).mpr (Or.inr rfl)
  rw [waiting, List.foldl_append, List.foldl_cons, hasShut_touches_of_reset k back gone,
    hasShut_touch] at shut
  rcases shut with early | ⟨-, other⟩
  · rcases shutdown_mem_of_hasShut early with never | among
    · cases never
    · exact kept among
  · cases other

end TcpEcho.Serial
