import TcpEcho.Relay.Run
/- The calls of a relay as a relation between its states, so that what one call preserves is
   carried over whole runs and over each of their beginnings. -/
namespace TcpEcho.Relay

/-- The exchanges that take a relay and its stream from one state to another. -/
inductive Makes : Relay → Script → List Exchange → Relay → Script → Prop where
  | none (r : Relay) (s : Script) : Makes r s [] r s
  | call {r r' r'' : Relay} {s s' s'' : Script} {x : Exchange} {xs : List Exchange}
      (first : r.advance s = .call x r' s') (rest : Makes r' s' xs r'' s'') :
      Makes r s (x :: xs) r'' s''

theorem advance_cases {r r' : Relay} {s s' : Script} {x : Exchange}
    (h : r.advance s = .call x r' s') :
    (∃ o, r.phase = .reading ∧ s.read r.chunkSize = (o, s') ∧
      x = ⟨.read r.chunkSize o, readEvents o⟩ ∧ r' = r.afterRead o) ∨
    (∃ size b bs o, r.phase = .writing size b bs ∧ s.write (b :: bs) = (o, s') ∧
      x = ⟨.write (b :: bs) o, []⟩ ∧ r' = r.afterWrite size (b :: bs) o) := by
  unfold advance at h
  split at h
  · simp at h
  · rename_i reading
    simp only [Progress.call.injEq] at h
    obtain ⟨rfl, rfl, rfl⟩ := h
    exact Or.inl ⟨_, reading, rfl, rfl, rfl⟩
  · rename_i size b bs writing
    simp only [Progress.call.injEq] at h
    obtain ⟨rfl, rfl, rfl⟩ := h
    exact Or.inr ⟨size, b, bs, _, writing, rfl, rfl, rfl⟩

theorem advance_reading {r : Relay} (h : r.phase = .reading) (s : Script) :
    r.advance s = .call ⟨.read r.chunkSize (s.read r.chunkSize).1,
      readEvents (s.read r.chunkSize).1⟩ (r.afterRead (s.read r.chunkSize).1)
      (s.read r.chunkSize).2 := by
  simp [advance, h]

theorem advance_writing {r : Relay} {size : Nat} {b : UInt8} {bs : Octets}
    (h : r.phase = .writing size b bs) (s : Script) :
    r.advance s = .call ⟨.write (b :: bs) (s.write (b :: bs)).1, []⟩
      (r.afterWrite size (b :: bs) (s.write (b :: bs)).1) (s.write (b :: bs)).2 := by
  simp [advance, h]

theorem advance_ended {r : Relay} {e : Ending} (h : r.phase = .ended e) (s : Script) :
    r.advance s = .ended e := by
  simp [advance, h]

theorem phase_of_advance_ended {r : Relay} {s : Script} {e : Ending}
    (h : r.advance s = .ended e) : r.phase = .ended e := by
  unfold advance at h
  split at h <;> simp_all

theorem owed_reading {r : Relay} (reading : r.phase = .reading) : r.owed = [] := by
  simp [owed, reading]

theorem owed_writing {r : Relay} {size : Nat} {b : UInt8} {bs : Octets}
    (writing : r.phase = .writing size b bs) : r.owed = b :: bs := by
  simp [owed, writing]

theorem owed_ended {r : Relay} {e : Ending} (ended : r.phase = .ended e) : r.owed = [] := by
  simp [owed, ended]

theorem hasEnded_ended {r : Relay} {e : Ending} (ended : r.phase = .ended e) :
    r.hasEnded = true := by
  simp [hasEnded, ended]

theorem hasEnded_reading {r : Relay} (reading : r.phase = .reading) : r.hasEnded = false := by
  simp [hasEnded, reading]

theorem hasEnded_writing {r : Relay} {size : Nat} {b : UInt8} {bs : Octets}
    (writing : r.phase = .writing size b bs) : r.hasEnded = false := by
  simp [hasEnded, writing]

theorem runFrom_makes (r : Relay) (s : Script) :
    ∃ r', Makes r s (r.runFrom s).exchanges r' (r.runFrom s).rest ∧
      r'.phase = .ended (r.runFrom s).ending := by
  fun_induction runFrom r s with
  | case1 r s e h => exact ⟨r, .none r s, phase_of_advance_ended h⟩
  | case2 r s x r' s' h _ run ih =>
    obtain ⟨last, makes, ended⟩ := ih
    exact ⟨last, .call h makes, ended⟩

theorem runFrom_eq_of_makes {r r' : Relay} {s s' : Script} {xs : List Exchange} {e : Ending}
    (h : Makes r s xs r' s') (ended : r'.phase = .ended e) : r.runFrom s = ⟨xs, e, s'⟩ := by
  induction h with
  | none r s =>
    rw [runFrom]
    split
    · rename_i e' h
      rw [advance_ended ended] at h
      cases h
      rfl
    · rename_i h
      rw [advance_ended ended] at h
      cases h
  | call first rest ih =>
    rw [runFrom]
    split
    · rename_i h
      rw [first] at h
      cases h
    · rename_i h
      rw [first] at h
      cases h
      simp [ih ended]

theorem Makes.keeps {I : List Exchange → Relay → Script → Prop}
    (keep : ∀ {ys r s x r' s'}, I ys r s → r.advance s = .call x r' s' → I (ys ++ [x]) r' s')
    {r r' : Relay} {s s' : Script} {xs ys : List Exchange} (h : Makes r s xs r' s')
    (start : I ys r s) : I (ys ++ xs) r' s' := by
  induction h generalizing ys with
  | none r s => simpa using start
  | call first rest ih => simpa using ih (keep start first)

/-- A property of the exchanges, the relay and the script that every call keeps holds at the
end of every run. -/
theorem run_keeps {I : List Exchange → Relay → Script → Prop} (mode : Mode) (chunkSize : Nat)
    (s : Script)
    (keep : ∀ {ys r s x r' s'}, I ys r s → r.advance s = .call x r' s' → I (ys ++ [x]) r' s')
    (start : I [] { mode := mode, chunkSize := chunkSize } (mode.script s)) :
    ∃ r, r.phase = .ended (run mode chunkSize s).ending ∧
      I (run mode chunkSize s).exchanges r (run mode chunkSize s).rest := by
  obtain ⟨r, makes, ended⟩ := runFrom_makes { mode := mode, chunkSize := chunkSize }
    (mode.script s)
  have kept := makes.keeps keep start
  rw [List.nil_append] at kept
  exact ⟨r, ended, kept⟩

theorem afterFault_cases (r : Relay) (f : Fault) :
    (f.isInterrupt = true ∧ r.afterFault f = r) ∨
    (f.isInterrupt = false ∧ r.afterFault f = r.fail f) := by
  unfold afterFault
  cases interrupted : f.isInterrupt with
  | true => exact Or.inl ⟨rfl, rfl⟩
  | false => exact Or.inr ⟨rfl, rfl⟩

theorem settings_afterFault (r : Relay) (f : Fault) :
    (r.afterFault f).mode = r.mode ∧ (r.afterFault f).chunkSize = r.chunkSize := by
  unfold afterFault
  split <;> exact ⟨rfl, rfl⟩

theorem settings_afterRead (r : Relay) (o : ReadOutcome) :
    (r.afterRead o).mode = r.mode ∧ (r.afterRead o).chunkSize = r.chunkSize := by
  unfold afterRead
  split
  · exact ⟨rfl, rfl⟩
  · exact ⟨rfl, rfl⟩
  · exact settings_afterFault r _
  · exact ⟨rfl, rfl⟩

theorem settings_afterWrite (r : Relay) (size : Nat) (owed : Octets) (o : WriteOutcome) :
    (r.afterWrite size owed o).mode = r.mode ∧
      (r.afterWrite size owed o).chunkSize = r.chunkSize := by
  unfold afterWrite
  split
  · exact ⟨rfl, rfl⟩
  · split <;> exact ⟨rfl, rfl⟩
  · exact settings_afterFault r _
  · exact ⟨rfl, rfl⟩

theorem owed_afterGot {r : Relay} (d : Octets) : (r.afterRead (.got d)).owed = d := by
  cases d <;> rfl

theorem afterTook {r : Relay} (size n : Nat) (owed : Octets) :
    (r.afterWrite size owed (.took (n + 1))).owed = owed.drop (n + 1) ∧
    (r.afterWrite size owed (.took (n + 1))).hasEnded = false := by
  simp only [afterWrite]
  split
  · rename_i rest
    rw [rest]
    exact ⟨rfl, rfl⟩
  · rename_i rest
    rw [rest]
    exact ⟨rfl, rfl⟩

end TcpEcho.Relay
