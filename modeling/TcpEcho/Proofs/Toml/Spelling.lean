import Mathlib.Tactic.IntervalCases
import TcpEcho.Toml.Document
import TcpEcho.Settings.Written
import TcpEcho.Proofs.Text.Runs
/- Values as they are written on a line: strings with their escapes and whole numbers in
   decimal digits are read back as they were. -/
namespace TcpEcho.Toml

theorem push_push (front next : List Char) (read : Option (List Char × List Char)) :
    push front (push next read) = push (front ++ next) read := by
  cases read <;> simp [push]

theorem hexValue_digitChar {n : Nat} (h : n < 16) : hexValue (Nat.digitChar n) = some n := by
  interval_cases n <;> rfl

theorem step_digitChar {n : Nat} (h : n < 16) (left bits : Nat) :
    (Escape.code (left + 1) bits).step (Nat.digitChar n) =
      some ([], .code left (bits * 16 + n)) := by
  simp only [Escape.step, hexValue_digitChar h]

theorem step_lastDigit {n : Nat} (h : n < 16) (bits : Nat) {c : Char}
    (code : bits * 16 + n = c.toNat) :
    (Escape.code 0 bits).step (Nat.digitChar n) = some ([c], .plain) := by
  have valid : (c.toNat).isValidChar := c.valid
  simp only [Escape.step, hexValue_digitChar h, code, scalar?, if_pos valid, Option.map_some,
    Char.ofNat_toNat]

theorem basicText_codeDigits {c : Char} (small : c.toNat < 65536) (cs : List Char) :
    basicText .opened ('u' :: codeDigits c.toNat ++ cs) = push [c] (basicText .plain cs) := by
  have first := step_digitChar (Nat.mod_lt (c.toNat / 4096) (by decide : 16 > 0)) 2 0
  have second := step_digitChar (Nat.mod_lt (c.toNat / 256) (by decide : 16 > 0)) 1
    (0 * 16 + c.toNat / 4096 % 16)
  have third := step_digitChar (Nat.mod_lt (c.toNat / 16) (by decide : 16 > 0)) 0
    ((0 * 16 + c.toNat / 4096 % 16) * 16 + c.toNat / 256 % 16)
  have last := step_lastDigit (Nat.mod_lt c.toNat (by decide : 16 > 0))
    (((0 * 16 + c.toNat / 4096 % 16) * 16 + c.toNat / 256 % 16) * 16 + c.toNat / 16 % 16)
    (c := c) (by omega)
  have opened : Escape.opened.step 'u' = some ([], .code 3 0) := by decide
  simp only [codeDigits, List.map_cons, List.map_nil, List.cons_append, List.nil_append,
    basicText, opened, first, second, third, last, push_push]

theorem basicText_escaped (c : Char) (cs : List Char) :
    basicText .plain (escaped c ++ cs) = push [c] (basicText .plain cs) := by
  have opens : ∀ rest, basicText .plain ('\\' :: rest) = basicText .opened rest := fun _ => rfl
  unfold escaped
  split_ifs with quote backslash control
  · subst quote
    rfl
  · subst backslash
    rfl
  · rw [List.cons_append, opens]
    refine basicText_codeDigits ?_ cs
    omega
  · have visible : isVisible c = true := by
      simp only [isVisible, Bool.or_eq_true, Bool.and_eq_true, decide_eq_true_eq]
      omega
    simp only [List.cons_append, List.nil_append, basicText, quote, backslash, visible,
      if_false, if_true]

theorem basicText_flatMap (s rest : List Char) :
    basicText .plain (s.flatMap escaped ++ '"' :: rest) = some (s, rest) := by
  induction s with
  | nil => rfl
  | cons c s ih => rw [List.flatMap_cons, List.append_assoc, basicText_escaped, ih]; rfl

theorem escaped_head (c : Char) : ∃ d ds, escaped c = d :: ds ∧ d ≠ '"' := by
  unfold escaped
  split_ifs with quote
  · exact ⟨_, _, rfl, by decide⟩
  · exact ⟨_, _, rfl, by decide⟩
  · exact ⟨_, _, rfl, by decide⟩
  · exact ⟨_, _, rfl, quote⟩

theorem quoted_append (s : String) (rest : List Char) :
    quoted s ++ rest = '"' :: (s.toList.flatMap escaped ++ '"' :: rest) := by
  simp [quoted]

theorem string_quoted (s : String) (rest : List Char) (ends : rest.head? ≠ some '"') :
    string (quoted s ++ rest) = some (s.toList, rest) := by
  have text := basicText_flatMap s.toList rest
  rw [quoted_append]
  cases chars : s.toList with
  | nil =>
    cases rest with
    | nil => rfl
    | cons r rest =>
      have other : r ≠ '"' := by simpa using ends
      simp [string, basicText, other]
  | cons c cs =>
    obtain ⟨d, ds, head, other⟩ := escaped_head c
    rw [chars, List.flatMap_cons, head] at text
    rw [List.flatMap_cons, head]
    rw [List.cons_append, List.cons_append] at text ⊢
    rw [string]
    · exact text
    · intro more same
      exact other (List.cons.inj same).1

structure Spells (txt : List Char) (v : Value) : Prop where
  visible : ∀ c ∈ txt, c ≠ '\r'
  starts : ∀ rest, skipBlanks (txt ++ rest) = txt ++ rest
  reads : ∀ rest, value (depthLimit - 1) (txt ++ '\n' :: rest) = some (v, '\n' :: rest)

theorem skipBlanks_cons {c : Char} (h : isBlank c = false) (cs : List Char) :
    skipBlanks (c :: cs) = c :: cs := by
  simp [skipBlanks, h]

theorem digitChar_ne_return (n : Nat) : Nat.digitChar n ≠ '\r' := Nat.digitChar_ne _ (by decide)

theorem escaped_ne_return {c d : Char} (member : d ∈ escaped c) : d ≠ '\r' := by
  unfold escaped at member
  rintro rfl
  split_ifs at member with quote backslash control
  · simp at member
  · simp at member
  · simp only [codeDigits, List.map_cons, List.map_nil, List.mem_cons, List.not_mem_nil,
      or_false] at member
    rcases member with h | h | h | h | h | h
    · exact absurd h (by decide)
    · exact absurd h (by decide)
    all_goals exact digitChar_ne_return _ h.symm
  · rw [List.mem_singleton] at member
    subst member
    exact control (Or.inl (by decide))

theorem spells_quoted (s : String) : Spells (quoted s) (.text s) where
  visible c member := by
    simp only [quoted, List.cons_append, List.mem_cons, List.mem_append, List.mem_flatMap,
      List.not_mem_nil, or_false] at member
    rcases member with rfl | ⟨d, -, among⟩ | rfl
    · decide
    · exact escaped_ne_return among
    · decide
  starts rest := skipBlanks_cons (by decide) _
  reads rest := by
    have text := string_quoted s ('\n' :: rest) (by simp)
    rw [quoted_append] at text ⊢
    rw [value, text, Option.map_some, String.ofList_toList]

section Numbers

open Decimal (isDigit digits signedDigits isDigit_of_mem_digits value_digits head_digits
  exists_digits signedDigits_ofNat)

theorem spaced_of_digits {ds : List Char} (some_digit : ds ≠ [])
    (each : ∀ c ∈ ds, isDigit c = true) : spaced isDigit ds = true := by
  fun_induction spaced isDigit ds with
  | case1 => exact absurd rfl some_digit
  | case2 c => exact each c List.mem_cons_self
  | case3 c cs ih => exact absurd (each '_' (by simp)) (by decide)
  | case4 c cs more plain ih =>
    rw [Bool.and_eq_true]
    refine ⟨each c List.mem_cons_self, ih ?_ fun d among => each d (List.mem_cons_of_mem c among)⟩
    rintro rfl
    exact more rfl

theorem wholePart_digits (n : Nat) : wholePart (digits n) = true := by
  unfold wholePart
  have digits_only : spaced isDigit (digits n) = true :=
    spaced_of_digits Nat.toDigits_ne_nil fun _ => isDigit_of_mem_digits
  rw [digits_only, Bool.true_and, Bool.or_eq_true, decide_eq_true_eq, decide_eq_true_eq]
  rcases Nat.eq_zero_or_pos n with rfl | positive
  · exact Or.inr rfl
  · exact Or.inl (head_digits positive)

theorem withoutUnderscores_digits (n : Nat) : withoutUnderscores (digits n) = digits n := by
  refine List.filter_eq_self.mpr fun c member => decide_eq_true ?_
  rintro rfl
  exact absurd (isDigit_of_mem_digits member) (by decide)

theorem signed_signedDigits (n : Int) :
    signed (signedDigits n) = (decide (n < 0), digits n.natAbs) := by
  unfold signedDigits
  split_ifs with negative
  · simp [signed, negative]
  · have digit : ∀ c ∈ digits n.natAbs, isDigit c = true := fun _ => isDigit_of_mem_digits
    unfold signed
    split
    · rename_i same
      exact absurd (digit '+' (by simp [same])) (by decide)
    · rename_i same
      exact absurd (digit '-' (by simp [same])) (by decide)
    · simp [negative]

theorem isDigit_of_mem_tail {n : Int} {c : Char} (member : c ∈ (signedDigits n).tail) :
    isDigit c = true := by
  unfold signedDigits at member
  split_ifs at member
  · exact isDigit_of_mem_digits member
  · exact isDigit_of_mem_digits (List.mem_of_mem_tail member)

theorem isDate_eq_false {w : List Char} (each : ∀ c ∈ w.tail, isDigit c = true) :
    isDate w = false := by
  unfold isDate
  split
  · exact absurd (each '-' (by simp)) (by decide)
  · rfl

theorem isTime_eq_false {w : List Char} (each : ∀ c ∈ w.tail, isDigit c = true)
    (offset : List Char → Bool) : isTime offset w = false := by
  unfold isTime
  split
  · exact absurd (each ':' (by simp)) (by decide)
  · rfl

theorem isMoment_eq_false {w : List Char} (each : ∀ c ∈ w.tail, isDigit c = true) :
    isMoment w = false := by
  have front : ∀ c ∈ (w.take 10).tail, isDigit c = true := by
    intro c member
    cases w with
    | nil => cases member
    | cons d w => exact each c (List.mem_of_mem_take member)
  unfold isMoment
  rw [isDate_eq_false each, isTime_eq_false each, List.splitAt_eq]
  simp only [Bool.false_or]
  split
  · rename_i date delimiter time same
    rw [← (Prod.mk.inj same).1, isDate_eq_false front]
    simp
  · rfl

theorem fraction?_digits (n : Nat) : fraction? (digits n) = none := by
  have mantissa : (digits n).span (fun c => !isExponentLetter c) = (digits n, []) := by
    apply span_self
    intro c member
    have digit := isDigit_of_mem_digits member
    by_contra letter
    simp only [isExponentLetter, Bool.or_eq_true, decide_eq_true_eq, Bool.not_eq_eq_eq_not,
      Bool.not_true, Bool.not_eq_false] at letter
    rcases letter with rfl | rfl <;> exact absurd digit (by decide)
  have whole : (digits n).span (fun c => decide (c ≠ '.')) = (digits n, []) := by
    apply span_self
    intro c member
    rw [decide_eq_true_eq]
    rintro rfl
    exact absurd (isDigit_of_mem_digits member) (by decide)
  simp only [fraction?, mantissa, whole, wholePart_digits, Bool.not_true, Bool.false_eq_true,
    if_false]

theorem float?_signedDigits (n : Int) : float? (signedDigits n) = none := by
  have letter : ∀ c, isDigit c = false → ∀ cs, digits n.natAbs ≠ c :: cs := by
    intro c other cs same
    have digit := isDigit_of_mem_digits (n := n.natAbs) (c := c) (by simp [same])
    rw [other] at digit
    cases digit
  simp only [float?, signed_signedDigits, fraction?_digits, if_neg (letter 'i' (by decide) _),
    if_neg (letter 'n' (by decide) _)]

theorem negated_natAbs (n : Int) : negated (decide (n < 0)) n.natAbs = n := by
  unfold negated
  split_ifs with negative
  · rw [decide_eq_true_eq] at negative
    omega
  · rw [decide_eq_true_eq] at negative
    omega

theorem integer?_signedDigits {n : Int} (low : -0x8000000000000000 ≤ n)
    (high : n < 0x8000000000000000) : integer? (signedDigits n) = some n := by
  have tail := fun c (member : c ∈ (signedDigits n).tail) => isDigit_of_mem_tail member
  unfold integer?
  split
  · rename_i same
    exact absurd (tail 'x' (by simp [same])) (by decide)
  · rename_i same
    exact absurd (tail 'o' (by simp [same])) (by decide)
  · rename_i same
    exact absurd (tail 'b' (by simp [same])) (by decide)
  · simp only [signed_signedDigits, wholePart_digits, withoutUnderscores_digits, value_digits,
      negated_natAbs, inRange, if_true, if_pos (And.intro low high)]

theorem ofWord_signedDigits {n : Int} (low : -0x8000000000000000 ≤ n)
    (high : n < 0x8000000000000000) : ofWord (signedDigits n) = some (.integer n) := by
  have tail := fun c (member : c ∈ (signedDigits n).tail) => isDigit_of_mem_tail member
  have yes : signedDigits n ≠ ['t', 'r', 'u', 'e'] := by
    intro same
    exact absurd (tail 'r' (by simp [same])) (by decide)
  have no : signedDigits n ≠ ['f', 'a', 'l', 's', 'e'] := by
    intro same
    exact absurd (tail 'a' (by simp [same])) (by decide)
  simp only [ofWord, if_neg yes, if_neg no, isMoment_eq_false tail, float?_signedDigits,
    integer?_signedDigits low high, Bool.false_eq_true, if_false, Option.map_some]

theorem isWordChar_of_isDigit {c : Char} (h : isDigit c = true) : isWordChar c = true := by
  have alphanum : c.isAlphanum = true := by
    simp only [isDigit, Char.le_def, Bool.and_eq_true, decide_eq_true_eq] at h
    simp only [Char.isAlphanum, Char.isDigit, Bool.or_eq_true, Bool.and_eq_true,
      decide_eq_true_eq]
    exact Or.inr h
  simp [isWordChar, alphanum]

theorem head_signedDigits (n : Int) :
    ∃ c cs, signedDigits n = c :: cs ∧ (isDigit c = true ∨ c = '-') := by
  unfold signedDigits
  split_ifs
  · exact ⟨_, _, rfl, Or.inr rfl⟩
  · obtain ⟨c, cs, same⟩ := exists_digits n.natAbs
    exact ⟨c, cs, same, Or.inl (isDigit_of_mem_digits (n := n.natAbs) (by simp [same]))⟩

theorem scalar_signedDigits {n : Int} (low : -0x8000000000000000 ≤ n)
    (high : n < 0x8000000000000000) (rest : List Char) :
    scalar (signedDigits n ++ '\n' :: rest) = some (.integer n, '\n' :: rest) := by
  have tail := fun c (member : c ∈ (signedDigits n).tail) => isDigit_of_mem_tail member
  have word : ∀ c ∈ signedDigits n, isWordChar c = true := by
    obtain ⟨c, cs, same, starts⟩ := head_signedDigits n
    rw [same] at tail ⊢
    intro d member
    rcases List.mem_cons.mp member with rfl | among
    · rcases starts with digit | rfl
      · exact isWordChar_of_isDigit digit
      · decide
    · exact isWordChar_of_isDigit (tail d among)
  have split := span_append word (by decide : isWordChar '\n' = false) rest
  simp only [scalar, split, isDate_eq_false tail, ofWord_signedDigits low high, Option.map_some]

theorem spells_signedDigits {n : Int} (low : -0x8000000000000000 ≤ n)
    (high : n < 0x8000000000000000) : Spells (signedDigits n) (.integer n) := by
  obtain ⟨c, cs, same, starts⟩ := head_signedDigits n
  have unlike : ∀ d : Char, isDigit d = false → d ≠ '-' → c ≠ d := by
    rintro d digit dash rfl
    rcases starts with yes | yes
    · rw [digit] at yes
      cases yes
    · exact dash yes
  constructor
  · intro d member
    rw [same] at member
    have tail := fun c (member : c ∈ (signedDigits n).tail) => isDigit_of_mem_tail member
    rw [same] at tail
    rintro rfl
    rcases List.mem_cons.mp member with first | among
    · exact unlike '\r' (by decide) (by decide) first.symm
    · exact absurd (tail '\r' among) (by decide)
  · intro rest
    rw [same, List.cons_append]
    refine skipBlanks_cons ?_ _
    simp [isBlank, unlike ' ' (by decide) (by decide), unlike '\t' (by decide) (by decide)]
  · intro rest
    have number := scalar_signedDigits low high rest
    rw [same, List.cons_append] at number ⊢
    rw [value]
    · exact number
    · exact fun _ start => unlike '"' (by decide) (by decide) (List.cons.inj start).1
    · exact fun _ start => unlike '\'' (by decide) (by decide) (List.cons.inj start).1
    · exact fun _ _ _ start => unlike '[' (by decide) (by decide) (List.cons.inj start).1
    · exact fun _ _ _ start => unlike '\x7b' (by decide) (by decide) (List.cons.inj start).1

theorem spells_digits {n : Nat} (high : n < 0x8000000000000000) :
    Spells (digits n) (.integer n) := by
  rw [← signedDigits_ofNat]
  exact spells_signedDigits (by omega) (by omega)

end Numbers

end TcpEcho.Toml
