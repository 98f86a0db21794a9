import Mathlib.Data.List.TakeDrop
import Mathlib.Data.List.TakeWhile
import TcpEcho.Decimal
/- Runs of characters of one class, and the digits that a whole number is written with, read back
   as that number. -/
namespace TcpEcho

theorem span_run {α : Type} {p : α → Bool} {w rest : List α} (run : ∀ d ∈ w, p d = true)
    (boundary : ∀ c ∈ rest.head?, p c = false) : (w ++ rest).span p = (w, rest) := by
  rw [List.span_eq_takeWhile_dropWhile, List.takeWhile_append_of_pos run,
    List.dropWhile_append_of_pos run]
  cases rest with
  | nil => simp
  | cons c rest => simp [boundary c rfl]

theorem of_span_eq {α : Type} {p : α → Bool} {cs w rest : List α} (h : cs.span p = (w, rest)) :
    cs = w ++ rest ∧ ∀ d ∈ w, p d = true := by
  rw [List.span_eq_takeWhile_dropWhile, Prod.mk.injEq] at h
  obtain ⟨rfl, rfl⟩ := h
  exact ⟨List.takeWhile_append_dropWhile.symm, fun _ => List.mem_takeWhile_imp⟩

theorem span_append {α : Type} {p : α → Bool} {w : List α} (run : ∀ d ∈ w, p d = true) {c : α}
    (other : p c = false) (rest : List α) : (w ++ c :: rest).span p = (w, c :: rest) :=
  span_run run (by simpa using other)

theorem span_self {α : Type} {p : α → Bool} {w : List α} (run : ∀ d ∈ w, p d = true) :
    w.span p = (w, []) := by
  have whole : (w ++ []).span p = (w, []) := span_run run (by simp)
  rwa [List.append_nil] at whole

theorem takeWhile_ne {α : Type} [DecidableEq α] {x : α} {w : List α} (outside : x ∉ w)
    (rest : List α) : (w ++ x :: rest).takeWhile (· ≠ x) = w := by
  have run : ∀ c ∈ w, decide (c ≠ x) = true := by
    intro c member
    refine decide_eq_true ?_
    rintro rfl
    exact outside member
  rw [List.takeWhile_append_of_pos run]
  simp

namespace Decimal

theorem isDigit_of_mem_digits {n : Nat} {c : Char} (h : c ∈ digits n) : isDigit c = true := by
  have digit := Nat.isDigit_of_mem_toDigits (by decide) (by decide) h
  simpa [Char.isDigit, isDigit, Char.le_def] using digit

theorem value_digits (n : Nat) : value (digits n) = n := by
  have back : Nat.ofDigitChars 10 (digits n) 0 = n := Nat.ofDigitChars_ten_toDigits
  rw [Nat.ofDigitChars_eq_foldl] at back
  exact back

theorem exists_digits (n : Nat) : ∃ c cs, digits n = c :: cs :=
  List.exists_cons_of_ne_nil Nat.toDigits_ne_nil

theorem head_digits {n : Nat} (positive : 0 < n) : (digits n).head? ≠ some '0' := by
  induction n using Nat.strongRecOn with
  | ind n ih =>
    by_cases single : n < 10
    · rw [digits, Nat.toDigits_of_lt_base single, List.head?_cons]
      intro zero
      have := Nat.digitChar_eq_zero.mp (Option.some.inj zero)
      omega
    · have shorter := ih (n / 10) (by omega) (by omega)
      obtain ⟨c, cs, same⟩ := exists_digits (n / 10)
      rw [same] at shorter
      rw [digits, Nat.toDigits_of_base_le (by decide) (by omega), ← digits, same]
      exact shorter

theorem digitValue_lt {c : Char} (h : isDigit c = true) :
    digitValue c < 10 ∧ Nat.digitChar (digitValue c) = c := by
  have least : '0'.toNat = 48 := rfl
  have range : 48 ≤ c.toNat ∧ c.toNat ≤ 57 := by
    simpa [isDigit, Char.le_def, UInt32.le_iff_toNat_le] using h
  have small : digitValue c < 10 := by
    unfold digitValue
    omega
  refine ⟨small, Char.toNat_inj.mp ?_⟩
  rw [Nat.toNat_digitChar_of_lt_ten small, digitValue]
  omega

theorem digits_append {n : Nat} (positive : 0 < n) {ds : List Char}
    (each : ∀ c ∈ ds, isDigit c = true) :
    digits n ++ ds = digits (ds.foldl (fun n c => 10 * n + digitValue c) n) := by
  induction ds generalizing n with
  | nil => rw [List.append_nil, List.foldl_nil]
  | cons c cs ih =>
    rw [List.forall_mem_cons] at each
    obtain ⟨small, back⟩ := digitValue_lt each.1
    have one := Nat.toDigits_append_toDigits (by decide : 1 < 10) positive small
    rw [Nat.toDigits_of_lt_base small, back] at one
    calc digits n ++ c :: cs
        = (digits n ++ [c]) ++ cs := by rw [List.append_assoc, List.singleton_append]
      _ = digits (10 * n + digitValue c) ++ cs := by rw [digits, one, ← digits]
      _ = _ := ih (by omega) each.2

theorem digits_value {ds : List Char} (each : ∀ c ∈ ds, isDigit c = true) (some_digit : ds ≠ [])
    (plain : ds.head? = some '0' → ds = ['0']) : digits (value ds) = ds := by
  obtain ⟨c, cs, rfl⟩ := List.exists_cons_of_ne_nil some_digit
  by_cases zero : c = '0'
  · rw [plain (congrArg some zero)]
    rfl
  · rw [List.forall_mem_cons] at each
    obtain ⟨small, back⟩ := digitValue_lt each.1
    have positive : 0 < digitValue c := by
      refine Nat.pos_of_ne_zero fun none => zero ?_
      rw [← back, none]
      rfl
    have more := digits_append positive each.2
    rw [digits, Nat.toDigits_of_lt_base small, back] at more
    rw [value, List.foldl_cons, Nat.mul_zero, Nat.zero_add, ← more, List.singleton_append]

theorem signedDigits_ofNat (n : Nat) : signedDigits n = digits n := by
  simp [signedDigits]

end Decimal

end TcpEcho
