import Mathlib.Data.List.Induction
import Mathlib.Tactic.IntervalCases
import TcpEcho.Net.Address
import TcpEcho.Proofs.Text.Runs
/- The texts that denote an address, as a grammar, and that the reader of addresses takes these
   texts and no others. Each reader gets two lemmas: what it takes from the front of a text is of
   its form, and whatever is of its form it takes, up to a character that cannot continue it. -/
namespace TcpEcho.Address

open Decimal (isDigit isDigit_of_mem_digits value_digits head_digits digits_value)

def hexNumber (ds : List Char) : Nat :=
  ds.foldl (fun n c => 16 * n + (hexDigitValue c).getD 0) 0

/-- One to four hexadecimal digits of either case, zeros in front among them, that stand for a
group. -/
structure IsGroup (ds : List Char) (g : UInt16) : Prop where
  nonempty : ds ≠ []
  short : ds.length ≤ 4
  hex : ∀ c ∈ ds, isHexDigit c = true
  number : hexNumber ds = g.toNat

/-- Groups with a colon between each two of them. The last two may be written as four octets,
which the flag tells. -/
inductive Groups : Bool → List Char → List UInt16 → Prop where
  | one {ds : List Char} {g : UInt16} (group : IsGroup ds g) : Groups false ds [g]
  | octets (a : IPv4) : Groups true (dottedChars a) [pair a.a a.b, pair a.c a.d]
  | cons {ds cs : List Char} {g : UInt16} {gs : List UInt16} {flag : Bool} (group : IsGroup ds g)
      (more : Groups flag cs gs) : Groups flag (ds ++ ':' :: cs) (g :: gs)

/-- One side of a double colon, where nothing has to stand. -/
inductive Side : Bool → List Char → List UInt16 → Prop where
  | none : Side false [] []
  | some {flag : Bool} {cs : List Char} {gs : List UInt16} (groups : Groups flag cs gs) :
      Side flag cs gs

/-- Eight groups are written out, or a double colon stands for one or more that are zero. Octets
stand only at the end of the whole text. -/
inductive IsColons : List Char → List UInt16 → Prop where
  | full {flag : Bool} {cs : List Char} {gs : List UInt16} (groups : Groups flag cs gs)
      (eight : gs.length = 8) : IsColons cs gs
  | gap {flag : Bool} {front back : List Char} {hs ts : List UInt16} {n : Nat}
      (head : Side false front hs) (tail : Side flag back ts) (zeros : 0 < n)
      (eight : hs.length + n + ts.length = 8) :
      IsColons (front ++ ':' :: ':' :: back) (hs ++ List.replicate n 0 ++ ts)

/-- The texts that denote an address: four octets without zeros in front, or groups. -/
inductive Denotes : List Char → Address → Prop where
  | v4 (a : IPv4) : Denotes (dottedChars a) (.v4 a)
  | v6 {cs : List Char} (a : IPv6) (groups : IsColons cs a.groups) : Denotes cs (.v6 a)

def AtColon (rest : List Char) : Prop := ∀ c ∈ rest.head?, c = ':'

theorem atColon_nil : AtColon [] := by
  intro c first
  cases first

theorem atColon_cons (cs : List Char) : AtColon (':' :: cs) := by
  intro c first
  exact (Option.some.inj first).symm

theorem AtColon.stops {rest : List Char} (h : AtColon rest) {p : Char → Bool}
    (other : p ':' = false) : ∀ c ∈ rest.head?, p c = false := by
  intro c first
  rw [h c first]
  exact other

section Digits

theorem isHexDigit_of_isDigit {c : Char} (h : isDigit c = true) : isHexDigit c = true := by
  have decimal : '0' ≤ c ∧ c ≤ '9' := by simpa [isDigit] using h
  simp [isHexDigit, hexDigitValue, decimal]

theorem hexDigitValue_lt {c : Char} {n : Nat} (h : hexDigitValue c = some n) : n < 16 := by
  simp only [hexDigitValue, Char.le_def, UInt32.le_iff_toNat_le] at h
  have code : c.toNat = c.val.toNat := rfl
  split_ifs at h with decimal lower upper
  · have top : '9'.val.toNat = 57 := rfl
    have := Option.some.inj h
    omega
  · have top : 'f'.val.toNat = 102 := rfl
    have := Option.some.inj h
    omega
  · have top : 'F'.val.toNat = 70 := rfl
    have := Option.some.inj h
    omega

theorem hexDigitValue_digitChar {n : Nat} (h : n < 16) :
    hexDigitValue (Nat.digitChar n) = some n := by
  interval_cases n <;> rfl

theorem hexNumber_append (ds : List Char) (c : Char) :
    hexNumber (ds ++ [c]) = 16 * hexNumber ds + (hexDigitValue c).getD 0 := by
  simp only [hexNumber, List.foldl_append, List.foldl_cons, List.foldl_nil]

theorem hexNumber_lt (ds : List Char) : hexNumber ds < 16 ^ ds.length := by
  induction ds using List.reverseRecOn with
  | nil => decide
  | append_singleton ds c ih =>
    have digit : (hexDigitValue c).getD 0 < 16 := by
      cases value : hexDigitValue c with
      | none => decide
      | some n => exact hexDigitValue_lt value
    rw [hexNumber_append, List.length_append, List.length_singleton, Nat.pow_succ]
    omega

theorem hexDigits_toDigits (n : Nat) :
    (∀ c ∈ Nat.toDigits 16 n, isHexDigit c = true) ∧ hexNumber (Nat.toDigits 16 n) = n := by
  induction n using Nat.strongRecOn with
  | ind n ih =>
    by_cases single : n < 16
    · have digit := hexDigitValue_digitChar single
      rw [Nat.toDigits_of_lt_base single]
      simp [isHexDigit, hexNumber, digit]
    · obtain ⟨hex, number⟩ := ih (n / 16) (by omega)
      have digit := hexDigitValue_digitChar (Nat.mod_lt n (by decide : 16 > 0))
      rw [Nat.toDigits_of_base_le (by decide) (by omega), hexNumber_append, number, digit]
      refine ⟨fun c member => ?_, ?_⟩
      · rcases List.mem_append.mp member with before | last
        · exact hex c before
        · rw [List.mem_singleton.mp last, isHexDigit, digit]
          rfl
      · rw [Option.getD_some]
        omega

end Digits

section Octets

theorem isDigit_of_mem_octetChars {n : UInt8} {c : Char} (h : c ∈ octetChars n) :
    isDigit c = true :=
  isDigit_of_mem_digits h

theorem length_octetChars (n : UInt8) : (octetChars n).length ≤ 3 := by
  have small := n.toNat_lt
  refine (Nat.length_toDigits_le_iff (by decide) (by decide)).mpr ?_
  omega

theorem octetChars_plain {n : UInt8} (zero : (octetChars n).head? = some '0') :
    octetChars n = ['0'] := by
  rcases Nat.eq_zero_or_pos n.toNat with none | positive
  · rw [octetChars, none]
    rfl
  · exact absurd zero (head_digits positive)

theorem octet_complete (n : UInt8) {rest : List Char}
    (boundary : ∀ c ∈ rest.head?, isDigit c = false) :
    octet (octetChars n ++ rest) = some (n, rest) := by
  have digit : ∀ c ∈ octetChars n, isDigit c = true := fun _ => isDigit_of_mem_octetChars
  have short := length_octetChars n
  have small := n.toNat_lt
  have back : Decimal.value (octetChars n) = n.toNat := value_digits n.toNat
  unfold octet
  rw [span_run digit boundary]
  simp only [back, UInt8.ofNat_toNat]
  refine if_neg ?_
  rintro (none | long | ⟨zero, more⟩ | large)
  · exact Nat.toDigits_ne_nil none
  · omega
  · exact more (octetChars_plain zero)
  · omega

theorem octet_sound {cs rest : List Char} {n : UInt8} (h : octet cs = some (n, rest)) :
    cs = octetChars n ++ rest := by
  unfold octet at h
  cases taken : cs.span isDigit with
  | mk ds more =>
    obtain ⟨rfl, each⟩ := of_span_eq taken
    simp only [taken] at h
    split_ifs at h with bad
    push Not at bad
    obtain ⟨some_digit, -, plain, small⟩ := bad
    obtain ⟨rfl, rfl⟩ := Prod.mk.inj (Option.some.inj h)
    have value : (UInt8.ofNat (Decimal.value ds)).toNat = Decimal.value ds :=
      UInt8.toNat_ofNat_of_lt' (Nat.lt_succ_of_le small)
    rw [octetChars, value, digits_value each some_digit plain]

theorem pointOctet_sound {cs rest : List Char} {n : UInt8} (h : pointOctet cs = some (n, rest)) :
    cs = '.' :: octetChars n ++ rest := by
  unfold pointOctet at h
  split at h
  · rw [octet_sound h, List.cons_append]
  · cases h

theorem dotted_complete (a : IPv4) {rest : List Char}
    (boundary : ∀ c ∈ rest.head?, isDigit c = false) :
    dotted (dottedChars a ++ rest) = some (a, rest) := by
  have point : ∀ cs, ∀ c ∈ ('.' :: cs).head?, isDigit c = false := by simp [isDigit]
  simp only [dotted, dottedChars, List.append_assoc, List.cons_append, pointOctet,
    octet_complete _ (point _), octet_complete _ boundary, Option.map_some]

theorem dotted_sound {cs rest : List Char} {a : IPv4} (h : dotted cs = some (a, rest)) :
    cs = dottedChars a ++ rest := by
  unfold dotted at h
  split at h
  · cases h
  next first =>
    split at h
    · cases h
    next second =>
      split at h
      · cases h
      next third =>
        obtain ⟨⟨d, last⟩, fourth, whole⟩ := Option.map_eq_some_iff.mp h
        obtain ⟨rfl, rfl⟩ := Prod.mk.inj whole
        rw [octet_sound first, pointOctet_sound second, pointOctet_sound third,
          pointOctet_sound fourth]
        simp only [dottedChars, List.append_assoc, List.cons_append]

theorem dotted_eq_none {ds rest : List Char} (hex : ∀ c ∈ ds, isHexDigit c = true)
    (boundary : AtColon rest) : dotted (ds ++ rest) = none := by
  refine Option.eq_none_iff_forall_ne_some.mpr fun ⟨a, left⟩ read => ?_
  have octets := dotted_sound read
  have digit : ∀ c ∈ octetChars a.a, isHexDigit c = true :=
    fun _ member => isHexDigit_of_isDigit (isDigit_of_mem_octetChars member)
  have taken := span_run hex (boundary.stops (by decide))
  simp only [octets, dottedChars, List.append_assoc, List.cons_append] at taken
  rw [span_append digit (by decide), Prod.mk.injEq] at taken
  have point := boundary '.' (by rw [← taken.2, List.head?_cons, Option.mem_some_iff])
  exact absurd point (by decide)

end Octets

section Colons

theorem group_complete {ds rest : List Char} {g : UInt16} (h : IsGroup ds g)
    (boundary : AtColon rest) : group (ds ++ rest) = some (g, rest) := by
  have number : UInt16.ofNat (hexNumber ds) = g := by rw [h.number, UInt16.ofNat_toNat]
  have short := h.short
  unfold group
  rw [span_run h.hex (boundary.stops (by decide))]
  simp only [h.nonempty, Nat.not_lt.mpr short, or_self, if_false]
  rw [← hexNumber, number]

theorem group_sound {cs rest : List Char} {g : UInt16} (h : group cs = some (g, rest)) :
    ∃ ds, cs = ds ++ rest ∧ IsGroup ds g := by
  unfold group at h
  cases taken : cs.span isHexDigit with
  | mk ds more =>
    obtain ⟨rfl, hex⟩ := of_span_eq taken
    simp only [taken] at h
    split_ifs at h with bad
    push Not at bad
    obtain ⟨nonempty, short⟩ := bad
    obtain ⟨rfl, rfl⟩ := Prod.mk.inj (Option.some.inj h)
    have bound : hexNumber ds < 16 ^ 4 :=
      Nat.lt_of_lt_of_le (hexNumber_lt ds) (Nat.pow_le_pow_right (by decide) short)
    exact ⟨ds, rfl, nonempty, short, hex, (UInt16.toNat_ofNat_of_lt' bound).symm⟩

theorem Groups.dotted_eq_none {cs : List Char} {gs : List UInt16} {flag : Bool}
    (h : Groups flag cs gs) (other : flag = true → 2 < gs.length) {rest : List Char}
    (boundary : AtColon rest) : dotted (cs ++ rest) = none := by
  cases h with
  | one group => exact Address.dotted_eq_none group.hex boundary
  | octets a => exact absurd (other rfl) (Nat.lt_irrefl 2)
  | cons group more =>
    rw [List.append_assoc]
    exact Address.dotted_eq_none group.hex (atColon_cons _)

/-- Where a run of groups can end: at the end of the text, or, when octets have not ended it, at
a double colon. -/
def Ends (flag : Bool) (rest : List Char) : Prop :=
  rest = [] ∨ flag = false ∧ ∃ more, rest = ':' :: ':' :: more

theorem Ends.atColon {flag : Bool} {rest : List Char} (h : Ends flag rest) : AtColon rest := by
  rcases h with rfl | ⟨-, more, rfl⟩
  · exact atColon_nil
  · exact atColon_cons _

theorem dotted_colon (cs : List Char) : dotted (':' :: cs) = none :=
  @dotted_eq_none [] (':' :: cs) (by simp) (atColon_cons cs)

theorem group_colon (cs : List Char) : group (':' :: cs) = none := by
  have stops : isHexDigit ':' = false := by decide
  simp [group, List.span_eq_takeWhile_dropWhile, stops]

theorem run_ends {rest : List Char} (h : Ends false rest) (limit : Nat) (first : Bool) :
    run limit first rest = ⟨[], false, rest⟩ := by
  cases limit with
  | zero => rfl
  | succ limit =>
    rcases h with rfl | ⟨-, more, rfl⟩
    · cases first <;> cases limit <;> rfl
    · cases first <;> simp only [run, behindColon, if_true, Bool.false_eq_true, if_false,
        dotted_colon, ite_self, group_colon]

theorem run_complete {cs : List Char} {gs : List UInt16} {flag : Bool} (h : Groups flag cs gs)
    {limit : Nat} (fits : gs.length ≤ limit) {rest : List Char} (ends : Ends flag rest)
    {first : Bool} {text : List Char} (behind : behindColon first text = some (cs ++ rest)) :
    run limit first text = ⟨gs, flag, rest⟩ := by
  induction h generalizing limit first text with
  | one group =>
    obtain ⟨limit, rfl⟩ := Nat.exists_eq_succ_of_ne_zero (Nat.ne_of_gt fits)
    have not_octets := dotted_eq_none group.hex ends.atColon
    simp only [run, behind, not_octets, ite_self, group_complete group ends.atColon,
      run_ends ends]
  | octets a =>
    obtain ⟨limit, rfl⟩ := Nat.exists_eq_add_of_le' fits
    have read := dotted_complete a (ends.atColon.stops (by decide))
    simp only [List.length_cons, List.length_nil, run, behind, read, Nat.add_eq_zero_iff,
      Nat.one_ne_zero, and_false, if_false]
  | @cons ds cs g gs flag group more ih =>
    obtain ⟨limit, rfl⟩ := Nat.exists_eq_succ_of_ne_zero (Nat.ne_of_gt (Nat.zero_lt_of_lt fits))
    have colon : behindColon false (':' :: (cs ++ rest)) = some (cs ++ rest) := rfl
    have onward := ih (Nat.le_of_succ_le_succ fits) ends colon
    rw [List.append_assoc, List.cons_append] at behind
    simp only [run, behind, dotted_eq_none group.hex (atColon_cons _), ite_self,
      group_complete group (atColon_cons _), onward]

theorem eq_of_behindColon {cs body : List Char} (h : behindColon false cs = some body) :
    cs = ':' :: body := by
  simp only [behindColon, Bool.false_eq_true, if_false] at h
  split at h
  · rw [Option.some.inj h]
  · cases h

theorem run_sound (limit : Nat) (first : Bool) (text : List Char) :
    run limit first text = ⟨[], false, text⟩ ∨
      ∃ cs rest gs flag, run limit first text = ⟨gs, flag, rest⟩ ∧ Groups flag cs gs ∧
        gs.length ≤ limit ∧ behindColon first text = some (cs ++ rest) := by
  induction limit generalizing first text with
  | zero => exact Or.inl rfl
  | succ limit ih =>
    cases behind : behindColon first text with
    | none => exact Or.inl (by simp only [run, behind])
    | some body =>
      cases octets : if limit = 0 then none else dotted body with
      | some read =>
        obtain ⟨a, rest⟩ := read
        split_ifs at octets with last
        refine Or.inr ⟨dottedChars a, rest, _, true, ?_, .octets a, ?_, ?_⟩
        · simp only [run, behind, octets, last, if_false]
        · simp only [List.length_cons, List.length_nil]
          omega
        · rw [dotted_sound octets]
      | none =>
        cases digits : group body with
        | none => exact Or.inl (by simp only [run, behind, octets, digits])
        | some read =>
          obtain ⟨g, rest⟩ := read
          obtain ⟨ds, rfl, group⟩ := group_sound digits
          rcases ih false rest with stop | ⟨cs, left, gs, flag, onward, groups, fits, colon⟩
          · refine Or.inr ⟨ds, rest, [g], false, ?_, .one group, by simp, rfl⟩
            simp only [run, behind, octets, digits, stop]
          · refine Or.inr ⟨ds ++ ':' :: cs, left, g :: gs, flag, ?_, .cons group groups, ?_, ?_⟩
            · simp only [run, behind, octets, digits, onward]
            · exact Nat.succ_le_succ fits
            · rw [eq_of_behindColon colon, List.append_assoc, List.cons_append]

theorem run_side {cs : List Char} {gs : List UInt16} {flag : Bool} (h : Side flag cs gs)
    {limit : Nat} (fits : gs.length ≤ limit) {rest : List Char} (ends : Ends flag rest) :
    run limit true (cs ++ rest) = ⟨gs, flag, rest⟩ := by
  cases h with
  | none => exact run_ends ends limit true
  | some groups => exact run_complete groups fits ends rfl

theorem side_of_run (limit : Nat) (text : List Char) :
    ∃ cs rest gs flag, run limit true text = ⟨gs, flag, rest⟩ ∧ Side flag cs gs ∧
      gs.length ≤ limit ∧ text = cs ++ rest := by
  rcases run_sound limit true text with stop | ⟨cs, rest, gs, flag, taken, groups, fits, whole⟩
  · exact ⟨[], text, [], false, stop, .none, Nat.zero_le limit, rfl⟩
  · exact ⟨cs, rest, gs, flag, taken, .some groups, fits, Option.some.inj whole⟩

theorem Groups.of_side {cs : List Char} {gs : List UInt16} {flag : Bool} (h : Side flag cs gs)
    (some_group : gs ≠ []) : Groups flag cs gs := by
  cases h with
  | none => exact absurd rfl some_group
  | some groups => exact groups

theorem colons_complete {cs : List Char} {gs : List UInt16} (h : IsColons cs gs) :
    colons cs = some (gs, []) := by
  cases h with
  | full groups eight =>
    have head := run_side (.some groups) (Nat.le_of_eq eight) (Or.inl rfl)
    rw [List.append_nil] at head
    simp only [colons, head, eight, if_true]
  | @gap flag front back hs ts n before behind zeros eight =>
    have head := run_side before (by omega : hs.length ≤ 8) (Or.inr ⟨rfl, back, rfl⟩)
    have tail := run_side behind (by omega : ts.length ≤ 7 - hs.length) (Or.inl rfl)
    rw [List.append_nil] at tail
    have part : hs.length ≠ 8 := by omega
    have between : 8 - hs.length - ts.length = n := by omega
    simp only [colons, head, part, if_false, Bool.false_eq_true, tail, between]

theorem colons_sound {cs : List Char} {gs : List UInt16} (h : colons cs = some (gs, [])) :
    IsColons cs gs := by
  obtain ⟨front, rest, hs, flag, head, before, within, rfl⟩ := side_of_run 8 cs
  simp only [colons, head] at h
  split_ifs at h with full octets
  · obtain ⟨rfl, rfl⟩ := Prod.mk.inj (Option.some.inj h)
    rw [List.append_nil]
    refine .full (.of_side before ?_) full
    rintro rfl
    cases full
  · split at h
    next back =>
      obtain ⟨text, left, ts, flag', tail, behind, fits, rfl⟩ := side_of_run (7 - hs.length) back
      simp only [tail] at h
      obtain ⟨rfl, rfl⟩ := Prod.mk.inj (Option.some.inj h)
      rw [Bool.not_eq_true] at octets
      subst octets
      rw [List.append_nil]
      exact .gap before behind (by omega) (by omega)
    next => cases h

end Colons

theorem IsColons.dotted_eq_none {cs : List Char} {gs : List UInt16} (h : IsColons cs gs) :
    dotted cs = none := by
  cases h with
  | full groups eight =>
    have none : dotted (cs ++ []) = none := groups.dotted_eq_none (by omega) atColon_nil
    rwa [List.append_nil] at none
  | gap head tail zeros eight =>
    cases head with
    | none => exact dotted_colon _
    | some groups => exact groups.dotted_eq_none (by simp) (atColon_cons _)

theorem v6?_eq_some {cs : List Char} {a : IPv6} :
    v6? cs = some (a, []) ↔ IsColons cs a.groups := by
  constructor
  · intro read
    unfold v6? at read
    split at read
    · cases read
    next gs rest taken =>
      split_ifs at read
      obtain ⟨rfl, rfl⟩ := Prod.mk.inj (Option.some.inj read)
      exact colons_sound taken
  · intro groups
    simp only [v6?, colons_complete groups, a.eight, dif_pos]

/-- The reader of addresses takes the texts of the grammar, for the address that each denotes,
and no others. -/
theorem parse?_eq_some {s : String} {a : Address} : parse? s = some a ↔ Denotes s.toList a := by
  constructor
  · intro read
    unfold parse? at read
    split at read
    next q octets =>
      rw [← Option.some.inj read, dotted_sound octets, List.append_nil]
      exact .v4 q
    next => cases read
    next =>
      split at read
      next x groups =>
        rw [← Option.some.inj read]
        exact .v6 x (v6?_eq_some.mp groups)
      next => cases read
  · intro denotes
    unfold parse?
    generalize s.toList = cs at denotes ⊢
    cases denotes with
    | v4 q =>
      have read : dotted (dottedChars q ++ []) = some (q, []) := dotted_complete q (by simp)
      rw [List.append_nil] at read
      rw [read]
    | v6 x groups => simp only [groups.dotted_eq_none, v6?_eq_some.mpr groups]

theorem Denotes.unique {cs : List Char} {a b : Address} (h : Denotes cs a) (h' : Denotes cs b) :
    a = b := by
  rw [← String.toList_ofList (l := cs)] at h h'
  have read := parse?_eq_some.mpr h
  rw [parse?_eq_some.mpr h'] at read
  exact (Option.some.inj read).symm

end TcpEcho.Address
