import TcpEcho.Text.Utf8
/- The octets that are well formed are those that some text is written as. -/
namespace TcpEcho.Utf8

theorem opening_one {a : UInt8} (h : a.toNat < 0x80) :
    opening a = .char (Char.ofNat a.toNat) := by
  simp [opening, UInt8.lt_iff_toNat_lt, h]

theorem opening_two {a : UInt8} (low : 0xC2 ≤ a.toNat) (high : a.toNat < 0xE0) :
    opening a = .lead ⟨0x80, 0xBF, 0, a.toNat % 32⟩ := by
  have past : ¬ a.toNat < 0x80 := by omega
  have least : ¬ a.toNat < 0xC2 := by omega
  simp [opening, UInt8.lt_iff_toNat_lt, past, least, high]

theorem opening_three {a : UInt8} (low : 0xE0 ≤ a.toNat) (high : a.toNat < 0xF0) :
    ∃ p : Partial, opening a = .lead p ∧ p.more = 1 ∧ p.bits = a.toNat % 16 ∧
      ∀ b, p.low ≤ b ∧ b ≤ p.high ↔ 0x80 ≤ b.toNat ∧ b.toNat < 0xC0 ∧
        0x20 ≤ a.toNat % 16 * 64 + b.toNat % 64 ∧
        (a.toNat % 16 * 64 + b.toNat % 64 < 0x360 ∨ 0x380 ≤ a.toNat % 16 * 64 + b.toNat % 64) := by
  have past : ¬ a.toNat < 0x80 := by omega
  have least : ¬ a.toNat < 0xC2 := by omega
  have two : ¬ a.toNat < 0xE0 := by omega
  unfold opening
  simp only [UInt8.lt_iff_toNat_lt, ← UInt8.toNat_inj, UInt8.le_iff_toNat_le, UInt8.reduceToNat,
    past, least, two, if_false]
  split
  · rename_i e
    exact ⟨_, rfl, rfl, by simp [e], fun b => by simp [e]; omega⟩
  · split
    · rename_i e
      exact ⟨_, rfl, rfl, by simp [e], fun b => by simp [e]; omega⟩
    · refine ⟨⟨0x80, 0xBF, 1, a.toNat % 16⟩, rfl, rfl, rfl, fun b => ?_⟩
      simp
      omega

theorem opening_four {a : UInt8} (low : 0xF0 ≤ a.toNat) (high : a.toNat < 0xF5) :
    ∃ p : Partial, opening a = .lead p ∧ p.more = 2 ∧ p.bits = a.toNat % 8 ∧
      ∀ b, p.low ≤ b ∧ b ≤ p.high ↔ 0x80 ≤ b.toNat ∧ b.toNat < 0xC0 ∧
        0x10 ≤ a.toNat % 8 * 64 + b.toNat % 64 ∧ a.toNat % 8 * 64 + b.toNat % 64 < 0x110 := by
  have past : ¬ a.toNat < 0x80 := by omega
  have least : ¬ a.toNat < 0xC2 := by omega
  have two : ¬ a.toNat < 0xE0 := by omega
  have three : ¬ a.toNat < 0xF0 := by omega
  have e0 : ¬ a.toNat = 0xE0 := by omega
  have ed : ¬ a.toNat = 0xED := by omega
  unfold opening
  simp only [UInt8.lt_iff_toNat_lt, ← UInt8.toNat_inj, UInt8.le_iff_toNat_le, UInt8.reduceToNat,
    past, least, two, three, e0, ed, if_false]
  split
  · rename_i e
    exact ⟨_, rfl, rfl, by simp [e], fun b => by simp [e]; omega⟩
  · split
    · refine ⟨⟨0x80, 0xBF, 2, a.toNat % 8⟩, rfl, rfl, rfl, fun b => ?_⟩
      simp
      omega
    · rename_i below
      have e : a.toNat = 0xF4 := by omega
      exact ⟨⟨0x80, 0x8F, 2, 4⟩, by simp [e], rfl, by simp [e], fun b => by simp [e]; omega⟩

theorem opening_stray {a : UInt8} (h : 0x80 ≤ a.toNat ∧ a.toNat < 0xC2 ∨ 0xF5 ≤ a.toNat) :
    opening a = .stray := by
  unfold opening
  simp only [UInt8.lt_iff_toNat_lt, ← UInt8.toNat_inj, UInt8.reduceToNat]
  rcases h with ⟨past, least⟩ | beyond
  · rw [if_neg (by omega), if_pos least]
  · repeat rw [if_neg (by omega)]

theorem code_ofNat {n : Nat} (valid : n < 0xD800 ∨ 0xE000 ≤ n ∧ n < 0x110000) :
    (Char.ofNat n).val.toNat = n := by
  have valid : n.isValidChar := valid
  rw [Char.ofNat, dif_pos valid]
  rfl

theorem encode_one {a : UInt8} (h : a.toNat < 0x80) :
    String.utf8EncodeChar (Char.ofNat a.toNat) = [a] := by
  have least : a.toNat ≤ 0x7F := by omega
  simp [String.utf8EncodeChar, code_ofNat (n := a.toNat) (by omega), least]

theorem encode_two {a b : UInt8} (low : 0xC2 ≤ a.toNat) (high : a.toNat < 0xE0)
    (tail : 0x80 ≤ b.toNat ∧ b.toNat < 0xC0) :
    String.utf8EncodeChar (Char.ofNat (a.toNat % 32 * 64 + b.toNat % 64)) = [a, b] := by
  unfold String.utf8EncodeChar
  rw [code_ofNat (by omega)]
  simp only [show ¬ a.toNat % 32 * 64 + b.toNat % 64 ≤ 0x7F by omega,
    show a.toNat % 32 * 64 + b.toNat % 64 ≤ 0x7FF by omega, if_true, if_false, List.cons.injEq,
    and_true, ← UInt8.toNat_inj, UInt8.toNat_ofNat']
  omega

theorem encode_three {a b c : UInt8} (low : 0xE0 ≤ a.toNat) (high : a.toNat < 0xF0)
    (second : 0x80 ≤ b.toNat ∧ b.toNat < 0xC0) (tail : 0x80 ≤ c.toNat ∧ c.toNat < 0xC0)
    (longer : 0x20 ≤ a.toNat % 16 * 64 + b.toNat % 64)
    (plain : a.toNat % 16 * 64 + b.toNat % 64 < 0x360 ∨ 0x380 ≤ a.toNat % 16 * 64 + b.toNat % 64) :
    String.utf8EncodeChar
      (Char.ofNat ((a.toNat % 16 * 64 + b.toNat % 64) * 64 + c.toNat % 64)) = [a, b, c] := by
  unfold String.utf8EncodeChar
  rw [code_ofNat (by omega)]
  simp only [show ¬ (a.toNat % 16 * 64 + b.toNat % 64) * 64 + c.toNat % 64 ≤ 0x7F by omega,
    show ¬ (a.toNat % 16 * 64 + b.toNat % 64) * 64 + c.toNat % 64 ≤ 0x7FF by omega,
    show (a.toNat % 16 * 64 + b.toNat % 64) * 64 + c.toNat % 64 ≤ 0xFFFF by omega,
    if_true, if_false, List.cons.injEq, and_true, ← UInt8.toNat_inj, UInt8.toNat_ofNat']
  omega

theorem encode_four {a b c d : UInt8} (low : 0xF0 ≤ a.toNat) (high : a.toNat < 0xF5)
    (second : 0x80 ≤ b.toNat ∧ b.toNat < 0xC0) (third : 0x80 ≤ c.toNat ∧ c.toNat < 0xC0)
    (tail : 0x80 ≤ d.toNat ∧ d.toNat < 0xC0)
    (longer : 0x10 ≤ a.toNat % 8 * 64 + b.toNat % 64)
    (last : a.toNat % 8 * 64 + b.toNat % 64 < 0x110) :
    String.utf8EncodeChar (Char.ofNat
      (((a.toNat % 8 * 64 + b.toNat % 64) * 64 + c.toNat % 64) * 64 + d.toNat % 64)) =
      [a, b, c, d] := by
  unfold String.utf8EncodeChar
  rw [code_ofNat (by omega)]
  generalize value : ((a.toNat % 8 * 64 + b.toNat % 64) * 64 + c.toNat % 64) * 64 +
    d.toNat % 64 = n
  simp only [show ¬ n ≤ 0x7F by omega, show ¬ n ≤ 0x7FF by omega, show ¬ n ≤ 0xFFFF by omega,
    if_false, List.cons.injEq, and_true, ← UInt8.toNat_inj, UInt8.toNat_ofNat']
  omega

theorem scan_lead {a : UInt8} {p : Partial} (lead : opening a = .lead p) (bs : List UInt8) :
    scan none (a :: bs) = scan (some p) bs := by
  rw [scan, lead]

theorem scan_last {p : Partial} (last : p.more = 0) {b : UInt8}
    (within : p.low ≤ b ∧ b ≤ p.high) (bs : List UInt8) :
    scan (some p) (b :: bs) = some (Char.ofNat (p.bits * 64 + b.toNat % 64)) :: scan none bs := by
  rw [scan, if_pos within]
  simp only [last]

theorem scan_tail {p : Partial} {more : Nat} (tail : p.more = more + 1) {b : UInt8}
    (within : p.low ≤ b ∧ b ≤ p.high) (bs : List UInt8) :
    scan (some p) (b :: bs) =
      scan (some ⟨0x80, 0xBF, more, p.bits * 64 + b.toNat % 64⟩) bs := by
  rw [scan, if_pos within]
  simp only [tail]

theorem inside_of_scan {p : Partial} {bs : List UInt8} {c : Char} {cs : List (Option Char)}
    (h : scan (some p) bs = some c :: cs) :
    ∃ b rest, bs = b :: rest ∧ p.low ≤ b ∧ b ≤ p.high := by
  cases bs with
  | nil => simp [scan] at h
  | cons b rest =>
    rw [scan] at h
    split at h
    · rename_i within
      exact ⟨b, rest, rfl, within⟩
    · cases h

theorem tail_iff (b : UInt8) : (0x80 : UInt8) ≤ b ∧ b ≤ 0xBF ↔ 0x80 ≤ b.toNat ∧ b.toNat < 0xC0 := by
  simp only [UInt8.le_iff_toNat_le, UInt8.reduceToNat]
  omega

theorem scan_eq_cons {bs : List UInt8} {c : Char} {cs : List (Option Char)}
    (h : scan none bs = some c :: cs) :
    ∃ rest, bs = String.utf8EncodeChar c ++ rest ∧ cs = scan none rest := by
  cases bs with
  | nil => cases h
  | cons a bs =>
    -- The first octet tells the length of the sequence, and how the second is bounded.
    by_cases one : a.toNat < 0x80
    · rw [scan, opening_one one] at h
      cases h
      exact ⟨bs, by rw [encode_one one]; rfl, rfl⟩
    by_cases stray : a.toNat < 0xC2 ∨ 0xF5 ≤ a.toNat
    · rw [scan, opening_stray (by omega)] at h
      cases h
    by_cases two : a.toNat < 0xE0
    · rw [scan_lead (opening_two (by omega) two)] at h
      obtain ⟨b, rest, rfl, within⟩ := inside_of_scan h
      rw [scan_last rfl within] at h
      cases h
      exact ⟨rest, by rw [encode_two (by omega) two ((tail_iff b).mp within)]; rfl, rfl⟩
    by_cases three : a.toNat < 0xF0
    · obtain ⟨p, lead, more, bits, bounds⟩ := opening_three (by omega) three
      rw [scan_lead lead] at h
      obtain ⟨b, rest, rfl, second⟩ := inside_of_scan h
      rw [scan_tail more second, bits] at h
      obtain ⟨d, rest, rfl, last⟩ := inside_of_scan h
      rw [scan_last rfl last] at h
      cases h
      obtain ⟨low, high, longer, plain⟩ := (bounds b).mp second
      refine ⟨rest, ?_, rfl⟩
      rw [encode_three (by omega) three ⟨low, high⟩ ((tail_iff d).mp last) longer plain]
      rfl
    · obtain ⟨p, lead, more, bits, bounds⟩ := opening_four (a := a) (by omega) (by omega)
      rw [scan_lead lead] at h
      obtain ⟨b, rest, rfl, second⟩ := inside_of_scan h
      rw [scan_tail more second, bits] at h
      obtain ⟨d, rest, rfl, third⟩ := inside_of_scan h
      rw [scan_tail rfl third] at h
      obtain ⟨e, rest, rfl, last⟩ := inside_of_scan h
      rw [scan_last rfl last] at h
      cases h
      obtain ⟨low, high, longer, bound⟩ := (bounds b).mp second
      refine ⟨rest, ?_, rfl⟩
      rw [encode_four (by omega) (by omega) ⟨low, high⟩ ((tail_iff d).mp third)
        ((tail_iff e).mp last) longer bound]
      rfl

theorem toNat_octet {n : Nat} (h : n < 0x100) : (UInt8.ofNat n).toNat = n := by
  simp only [UInt8.toNat_ofNat']
  omega

theorem scan_encode (c : Char) (bs : List UInt8) :
    scan none (String.utf8EncodeChar c ++ bs) = some c :: scan none bs := by
  have valid : c.val.toNat < 0xD800 ∨ 0xDFFF < c.val.toNat ∧ c.val.toNat < 0x110000 := c.valid
  have back : Char.ofNat c.val.toNat = c := Char.ofNat_toNat c
  generalize code : c.val.toNat = n at valid back
  unfold String.utf8EncodeChar
  simp only [code]
  split
  · rename_i one
    have a := toNat_octet (n := n) (by omega)
    rw [List.singleton_append, scan, opening_one (by omega), a, back]
  split
  · have a := toNat_octet (n := n / 64 % 32 + 192) (by omega)
    have b := toNat_octet (n := n % 64 + 128) (by omega)
    rw [List.cons_append, scan_lead (opening_two (by omega) (by omega)), List.singleton_append,
      scan_last rfl ((tail_iff _).mpr (by omega)), a, b,
      show (n / 64 % 32 + 192) % 32 * 64 + (n % 64 + 128) % 64 = n by omega, back]
  split
  · have a := toNat_octet (n := n / 4096 % 16 + 224) (by omega)
    have b := toNat_octet (n := n / 64 % 64 + 128) (by omega)
    have d := toNat_octet (n := n % 64 + 128) (by omega)
    obtain ⟨p, lead, more, bits, bounds⟩ :=
      opening_three (a := UInt8.ofNat (n / 4096 % 16 + 224)) (by omega) (by omega)
    rw [List.cons_append, scan_lead lead, List.cons_append,
      scan_tail more ((bounds _).mpr (by omega)), List.singleton_append,
      scan_last rfl ((tail_iff _).mpr (by omega)), bits, a, b, d,
      show ((n / 4096 % 16 + 224) % 16 * 64 + (n / 64 % 64 + 128) % 64) * 64 +
        (n % 64 + 128) % 64 = n by omega, back]
  · have a := toNat_octet (n := n / 262144 % 8 + 240) (by omega)
    have b := toNat_octet (n := n / 4096 % 64 + 128) (by omega)
    have d := toNat_octet (n := n / 64 % 64 + 128) (by omega)
    have e := toNat_octet (n := n % 64 + 128) (by omega)
    obtain ⟨p, lead, more, bits, bounds⟩ :=
      opening_four (a := UInt8.ofNat (n / 262144 % 8 + 240)) (by omega) (by omega)
    rw [List.cons_append, scan_lead lead, List.cons_append,
      scan_tail more ((bounds _).mpr (by omega)), List.cons_append,
      scan_tail rfl ((tail_iff _).mpr (by omega)), List.singleton_append,
      scan_last rfl ((tail_iff _).mpr (by omega)), bits, a, b, d, e,
      show (((n / 262144 % 8 + 240) % 8 * 64 + (n / 4096 % 64 + 128) % 64) * 64 +
        (n / 64 % 64 + 128) % 64) * 64 + (n % 64 + 128) % 64 = n by omega, back]

theorem scan_append (cs : List Char) (bs : List UInt8) :
    scan none (cs.flatMap String.utf8EncodeChar ++ bs) = cs.map some ++ scan none bs := by
  induction cs with
  | nil => rfl
  | cons c cs ih =>
    rw [List.flatMap_cons, List.append_assoc, scan_encode, ih, List.map_cons, List.cons_append]

theorem scan_encoded (cs : List Char) :
    scan none (cs.flatMap String.utf8EncodeChar) = cs.map some := by
  have read := scan_append cs []
  rw [List.append_nil, scan, List.append_nil] at read
  exact read

theorem sequence_eq_some {cs : List (Option Char)} {ds : List Char} :
    sequence cs = some ds ↔ cs = ds.map some := by
  induction cs generalizing ds with
  | nil => cases ds <;> simp [sequence]
  | cons c cs ih =>
    cases c with
    | none => cases ds <;> simp [sequence]
    | some c =>
      cases ds with
      | nil => simp [sequence]
      | cons d ds =>
        simp only [sequence, Option.map_eq_some_iff, List.cons.injEq, List.map_cons,
          Option.some.injEq]
        constructor
        · rintro ⟨ds, read, rfl, rfl⟩
          exact ⟨rfl, ih.mp read⟩
        · rintro ⟨rfl, rest⟩
          exact ⟨ds, ih.mpr rest, rfl, rfl⟩

theorem scan_partial_ne_nil (p : Partial) (bs : List UInt8) : scan (some p) bs ≠ [] := by
  induction bs generalizing p with
  | nil => simp [scan]
  | cons b bs ih =>
    by_cases within : p.low ≤ b ∧ b ≤ p.high
    · cases left : p.more with
      | zero =>
        rw [scan_last left within]
        exact List.cons_ne_nil _ _
      | succ more =>
        rw [scan_tail left within]
        exact ih _
    · rw [scan, if_neg within]
      exact List.cons_ne_nil _ _

theorem scan_eq_nil {bs : List UInt8} (h : scan none bs = []) : bs = [] := by
  cases bs with
  | nil => rfl
  | cons a bs =>
    rw [scan] at h
    split at h
    · cases h
    · exact absurd h (scan_partial_ne_nil _ bs)
    · cases h

theorem encoded_of_scan {bs : List UInt8} {cs : List Char} (h : scan none bs = cs.map some) :
    bs = cs.flatMap String.utf8EncodeChar := by
  induction cs generalizing bs with
  | nil => exact scan_eq_nil h
  | cons c cs ih =>
    obtain ⟨rest, rfl, tail⟩ := scan_eq_cons h
    rw [ih tail.symm, List.flatMap_cons]

/-- A text is read from the octets that it is written as and from no others. -/
theorem decode?_eq_some_iff {bs : List UInt8} {s : String} :
    decode? bs = some s ↔ bs = encode s := by
  unfold decode? encode
  rw [Option.map_eq_some_iff]
  constructor
  · rintro ⟨cs, read, rfl⟩
    rw [String.toList_ofList]
    exact encoded_of_scan (sequence_eq_some.mp read)
  · rintro rfl
    exact ⟨s.toList, sequence_eq_some.mpr (scan_encoded s.toList), String.ofList_toList⟩

theorem decode?_encode (s : String) : decode? (encode s) = some s :=
  decode?_eq_some_iff.mpr rfl

theorem encode_injective {s t : String} (same : encode s = encode t) : s = t := by
  have read := decode?_encode s
  rw [same, decode?_encode t] at read
  exact (Option.some.inj read).symm

end TcpEcho.Utf8
