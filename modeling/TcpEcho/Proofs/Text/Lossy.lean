import TcpEcho.Proofs.Text.Utf8
/- What lenient reading shows. Octets that are well formed are shown as their text, all others with
   the mark U+FFFD in it. So a text that comes in parts is shown as it is only if none of them ends
   inside a character, unless it has such marks itself. -/
namespace TcpEcho.Utf8

def IsWellFormed (bs : List UInt8) : Prop := ∃ s, bs = encode s

/-- The first so many octets of a text end between the octets of one of its characters. -/
def IsInside (cs : List Char) (n : Nat) : Prop :=
  ∃ before c after, cs = before ++ c :: after ∧
    (before.flatMap String.utf8EncodeChar).length < n ∧
    n < (before.flatMap String.utf8EncodeChar).length + c.utf8Size

theorem encode_append (s t : String) : encode (s ++ t) = encode s ++ encode t := by
  simp only [encode, String.toList_append, List.flatMap_append]

theorem encode_ofList (cs : List Char) :
    encode (String.ofList cs) = cs.flatMap String.utf8EncodeChar := by
  rw [encode, String.toList_ofList]

theorem lossy_append (s : String) (bs : List UInt8) :
    lossy (encode s ++ bs) = s ++ lossy bs := by
  unfold lossy encode
  rw [scan_append, List.map_append, List.map_map, String.ofList_append]
  have kept : s.toList.map ((fun c : Option Char => c.getD replacement) ∘ some) = s.toList :=
    List.map_id _
  rw [kept, String.ofList_toList]

/-- A character that breaks off gets one mark, however many of its octets are there. -/
example : lossy [97, 0xE2, 0x82, 98, 0xC3] = "a\uFFFDb\uFFFD" := by decide +kernel

theorem lossy_encode (s : String) : lossy (encode s) = s := by
  have shown := lossy_append s []
  rw [List.append_nil] at shown
  exact shown.trans String.append_empty

theorem encode_lossy_iff {bs : List UInt8} : encode (lossy bs) = bs ↔ IsWellFormed bs := by
  constructor
  · intro same
    exact ⟨lossy bs, same.symm⟩
  · rintro ⟨s, rfl⟩
    rw [lossy_encode]

theorem none_mem_of_sequence {cs : List (Option Char)} (h : sequence cs = none) : none ∈ cs := by
  induction cs with
  | nil => cases h
  | cons c cs ih =>
    cases c with
    | none => exact List.mem_cons_self
    | some c =>
      rw [sequence, Option.map_eq_none_iff] at h
      exact List.mem_cons_of_mem _ (ih h)

theorem replacement_mem_lossy {bs : List UInt8} (broken : ¬ IsWellFormed bs) :
    replacement ∈ (lossy bs).toList := by
  have fault : none ∈ scan none bs := by
    cases read : decode? bs with
    | none => exact none_mem_of_sequence (Option.map_eq_none_iff.mp read)
    | some s => exact absurd ⟨s, decode?_eq_some_iff.mp read⟩ broken
  rw [lossy, String.toList_ofList]
  exact List.mem_map.mpr ⟨none, fault, rfl⟩

theorem encode_eq_append {s u : String} {bs : List UInt8} (h : encode s = encode u ++ bs) :
    ∃ v, s = u ++ v ∧ bs = encode v := by
  have read : s.toList.map some = u.toList.map some ++ scan none bs := by
    rw [← scan_append, ← scan_encoded]
    exact congrArg (scan none) h
  obtain ⟨front, back, parts, first, rest⟩ := List.map_eq_append_iff.mp read
  have same : front = u.toList := (List.map_inj_right fun _ _ => Option.some.inj).mp first
  refine ⟨String.ofList back, ?_, ?_⟩
  · rw [← String.toList_inj, String.toList_append, String.toList_ofList, parts, same]
  · rw [encode_ofList]
    exact encoded_of_scan rest.symm

theorem not_isInside_append (u v : List Char) :
    ¬ IsInside (u ++ v) (u.flatMap String.utf8EncodeChar).length := by
  rintro ⟨before, c, after, parts, low, high⟩
  rcases List.append_eq_append_iff.mp parts with ⟨more, longer, -⟩ | ⟨more, longer, back⟩
  · rw [longer, List.flatMap_append, List.length_append] at low
    omega
  · subst longer
    cases more with
    | nil =>
      rw [List.append_nil] at low
      omega
    | cons d more =>
      rw [List.cons_append, List.cons.injEq] at back
      rw [back.1, List.flatMap_append, List.flatMap_cons, List.length_append, List.length_append,
        String.length_utf8EncodeChar] at high
      omega

theorem IsInside.cons {cs : List Char} {n : Nat} (c : Char) (h : IsInside cs n) :
    IsInside (c :: cs) (c.utf8Size + n) := by
  obtain ⟨before, d, after, rfl, low, high⟩ := h
  refine ⟨c :: before, d, after, rfl, ?_, ?_⟩
  · rw [List.flatMap_cons, List.length_append, String.length_utf8EncodeChar]
    omega
  · rw [List.flatMap_cons, List.length_append, String.length_utf8EncodeChar]
    omega

theorem exists_front {cs : List Char} {n : Nat} (outside : ¬ IsInside cs n)
    (le : n ≤ (cs.flatMap String.utf8EncodeChar).length) :
    ∃ u v, cs = u ++ v ∧ (u.flatMap String.utf8EncodeChar).length = n := by
  induction cs generalizing n with
  | nil => exact ⟨[], [], rfl, (Nat.le_zero.mp le).symm⟩
  | cons c cs ih =>
    rw [List.flatMap_cons, List.length_append, String.length_utf8EncodeChar] at le
    -- The place is in front of the first character, inside it, or behind it.
    by_cases start : n = 0
    · exact ⟨[], c :: cs, rfl, start.symm⟩
    by_cases within : n < c.utf8Size
    · exact absurd ⟨[], c, cs, rfl, Nat.pos_of_ne_zero start, by simpa using within⟩ outside
    have behind : ¬ IsInside cs (n - c.utf8Size) := by
      intro inside
      have shifted := inside.cons c
      rw [Nat.add_sub_cancel' (by omega)] at shifted
      exact outside shifted
    obtain ⟨u, v, rfl, length⟩ := ih behind (by omega)
    refine ⟨c :: u, v, rfl, ?_⟩
    rw [List.flatMap_cons, List.length_append, String.length_utf8EncodeChar, length]
    omega

theorem wellFormed_front_iff {bs rest : List UInt8} {s : String} (whole : bs ++ rest = encode s) :
    IsWellFormed bs ↔ ¬ IsInside s.toList bs.length := by
  constructor
  · rintro ⟨u, rfl⟩
    obtain ⟨v, rfl, -⟩ := encode_eq_append whole.symm
    rw [String.toList_append]
    exact not_isInside_append u.toList v.toList
  · intro outside
    have le : bs.length ≤ (encode s).length := by
      rw [← whole, List.length_append]
      exact Nat.le_add_right _ _
    obtain ⟨u, v, parts, length⟩ := exists_front outside le
    rw [encode, parts, List.flatMap_append] at whole
    obtain ⟨same, -⟩ := List.append_inj whole length.symm
    exact ⟨String.ofList u, by rw [encode_ofList, same]⟩

theorem encode_join_lossy {chunks : List (List UInt8)} (each : ∀ d ∈ chunks, IsWellFormed d) :
    encode (String.join (chunks.map lossy)) = chunks.flatten := by
  induction chunks with
  | nil => rfl
  | cons d ds ih =>
    have here := encode_lossy_iff.mpr (each d List.mem_cons_self)
    have behind := ih fun e member => each e (List.mem_cons_of_mem d member)
    rw [List.map_cons, String.join_cons, encode_append, here, behind, List.flatten_cons]

section Chunks

variable {chunks : List (List UInt8)} {s : String} (whole : chunks.flatten = encode s)
include whole

/-- Chunks of a text without marks of its own show it only if none of them gets a mark. -/
theorem join_lossy_eq_iff (unmarked : replacement ∉ s.toList) :
    String.join (chunks.map lossy) = s ↔ ∀ d ∈ chunks, IsWellFormed d := by
  constructor
  · intro shown d member
    by_cases well : IsWellFormed d
    · exact well
    have marked : replacement ∈ (String.join (chunks.map lossy)).toList := by
      rw [String.toList_join, List.mem_flatMap]
      exact ⟨lossy d, List.mem_map_of_mem member, replacement_mem_lossy well⟩
    rw [shown] at marked
    exact absurd marked unmarked
  · intro each
    have same := encode_join_lossy each
    rw [whole] at same
    exact encode_injective same

theorem each_wellFormed_iff : (∀ d ∈ chunks, IsWellFormed d) ↔
    ∀ before after, chunks = before ++ after → ¬ IsInside s.toList before.flatten.length := by
  have front : ∀ before after, chunks = before ++ after →
      (IsWellFormed before.flatten ↔ ¬ IsInside s.toList before.flatten.length) := by
    intro before after parts
    rw [parts, List.flatten_append] at whole
    exact wellFormed_front_iff whole
  constructor
  · intro each before after parts
    refine (front before after parts).mp ⟨_, (encode_join_lossy ?_).symm⟩
    intro d member
    exact each d (parts ▸ List.mem_append_left after member)
  · intro outside d member
    obtain ⟨before, after, parts⟩ := List.append_of_mem member
    -- The chunk lies between two places that are outside all characters.
    have upTo : chunks = (before ++ [d]) ++ after := by simpa using parts
    obtain ⟨u, first⟩ := (front before _ parts).mpr (outside before _ parts)
    obtain ⟨w, both⟩ := (front _ after upTo).mpr (outside _ after upTo)
    rw [List.flatten_append, List.flatten_singleton, first] at both
    obtain ⟨v, -, rest⟩ := encode_eq_append both.symm
    exact ⟨v, rest⟩

end Chunks

end TcpEcho.Utf8
