import TcpEcho.Proofs.Toml.Spelling
import TcpEcho.Proofs.Toml.Tables
/- Documents as they are written: each section is read back as a table of its own that holds
   its entries, in the order in which they stand. -/
namespace TcpEcho.Toml

structure IsBare (k : String) : Prop where
  nonempty : k.toList ≠ []
  each : ∀ c ∈ k.toList, isBareKeyChar c = true

instance (k : String) : Decidable (IsBare k) :=
  decidable_of_iff (k.toList ≠ [] ∧ k.toList.all isBareKeyChar = true)
    ⟨fun h => ⟨h.1, List.all_eq_true.mp h.2⟩, fun h => ⟨h.nonempty, List.all_eq_true.mpr h.each⟩⟩

theorem IsBare.head {k : String} (h : IsBare k) :
    ∃ c cs, k.toList = c :: cs ∧ isBareKeyChar c = true := by
  obtain ⟨c, cs, same⟩ := List.exists_cons_of_ne_nil h.nonempty
  exact ⟨c, cs, same, h.each c (by simp [same])⟩

theorem ne_of_isBareKeyChar {c d : Char} (bare : isBareKeyChar c = true)
    (other : isBareKeyChar d = false) : c ≠ d := by
  rintro rfl
  rw [bare] at other
  cases other

theorem IsBare.skipBlanks {k : String} (h : IsBare k) (rest : List Char) :
    skipBlanks (k.toList ++ rest) = k.toList ++ rest := by
  obtain ⟨c, cs, same, bare⟩ := h.head
  rw [same, List.cons_append]
  apply skipBlanks_cons
  have space := ne_of_isBareKeyChar bare (by decide : isBareKeyChar ' ' = false)
  have tab := ne_of_isBareKeyChar bare (by decide : isBareKeyChar '\t' = false)
  simp [isBlank, space, tab]

theorem IsBare.keyPart {k : String} (h : IsBare k) {c : Char} (stop : isBareKeyChar c = false)
    (rest : List Char) : keyPart (k.toList ++ c :: rest) = some (k.toList, c :: rest) := by
  have split := span_append h.each stop rest
  obtain ⟨d, ds, same, bare⟩ := h.head
  rw [same] at split ⊢
  rw [List.cons_append] at split ⊢
  rw [Toml.keyPart]
  · rw [split]
  · intro cs start
    exact ne_of_isBareKeyChar bare (by decide : isBareKeyChar '"' = false) (List.cons.inj start).1
  · intro cs start
    exact ne_of_isBareKeyChar bare (by decide : isBareKeyChar '\'' = false) (List.cons.inj start).1

def Key.ofName (k : String) : Key := ⟨[], k⟩

theorem IsBare.key {k : String} (h : IsBare k) {c d : Char} (rest : List Char)
    {more : List Char} (stop : isBareKeyChar c = false) (next : Toml.skipBlanks (c :: rest) = d :: more)
    (last : d ≠ '.') :
    key (k.toList ++ c :: rest) = some (Key.ofName k, d :: more) := by
  have parts : keyParts (k.toList ++ c :: rest) = some ([k], d :: more) := by
    rw [keyParts, h.skipBlanks, h.keyPart stop]
    simp only [next]
    split
    · rename_i same
      exact absurd (List.cons.inj same).1 last
    · rw [String.ofList_toList]
  have single : Key.ofParts? [k] = some (Key.ofName k) := by
    simp [Key.ofParts?, depthLimit, Key.ofName]
  rw [Toml.key, parts]
  simp only [single, Option.map_some]

/-- An entry says that a key has a value. -/
structure Enters (e : Entry) (d : String × Value) : Prop where
  key : e.1 = d.1
  bare : IsBare e.1
  spells : Spells e.2 d.2

theorem Entry.line_append (e : Entry) (rest : List Char) :
    e.line ++ rest = e.1.toList ++ ' ' :: '=' :: ' ' :: (e.2 ++ '\n' :: rest) := by
  simp [Entry.line]

theorem Enters.keyValue {e : Entry} {d : String × Value} (h : Enters e d) (rest : List Char) :
    keyValue (value (depthLimit - 1)) (e.line ++ rest) =
      some ((Key.ofName d.1, d.2), '\n' :: rest) := by
  have key := h.bare.key (c := ' ') ('=' :: ' ' :: (e.2 ++ '\n' :: rest)) (by decide)
    rfl (by decide)
  have starts : skipBlanks (' ' :: (e.2 ++ '\n' :: rest)) = e.2 ++ '\n' :: rest :=
    h.spells.starts _
  rw [Toml.keyValue, e.line_append, key]
  simp only [starts, h.spells.reads, Option.map_some, h.key]

theorem lineEnd_newline (rest : List Char) : lineEnd ('\n' :: rest) = some rest := rfl

theorem Enters.statement {e : Entry} {d : String × Value} (h : Enters e d) (rest : List Char) :
    statement (e.line ++ rest) = some (some (.assignment (Key.ofName d.1) d.2), rest) := by
  have entry := h.keyValue rest
  have starts := h.bare.skipBlanks (' ' :: '=' :: ' ' :: (e.2 ++ '\n' :: rest))
  rw [← e.line_append] at starts
  obtain ⟨c, cs, same, bare⟩ := h.bare.head
  have line : ∀ b : Char, isBareKeyChar b = false → ∀ more, e.line ++ rest ≠ b :: more := by
    intro b other more start
    rw [e.line_append, same] at start
    exact ne_of_isBareKeyChar bare other (List.cons.inj start).1
  rw [Toml.statement, starts]
  split
  · rename_i start
    rw [e.line_append, same] at start
    cases start
  · exact absurd ‹_› (line '\n' (by decide) _)
  · exact absurd ‹_› (line '#' (by decide) _)
  · exact absurd ‹_› (line '[' (by decide) _)
  · exact absurd ‹_› (line '[' (by decide) _)
  · rw [entry]
    simp only [lineEnd_newline, Option.map_some]

theorem IsBare.statement {k : String} (h : IsBare k) (rest : List Char) :
    statement ('[' :: (k.toList ++ ']' :: '\n' :: rest)) =
      some (some (.header (Key.ofName k)), rest) := by
  have key := h.key (c := ']') ('\n' :: rest) (by decide) rfl (by decide)
  have starts := skipBlanks_cons (by decide : isBlank '[' = false) (k.toList ++ ']' :: '\n' :: rest)
  obtain ⟨c, cs, same, bare⟩ := h.head
  rw [Toml.statement, starts]
  split
  · exact absurd ‹_› (List.cons_ne_nil _ _)
  · exact absurd (List.cons.inj ‹_›).1 (by decide)
  · exact absurd (List.cons.inj ‹_›).1 (by decide)
  · rename_i start
    rw [same] at start
    exact absurd (List.cons.inj (List.cons.inj start).2).1
      (ne_of_isBareKeyChar bare (by decide : isBareKeyChar '[' = false))
  · rename_i start
    rw [← (List.cons.inj start).2, key]
    simp only [lineEnd_newline, Option.map_some]
  · rename_i other
    exact absurd rfl (other _)

theorem statements_of_statement {cs rest : List Char} {s : Statement}
    (first : statement cs = some (some s, rest)) (shorter : rest.length < cs.length) :
    statements cs = (statements rest).map (s :: ·) := by
  have none_left : statements [] = some [] := by rw [statements]; rfl
  rw [statements, first]
  cases rest with
  | nil => rw [none_left]; rfl
  | cons c rest => simp only [if_pos shorter]; rfl

def assignments (es : Entries) : List Statement :=
  es.map fun e => .assignment (Key.ofName e.1) e.2

def statementsOf (t : String × Entries) : List Statement :=
  .header (Key.ofName t.1) :: assignments t.2

theorem statements_entries {es : List Entry} {ds : Entries} (h : List.Forall₂ Enters es ds)
    (rest : List Char) :
    statements (es.flatMap Entry.line ++ rest) = (statements rest).map (assignments ds ++ ·) := by
  induction h with
  | nil => simp [assignments]
  | @cons e d es ds first _ ih =>
    rw [List.flatMap_cons, List.append_assoc,
      statements_of_statement (first.statement _) (by simp [Entry.line]; omega), ih,
      Option.map_map]
    rfl

structure Tells (s : Section) (t : String × Entries) : Prop where
  name : s.1 = t.1
  bare : IsBare s.1
  entries : List.Forall₂ Enters s.2 t.2

theorem Section.lines_append (s : Section) (rest : List Char) :
    s.lines ++ rest = '[' :: (s.1.toList ++ ']' :: '\n' :: (s.2.flatMap Entry.line ++ rest)) := by
  simp [Section.lines]

theorem statements_section {s : Section} {t : String × Entries} (h : Tells s t)
    (rest : List Char) :
    statements (s.lines ++ rest) = (statements rest).map (statementsOf t ++ ·) := by
  rw [s.lines_append, statements_of_statement (h.bare.statement _) (by simp; omega),
    statements_entries h.entries, Option.map_map, h.name]
  rfl

theorem statements_sections {ss : List Section} {ts : List (String × Entries)}
    (h : List.Forall₂ Tells ss ts) :
    statements (ss.flatMap Section.lines) = some (ts.flatMap statementsOf) := by
  induction h with
  | nil => rw [List.flatMap_nil, statements]; rfl
  | @cons s t ss ts first _ ih =>
    rw [List.flatMap_cons, statements_section first, ih]
    rfl

namespace Entries

theorem get?_append_self {k : String} {es : Entries} (absent : k ∉ es.map Prod.fst) (v : Value) :
    get? k (es ++ [(k, v)]) = some v := by
  rw [get?, List.lookup_append, show List.lookup k es = none from get?_eq_none.mpr absent]
  simp

theorem replace_append_self {k : String} {es : Entries} (absent : k ∉ es.map Prod.fst)
    (v w : Value) : replace k w (es ++ [(k, v)]) = es ++ [(k, w)] := by
  have kept : es.map (fun e => if e.1 = k then (k, w) else e) = es := by
    refine (List.map_congr_left fun e member => ?_).trans es.map_id
    have other : e.1 ≠ k := fun same => absent (same ▸ List.mem_map_of_mem member)
    rw [if_neg other, id]
  rw [replace, List.map_append, kept]
  simp

end Entries

theorem add_header {d : Draft} {k : String} (absent : k ∉ d.root.map Prod.fst) :
    d.add (.header (Key.ofName k)) = some ⟨d.root ++ [(k, .table .header [])], [k]⟩ := by
  simp [Draft.add, Key.ofName, Key.parts, openSection, Entries.get?_eq_none.mpr absent]

theorem add_assignment {front es : Entries} {h k : String} (open_last : h ∉ front.map Prod.fst)
    (absent : k ∉ es.map Prod.fst) (v : Value) :
    Draft.add ⟨front ++ [(h, .table .header es)], [h]⟩ (.assignment (Key.ofName k) v) =
      some ⟨front ++ [(h, .table .header (es ++ [(k, v)]))], [h]⟩ := by
  simp [Draft.add, Key.ofName, inSection, assign, Entries.insert?,
    Entries.get?_append_self open_last, Entries.get?_eq_none.mpr absent,
    Entries.replace_append_self open_last]

theorem draft_assignments {front : Entries} {h : String} (open_last : h ∉ front.map Prod.fst)
    (ds es : Entries) (distinct : ((es ++ ds).map Prod.fst).Nodup) :
    (assignments ds).foldlM Draft.add ⟨front ++ [(h, .table .header es)], [h]⟩ =
      some ⟨front ++ [(h, .table .header (es ++ ds))], [h]⟩ := by
  induction ds generalizing es with
  | nil => simp [assignments]
  | cons d ds ih =>
    have once : d.1 ∉ es.map Prod.fst := by
      rw [List.map_append, List.nodup_append] at distinct
      intro member
      exact distinct.2.2 d.1 member d.1 (by simp) rfl
    have next := ih (es ++ [d]) (by simpa using distinct)
    rw [List.append_assoc, List.singleton_append] at next
    rw [assignments, List.map_cons, List.foldlM_cons, add_assignment open_last once]
    exact next

def asTable (t : String × Entries) : String × Value := (t.1, .table .header t.2)

theorem draft_sections (ts : List (String × Entries)) (d : Draft)
    (distinct : ((d.root ++ ts.map asTable).map Prod.fst).Nodup)
    (each : ∀ t ∈ ts, (t.2.map Prod.fst).Nodup) :
    ((ts.flatMap statementsOf).foldlM Draft.add d).map Draft.root =
      some (d.root ++ ts.map asTable) := by
  -- A draft also holds the header that is open, which differs from section to section: only the
  -- roots can be compared.
  induction ts generalizing d with
  | nil => simp
  | cons t ts ih =>
    have absent : t.1 ∉ d.root.map Prod.fst := by
      rw [List.map_append, List.nodup_append] at distinct
      intro member
      exact distinct.2.2 t.1 member t.1 (by simp [asTable]) rfl
    have own := draft_assignments absent t.2 [] (each t List.mem_cons_self)
    have next := ih ⟨d.root ++ [asTable t], [t.1]⟩ (by simpa using distinct)
      fun u among => each u (List.mem_cons_of_mem t among)
    rw [List.nil_append] at own
    rw [List.append_assoc, List.singleton_append] at next
    rw [List.flatMap_cons, List.foldlM_append, statementsOf, List.foldlM_cons, add_header absent,
      Option.bind_eq_bind, Option.bind_some, own]
    exact next

theorem unixLines_self {cs : List Char} (h : '\r' ∉ cs) : unixLines cs = cs := by
  fun_induction unixLines cs with
  | case1 cs => exact absurd List.mem_cons_self h
  | case2 c cs _ ih => rw [ih fun member => h (List.mem_cons_of_mem c member)]
  | case3 => rfl

theorem ne_return_of_bare {k : String} (h : IsBare k) : '\r' ∉ k.toList := by
  intro member
  exact absurd (h.each _ member) (by decide)

theorem Enters.ne_return {e : Entry} {d : String × Value} (h : Enters e d) : '\r' ∉ e.line := by
  intro member
  simp only [Entry.line, List.mem_append, List.mem_cons, List.not_mem_nil, or_false] at member
  rcases member with ((key | blank) | text) | last
  · exact ne_return_of_bare h.bare key
  · exact absurd blank (by decide)
  · exact h.spells.visible _ text rfl
  · exact absurd last (by decide)

theorem Tells.ne_return {s : Section} {t : String × Entries} (h : Tells s t) :
    '\r' ∉ s.lines := by
  have entries : ∀ e ∈ s.2, '\r' ∉ e.line :=
    ((List.forall₂_and_left _ _).mp (h.entries.imp fun _ _ enters => ⟨enters.ne_return, enters⟩)).1
  intro member
  simp only [Section.lines, List.mem_append, List.mem_cons, List.not_mem_nil, or_false,
    List.mem_flatMap] at member
  rcases member with ((first | name) | last) | ⟨e, among, line⟩
  · exact absurd first (by decide)
  · exact ne_return_of_bare h.bare name
  · exact absurd last (by decide)
  · exact entries e among line

/-- Written sections are read back as tables, if no name and no key stands twice. -/
theorem parse?_written {ss : List Section} {ts : List (String × Entries)}
    (told : List.Forall₂ Tells ss ts) (names : (ts.map Prod.fst).Nodup)
    (keys : ∀ t ∈ ts, (t.2.map Prod.fst).Nodup) :
    parse? (written ss) = some (ts.map asTable) := by
  have sections : ∀ s ∈ ss, '\r' ∉ s.lines :=
    ((List.forall₂_and_left _ _).mp (told.imp fun _ _ tells => ⟨tells.ne_return, tells⟩)).1
  have lines : unixLines (ss.flatMap Section.lines) = ss.flatMap Section.lines := by
    apply unixLines_self
    intro member
    obtain ⟨s, among, line⟩ := List.mem_flatMap.mp member
    exact sections s among line
  have unmarked : dropMark (ss.flatMap Section.lines) = ss.flatMap Section.lines := by
    cases ss with
    | nil => rfl
    | cons s ss =>
      rw [List.flatMap_cons, s.lines_append, dropMark, if_neg (by decide)]
  have built := draft_sections ts ⟨[], []⟩ (by simpa [asTable, Function.comp_def] using names) keys
  rw [List.nil_append] at built
  rw [parse?, written, String.toList_ofList, unmarked, lines, statements_sections told]
  exact built

end TcpEcho.Toml
