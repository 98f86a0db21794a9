import Mathlib.Data.List.Nodup
import TcpEcho.Toml.Document
/- However the statements of a document come together, no table that they build has a key
   twice. -/
namespace TcpEcho.Toml

/-- No table in the value has a key twice. -/
inductive Value.Keyed : Value → Prop where
  | text (s : String) : Keyed (.text s)
  | integer (n : Int) : Keyed (.integer n)
  | float (x : Binary64) : Keyed (.float x)
  | boolean (b : Bool) : Keyed (.boolean b)
  | moment (written : String) : Keyed (.moment written)
  | array {form : ArrayForm} {items : List Value} (each : ∀ v ∈ items, Keyed v) :
      Keyed (.array form items)
  | table {form : TableForm} {es : List (String × Value)} (distinct : (es.map Prod.fst).Nodup)
      (each : ∀ e ∈ es, Keyed e.2) : Keyed (.table form es)

namespace Entries

structure Keyed (es : Entries) : Prop where
  distinct : (es.map Prod.fst).Nodup
  each : ∀ e ∈ es, e.2.Keyed

theorem keyed_nil : Keyed [] := ⟨List.nodup_nil, by simp⟩

theorem mem_of_get? {k : String} {es : Entries} {v : Value} (h : es.get? k = some v) :
    (k, v) ∈ es := by
  obtain ⟨front, back, rfl, -⟩ := List.lookup_eq_some_iff.mp h
  simp

theorem get?_eq_none {k : String} {es : Entries} : es.get? k = none ↔ k ∉ es.map Prod.fst := by
  rw [get?, List.lookup_eq_none_iff, List.mem_map]
  constructor
  · rintro absent ⟨e, member, rfl⟩
    simpa using absent e member
  · intro absent e member
    exact bne_iff_ne.mpr fun same => absent ⟨e, member, same.symm⟩

theorem get?_cons_self {e : String × Value} {k : String} (same : e.1 = k) (es : Entries) :
    get? k (e :: es) = some e.2 := by
  obtain ⟨j, v⟩ := e
  cases same
  simp [get?]

theorem get?_cons_of_ne {e : String × Value} {k : String} (other : e.1 ≠ k) (es : Entries) :
    get? k (e :: es) = get? k es := by
  obtain ⟨j, v⟩ := e
  have differ : (k == j) = false := beq_eq_false_iff_ne.mpr (Ne.symm other)
  simp only [get?, List.lookup_cons, differ]

theorem get?_eq_some {es : Entries} (distinct : (es.map Prod.fst).Nodup) {k : String}
    {v : Value} : es.get? k = some v ↔ (k, v) ∈ es := by
  refine ⟨mem_of_get?, fun member => ?_⟩
  induction es with
  | nil => cases member
  | cons e es ih =>
    rw [List.map_cons, List.nodup_cons] at distinct
    rcases List.mem_cons.mp member with rfl | later
    · exact get?_cons_self (e := (k, v)) rfl es
    · have other : e.1 ≠ k := by
        intro same
        exact distinct.1 (List.mem_map.mpr ⟨(k, v), later, same.symm⟩)
      rw [get?_cons_of_ne other]
      exact ih distinct.2 later

theorem Keyed.head_notMem {e : String × Value} {es : Entries} (h : Keyed (e :: es)) :
    e.1 ∉ es.map Prod.fst :=
  (List.nodup_cons.mp h.distinct).1

theorem Keyed.tail {e : String × Value} {es : Entries} (h : Keyed (e :: es)) : es.Keyed :=
  ⟨(List.nodup_cons.mp h.distinct).2, fun d among => h.each d (List.mem_cons_of_mem e among)⟩

theorem Keyed.value {es : Entries} (h : es.Keyed) {k : String} {v : Value}
    (found : es.get? k = some v) : v.Keyed := h.each _ (mem_of_get? found)

theorem Keyed.append {es : Entries} (h : es.Keyed) {k : String} (absent : es.get? k = none)
    {v : Value} (keyed : v.Keyed) : Keyed (es ++ [(k, v)]) := by
  refine ⟨?_, ?_⟩
  · rw [List.map_append, List.map_singleton, List.nodup_append]
    refine ⟨h.distinct, List.nodup_singleton _, ?_⟩
    rintro a among b last rfl
    rw [List.mem_singleton.mp last] at among
    exact get?_eq_none.mp absent among
  · intro e member
    rcases List.mem_append.mp member with among | last
    · exact h.each e among
    · rw [List.mem_singleton.mp last]
      exact keyed

theorem map_fst_replace (k : String) (v : Value) (es : Entries) :
    (es.replace k v).map Prod.fst = es.map Prod.fst := by
  unfold replace
  rw [List.map_map]
  refine List.map_congr_left fun e _ => ?_
  simp only [Function.comp_apply]
  split
  · rename_i same
    exact same.symm
  · rfl

theorem Keyed.replace {es : Entries} (h : es.Keyed) (k : String) {v : Value}
    (keyed : v.Keyed) : Keyed (es.replace k v) := by
  refine ⟨by rw [map_fst_replace]; exact h.distinct, ?_⟩
  intro e member
  obtain ⟨d, among, rfl⟩ := List.mem_map.mp member
  split
  · exact keyed
  · exact h.each d among

theorem Keyed.erase {es : Entries} (h : es.Keyed) (k : String) : Keyed (es.erase k) := by
  refine ⟨h.distinct.sublist (List.filter_sublist.map _), ?_⟩
  intro e member
  exact h.each e (List.mem_filter.mp member).1

theorem get?_erase (k : String) (es : Entries) : (es.erase k).get? k = none := by
  rw [get?_eq_none]
  simp [erase]

end Entries

theorem keyed_inLast {f : Entries → Option Entries}
    (keeps : ∀ es es', es.Keyed → f es = some es' → es'.Keyed) {items items' : List Value}
    (h : ∀ v ∈ items, v.Keyed) (changed : inLast f items = some items') :
    ∀ v ∈ items', v.Keyed := by
  unfold inLast splitLast at changed
  split at changed
  · rename_i init form es split
    obtain ⟨last, found, same⟩ := Option.map_eq_some_iff.mp split
    cases same
    obtain ⟨es', step, rfl⟩ := Option.map_eq_some_iff.mp changed
    cases h _ (List.mem_of_getLast? found) with
    | table distinct each =>
      have next := keeps es es' ⟨distinct, each⟩ step
      intro v member
      rcases List.mem_append.mp member with among | last
      · exact h v ((List.dropLast_subset _ among))
      · rw [List.mem_singleton.mp last]
        exact .table next.distinct next.each
  · cases changed

theorem Entries.Keyed.table {es : Entries} (h : es.Keyed) (form : TableForm) :
    (Value.table form es).Keyed := .table h.distinct h.each

theorem Entries.Keyed.inner {es inner : Entries} (h : es.Keyed) {k : String} {form : TableForm}
    (found : es.get? k = some (.table form inner)) : inner.Keyed := by
  cases h.value found with
  | table distinct each => exact ⟨distinct, each⟩

theorem Entries.Keyed.items {es : Entries} (h : es.Keyed) {k : String} {form : ArrayForm}
    {items : List Value} (found : es.get? k = some (.array form items)) :
    ∀ v ∈ items, v.Keyed := by
  cases h.value found with
  | array each => exact each

theorem Entries.Keyed.inTable {f : Entries → Option Entries}
    (keeps : ∀ es es', es.Keyed → f es = some es' → es'.Keyed) {es inner es' : Entries}
    (h : es.Keyed) {k : String} {form : TableForm}
    (found : es.get? k = some (.table form inner))
    (done : (f inner).map (fun inner => es.replace k (.table form inner)) = some es') :
    es'.Keyed := by
  obtain ⟨inner', made, rfl⟩ := Option.map_eq_some_iff.mp done
  exact h.replace k ((keeps _ _ (h.inner found) made).table form)

theorem Entries.Keyed.inItems {f : Entries → Option Entries}
    (keeps : ∀ es es', es.Keyed → f es = some es' → es'.Keyed) {es es' : Entries}
    {items : List Value} (h : es.Keyed) {k : String} {form : ArrayForm}
    (found : es.get? k = some (.array form items))
    (done : (inLast f items).map (fun items => es.replace k (.array form items)) = some es') :
    es'.Keyed := by
  obtain ⟨items', made, rfl⟩ := Option.map_eq_some_iff.mp done
  exact h.replace k (.array (keyed_inLast keeps (h.items found) made))

theorem Entries.Keyed.opens {es inner : Entries} (h : es.Keyed) {k : String}
    (absent : es.get? k = none) (keyed : inner.Keyed) (form : TableForm) :
    Keyed (es ++ [(k, .table form inner)]) := h.append absent (keyed.table form)

theorem keyed_assign {key : String} {v : Value} (keyed : v.Keyed) (path : List String)
    {es es' : Entries} (h : es.Keyed) (done : assign key v path es = some es') : es'.Keyed := by
  induction path generalizing es es' with
  | nil =>
    simp only [assign, Entries.insert?] at done
    split at done
    · rename_i absent
      cases done
      exact h.append absent keyed
    · cases done
  | cons k ks ih =>
    simp only [assign] at done
    split at done
    · rename_i absent
      obtain ⟨inner, made, rfl⟩ := Option.map_eq_some_iff.mp done
      exact h.opens absent (ih Entries.keyed_nil made) _
    · rename_i form inner found
      split at done
      · exact h.inTable (fun _ _ => ih) found done
      · cases done
    · rename_i items found
      split at done
      · cases done
      · exact h.inItems (fun _ _ => ih) found done
    · cases done

theorem keyed_openSection (path : List String) {es es' : Entries} (h : es.Keyed)
    (done : openSection path es = some es') : es'.Keyed := by
  induction path generalizing es es' with
  | nil => cases done
  | cons k ks ih =>
    cases ks with
    | nil =>
      simp only [openSection] at done
      split at done
      · rename_i absent
        cases done
        exact h.opens absent Entries.keyed_nil _
      · rename_i inner found
        cases done
        exact (h.erase k).append (Entries.get?_erase k es) ((h.inner found).table _)
      · cases done
    | cons j js =>
      simp only [openSection] at done
      split at done
      · rename_i absent
        obtain ⟨inner, made, rfl⟩ := Option.map_eq_some_iff.mp done
        exact h.opens absent (ih Entries.keyed_nil made) _
      · rename_i form inner found
        split at done
        · cases done
        · exact h.inTable (fun _ _ => ih) found done
      · rename_i items found
        exact h.inItems (fun _ _ => ih) found done
      · cases done

theorem keyed_openElement (path : List String) {es es' : Entries} (h : es.Keyed)
    (done : openElement path es = some es') : es'.Keyed := by
  induction path generalizing es es' with
  | nil => cases done
  | cons k ks ih =>
    cases ks with
    | nil =>
      have fresh : (Value.table .header []).Keyed := Entries.keyed_nil.table _
      simp only [openElement] at done
      split at done
      · rename_i absent
        cases done
        exact h.append absent (.array (by simpa using fresh))
      · rename_i items found
        cases done
        refine h.replace k (.array fun v member => ?_)
        rcases List.mem_append.mp member with among | last
        · exact h.items found v among
        · rw [List.mem_singleton.mp last]
          exact fresh
      · cases done
    | cons j js =>
      simp only [openElement] at done
      split at done
      · rename_i absent
        obtain ⟨inner, made, rfl⟩ := Option.map_eq_some_iff.mp done
        exact h.opens absent (ih Entries.keyed_nil made) _
      · rename_i form inner found
        split at done
        · cases done
        · exact h.inTable (fun _ _ => ih) found done
      · rename_i items found
        exact h.inItems (fun _ _ => ih) found done
      · cases done

theorem keyed_inSection {f : Entries → Option Entries}
    (keeps : ∀ es es', es.Keyed → f es = some es' → es'.Keyed) (path : List String)
    {es es' : Entries} (h : es.Keyed) (done : inSection f path es = some es') : es'.Keyed := by
  induction path generalizing es es' with
  | nil => exact keeps es es' h done
  | cons k ks ih =>
    simp only [inSection] at done
    split at done
    · rename_i form inner found
      exact h.inTable (fun _ _ => ih) found done
    · rename_i items found
      exact h.inItems (fun _ _ => ih) found done
    · cases done

def KeyedReader (element : Reader) : Prop := ∀ cs v rest, element cs = some (v, rest) → v.Keyed

theorem keyed_items {element : Reader} (h : KeyedReader element) {cs rest : List Char}
    {vs : List Value} (read : items element cs = some (vs, rest)) : ∀ v ∈ vs, v.Keyed := by
  fun_induction items element cs generalizing vs rest with
  | case1 =>
    cases read
    simp
  | case3 cs v after rest' closed more first =>
    cases read
    simpa using h _ _ _ first
  | case4 cs v after rest' comma shorter more first ih =>
    obtain ⟨⟨ws, last⟩, others, same⟩ := Option.map_eq_some_iff.mp read
    cases same
    intro w member
    rcases List.mem_cons.mp member with rfl | among
    · exact h _ _ _ first
    · exact ih others w among
  | _ => cases read

theorem keyed_keyValue {element : Reader} (h : KeyedReader element) {cs rest : List Char}
    {k : Key} {v : Value} (read : keyValue element cs = some ((k, v), rest)) : v.Keyed := by
  unfold keyValue at read
  split at read
  · obtain ⟨⟨w, last⟩, first, same⟩ := Option.map_eq_some_iff.mp read
    cases same
    exact h _ _ _ first
  · cases read

theorem keyed_pairs {element : Reader} (h : KeyedReader element) {cs rest : List Char}
    {kvs : List (Key × Value)} (read : pairs element cs = some (kvs, rest)) :
    ∀ kv ∈ kvs, kv.2.Keyed := by
  fun_induction pairs element cs generalizing kvs rest with
  | case2 cs kv after first rest' closed =>
    cases read
    simpa using keyed_keyValue h first
  | case3 cs kv after first rest' comma shorter ih =>
    obtain ⟨⟨ws, last⟩, others, same⟩ := Option.map_eq_some_iff.mp read
    cases same
    intro w member
    rcases List.mem_cons.mp member with rfl | among
    · exact keyed_keyValue h first
    · exact ih others w among
  | _ => cases read

theorem keyed_assignments (kvs : List (Key × Value)) (h : ∀ kv ∈ kvs, kv.2.Keyed)
    {es es' : Entries} (keyed : es.Keyed)
    (done : kvs.foldlM (fun es kv => assign kv.1.name kv.2 kv.1.path es) es = some es') :
    es'.Keyed := by
  induction kvs generalizing es with
  | nil =>
    cases done
    exact keyed
  | cons kv kvs ih =>
    rw [List.foldlM_cons] at done
    obtain ⟨next, first, others⟩ := Option.bind_eq_some_iff.mp done
    have kept := keyed_assign (h kv List.mem_cons_self) kv.1.path keyed first
    exact ih (fun e among => h e (List.mem_cons_of_mem kv among)) kept others

theorem keyed_inlineTable {element : Reader} (h : KeyedReader element) :
    KeyedReader (inlineTable element) := by
  intro cs v rest read
  unfold inlineTable at read
  split at read
  · cases read
    exact Entries.keyed_nil.table _
  · split at read
    · cases read
    · rename_i kvs after listed
      obtain ⟨es, made, same⟩ := Option.map_eq_some_iff.mp read
      cases same
      exact (keyed_assignments kvs (keyed_pairs h listed) Entries.keyed_nil made).table _

theorem keyed_ofWord {w : List Char} {v : Value} (h : ofWord w = some v) : v.Keyed := by
  unfold ofWord at h
  split at h
  · cases h
    exact .boolean true
  · split at h
    · cases h
      exact .boolean false
    · split at h
      · cases h
        exact .moment _
      · split at h
        · cases h
          exact .float _
        · obtain ⟨n, -, rfl⟩ := Option.map_eq_some_iff.mp h
          exact .integer n

theorem keyed_scalar : KeyedReader scalar := by
  intro cs v rest read
  unfold scalar at read
  simp only at read
  split at read
  · split at read
    · split at read
      · cases read
        exact .moment _
      · cases read
    · cases read
      exact .moment _
  · obtain ⟨w, word, same⟩ := Option.map_eq_some_iff.mp read
    cases same
    exact keyed_ofWord word

theorem keyed_value (levels : Nat) : KeyedReader (value levels) := by
  induction levels using Nat.strongRecOn with
  | ind levels ih =>
    intro cs v rest read
    fun_cases value levels cs with
    | case1 =>
      rw [value] at read
      obtain ⟨p, -, same⟩ := Option.map_eq_some_iff.mp read
      cases same
      exact .text _
    | case2 =>
      rw [value] at read
      obtain ⟨p, -, same⟩ := Option.map_eq_some_iff.mp read
      cases same
      exact .text _
    | case3 levels cs =>
      rw [value] at read
      obtain ⟨⟨vs, last⟩, listed, same⟩ := Option.map_eq_some_iff.mp read
      cases same
      exact .array (keyed_items (ih levels (Nat.lt_succ_self levels)) listed)
    | case4 levels cs =>
      rw [value] at read
      exact keyed_inlineTable (ih levels (Nat.lt_succ_self levels)) _ _ _ read
    | case5 =>
      rw [value] at read
      · exact keyed_scalar _ _ _ read
      all_goals assumption

def Statement.Keyed : Statement → Prop
  | .assignment _ v => v.Keyed
  | _ => True

theorem keyed_statement {cs rest : List Char} {s : Statement}
    (read : statement cs = some (some s, rest)) : s.Keyed := by
  unfold statement at read
  split at read
  · cases read
  · cases read
  · obtain ⟨last, -, same⟩ := Option.map_eq_some_iff.mp read
    cases same
  · split at read
    · obtain ⟨last, -, same⟩ := Option.map_eq_some_iff.mp read
      cases same
      trivial
    · cases read
  · split at read
    · obtain ⟨last, -, same⟩ := Option.map_eq_some_iff.mp read
      cases same
      trivial
    · cases read
  · split at read
    · rename_i first
      obtain ⟨last, -, same⟩ := Option.map_eq_some_iff.mp read
      cases same
      exact keyed_keyValue (keyed_value _) first
    · cases read

theorem keyed_statements {cs : List Char} {ss : List Statement}
    (read : statements cs = some ss) : ∀ s ∈ ss, s.Keyed := by
  fun_induction statements cs generalizing ss with
  | case1 cs none => cases read
  | case2 cs s first =>
    cases read
    intro t member
    rw [Option.mem_toList] at member
    rw [member] at first
    exact keyed_statement first
  | case3 cs s rest more first shorter ih =>
    obtain ⟨others, later, rfl⟩ := Option.map_eq_some_iff.mp read
    intro t member
    rcases List.mem_append.mp member with head | among
    · rw [Option.mem_toList] at head
      rw [head] at first
      exact keyed_statement first
    · exact ih later t among
  | case4 => cases read

theorem keyed_add {d d' : Draft} {s : Statement} (h : d.root.Keyed) (keyed : s.Keyed)
    (done : d.add s = some d') : d'.root.Keyed := by
  cases s with
  | assignment k v =>
    obtain ⟨root, made, rfl⟩ := Option.map_eq_some_iff.mp done
    exact keyed_inSection (fun _ _ => keyed_assign keyed k.path) d.path h made
  | header k =>
    obtain ⟨root, made, rfl⟩ := Option.map_eq_some_iff.mp done
    exact keyed_openSection k.parts h made
  | element k =>
    obtain ⟨root, made, rfl⟩ := Option.map_eq_some_iff.mp done
    exact keyed_openElement k.parts h made

theorem keyed_draft (ss : List Statement) (h : ∀ s ∈ ss, s.Keyed) {d d' : Draft}
    (keyed : d.root.Keyed) (done : ss.foldlM Draft.add d = some d') : d'.root.Keyed := by
  induction ss generalizing d with
  | nil =>
    cases done
    exact keyed
  | cons s ss ih =>
    rw [List.foldlM_cons] at done
    obtain ⟨next, first, others⟩ := Option.bind_eq_some_iff.mp done
    have kept := keyed_add keyed (h s List.mem_cons_self) first
    exact ih (fun t among => h t (List.mem_cons_of_mem s among)) kept others

theorem keyed_parse? {s : String} {root : Entries} (h : parse? s = some root) : root.Keyed := by
  unfold parse? at h
  split at h
  · cases h
  · rename_i ss read
    obtain ⟨d, built, rfl⟩ := Option.map_eq_some_iff.mp h
    exact keyed_draft ss (keyed_statements read) Entries.keyed_nil built

end TcpEcho.Toml
