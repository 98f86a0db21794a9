import TcpEcho.Proofs.Settings.Load
/- Documents that say the same about the settings. Only the values of the known keys count, and
   those however they are written, so neither the order of a document nor its notation nor
   anything else that it holds changes what it is decoded to. -/
namespace TcpEcho

open Toml (Value Entries)

namespace Toml

/-- Values that are the same however they are written. How a table or an array came to be and the
order of the keys in a table do not count. Nothing depends on a date or time, so these are not
told apart. -/
inductive Value.Same : Value → Value → Prop where
  | text (s : String) : Same (.text s) (.text s)
  | integer (n : Int) : Same (.integer n) (.integer n)
  | float (x : Binary64) : Same (.float x) (.float x)
  | boolean (b : Bool) : Same (.boolean b) (.boolean b)
  | moment (s s' : String) : Same (.moment s) (.moment s')
  | array {form form' : ArrayForm} {items items' : List Value}
      (length : items.length = items'.length)
      (each : ∀ (i : Nat) (v v' : Value), items[i]? = some v → items'[i]? = some v' → Same v v') :
      Same (.array form items) (.array form' items')
  | table {form form' : TableForm} {es es' : Entries}
      (keys : ∀ k, es.get? k = none ↔ es'.get? k = none)
      (each : ∀ k (v v' : Value), es.get? k = some v → es'.get? k = some v' → Same v v') :
      Same (.table form es) (.table form' es')

theorem Value.Same.refl (v : Value) : v.Same v := by
  match v with
  | .text s => exact .text s
  | .integer n => exact .integer n
  | .float x => exact .float x
  | .boolean b => exact .boolean b
  | .moment s => exact .moment s s
  | .array form items =>
    apply Same.array rfl
    intro i w w' here there
    rw [here] at there
    cases there
    have smaller := List.sizeOf_lt_of_mem (List.mem_of_getElem? here)
    exact Same.refl w
  | .table form es =>
    apply Same.table (fun _ => Iff.rfl)
    intro k w w' here there
    rw [here] at there
    cases there
    have smaller := List.sizeOf_lt_of_mem (Entries.mem_of_get? here)
    exact Same.refl w
termination_by sizeOf v
decreasing_by
  · simp only [Value.array.sizeOf_spec]
    omega
  · simp only [Value.table.sizeOf_spec, Prod.mk.sizeOf_spec] at smaller ⊢
    omega

theorem Value.Same.symm {v v' : Value} (h : v.Same v') : v'.Same v := by
  induction h with
  | text s => exact .text s
  | integer n => exact .integer n
  | float x => exact .float x
  | boolean b => exact .boolean b
  | moment s s' => exact .moment s' s
  | array length each ih =>
    apply Same.array length.symm
    intro i v v' here there
    exact ih i v' v there here
  | table keys each ih =>
    apply Same.table (fun k => (keys k).symm)
    intro k v v' here there
    exact ih k v' v there here

theorem Value.Same.rel_refl (v? : Option Value) : Option.Rel Value.Same v? v? := by
  cases v? with
  | none => exact .none
  | some v => exact .some (.refl v)

theorem Value.Same.rel_symm {v? v'? : Option Value} (h : Option.Rel Value.Same v? v'?) :
    Option.Rel Value.Same v'? v? := by
  cases h with
  | none => exact .none
  | some each => exact .some each.symm

theorem Value.Same.empty {form : TableForm} {v : Value} (h : (Value.table form []).Same v) :
    ∃ form', v = .table form' [] := by
  cases h with
  | @table _ form' _ es' keys each =>
    cases es' with
    | nil => exact ⟨form', rfl⟩
    | cons e es' =>
      have absent := (keys e.1).mp rfl
      rw [Entries.get?_cons_self rfl] at absent
      cases absent

theorem Value.Same.singleton {form : TableForm} {k : String} {w v : Value} (keyed : v.Keyed)
    (h : (Value.table form [(k, w)]).Same v) : ∃ form' w', w.Same w' ∧ v = .table form' [(k, w')] := by
  cases h with
  | @table _ form' _ es' keys each =>
    cases keyed with
    | table distinct _ =>
      have only : ∀ e ∈ es', e.1 = k := by
        intro e member
        by_contra other
        have absent : Entries.get? e.1 [(k, w)] = none := by
          rw [Entries.get?_cons_of_ne (Ne.symm other)]
          rfl
        exact Entries.get?_eq_none.mp ((keys e.1).mp absent) (List.mem_map_of_mem member)
      have here : Entries.get? k [(k, w)] = some w := Entries.get?_cons_self (e := (k, w)) rfl []
      have all_keys : es'.map Prod.fst = List.replicate es'.length k := by
        rw [List.eq_replicate_iff]
        refine ⟨List.length_map _, ?_⟩
        intro j member
        obtain ⟨e, among, rfl⟩ := List.mem_map.mp member
        exact only e among
      have at_most : es'.length ≤ 1 := by
        rw [all_keys, List.nodup_replicate] at distinct
        exact distinct
      cases found : es'.get? k with
      | none =>
        have absent := (keys k).mpr found
        rw [here] at absent
        cases absent
      | some w' =>
        obtain ⟨e, rfl⟩ := List.length_eq_one_iff.mp
          (Nat.le_antisymm at_most (List.length_pos_of_mem (Entries.mem_of_get? found)))
        rw [Entries.get?_cons_self (only e List.mem_cons_self)] at found
        cases found
        obtain ⟨j, w'⟩ := e
        obtain rfl : j = k := only _ List.mem_cons_self
        exact ⟨form', w', each j w w' here (Entries.get?_cons_self (e := (j, w')) rfl []), rfl⟩

end Toml

namespace Schema

variable {v v' : Value}

theorem IsText.same {s : String} (same : v.Same v') (h : IsText v s) : IsText v' s := by
  cases h
  cases same
  rfl

theorem isInteger_same {n : Int} (same : v.Same v') (h : v = .integer n) : v' = .integer n := by
  cases h
  cases same
  rfl

theorem IsRuntime.same {r : Runtime} (keyed : v'.Keyed) (same : v.Same v')
    (h : IsRuntime v r) : IsRuntime v' r := by
  rcases h with rfl | ⟨outer, inner, rfl⟩
  · cases same
    exact Or.inl rfl
  · obtain ⟨outer', w, kind, rfl⟩ := same.singleton keyed
    obtain ⟨inner', rfl⟩ := kind.empty
    exact Or.inr ⟨outer', inner', rfl⟩

theorem Given.same {α : Type} {stands : Value → α → Prop} {v? v'? : Option Value} {initial x : α}
    (keep : ∀ v v', v'? = some v' → v.Same v' → stands v x → stands v' x)
    (same : Option.Rel Value.Same v? v'?) (h : Given stands v? initial x) :
    Given stands v'? initial x := by
  cases same with
  | none => exact h
  | some each => exact keep _ _ rfl each h

namespace Heading

def table? (h : Heading) (root : Entries) : Option Entries :=
  match root.get? h.word with
  | none => some []
  | some (.table _ es) => some es
  | some _ => none

/-- Two documents say the same under a heading: each has a table there or nothing, or the one has
an array, whose items belong to the keys in the order of their declaration. -/
inductive Alike (h : Heading) (root root' : Entries) : Prop where
  | tables {es es' : Entries} (left : h.table? root = some es) (right : h.table? root' = some es')
      (same : ∀ k ∈ h.keys, Option.Rel Value.Same (es.get? k) (es'.get? k))
  | listed {form : Toml.ArrayForm} {items : List Value} {es' : Entries}
      (left : root.get? h.word = some (.array form items)) (right : h.table? root' = some es')
      (same : ∀ (i : Nat) k, h.keys[i]? = some k →
        Option.Rel Value.Same items[i]? (es'.get? k))

/-- Under a heading both documents can be decoded as far as its place goes, and have the same
values for its keys. -/
structure Agrees (h : Heading) (root root' : Entries) : Prop where
  left : (h.entries? root).isSome = true
  right : (h.entries? root').isSome = true
  values : ∀ k ∈ h.keys, Option.Rel Value.Same (h.value? root k) (h.value? root' k)

variable {h : Heading} {root root' : Entries}

theorem Agrees.symm (agrees : h.Agrees root root') : h.Agrees root' root := by
  refine ⟨agrees.right, agrees.left, ?_⟩
  intro k known
  exact Value.Same.rel_symm (agrees.values k known)

theorem entries?_of_table? {es : Entries} (found : h.table? root = some es) :
    h.entries? root = some es := by
  unfold table? at found
  unfold entries?
  split at found
  · rename_i absent
    rw [absent]
    exact found
  · rename_i form inner placed
    rw [placed]
    exact found
  · cases found

theorem get?_zip {keys : List String} (distinct : keys.Nodup) {i : Nat} {k : String}
    (here : keys[i]? = some k) (items : List Value) :
    Entries.get? k (keys.zip items) = items[i]? := by
  induction keys generalizing i items with
  | nil => cases here
  | cons j keys ih =>
    rw [List.nodup_cons] at distinct
    cases items with
    | nil => rfl
    | cons v items =>
      rw [List.zip_cons_cons]
      cases i with
      | zero =>
        cases here
        exact Entries.get?_cons_self (e := (k, v)) rfl _
      | succ i =>
        have later : keys[i]? = some k := by simpa using here
        have other : j ≠ k := by
          rintro rfl
          exact distinct.1 (List.mem_of_getElem? later)
        rw [Entries.get?_cons_of_ne other, ih distinct.2 later]
        rfl

theorem nodup_keys (h : Heading) : h.keys.Nodup := by
  cases h <;> decide

theorem Alike.agrees (alike : h.Alike root root') : h.Agrees root root' := by
  cases alike with
  | @tables es es' left right same =>
    have entries := entries?_of_table? left
    have entries' := entries?_of_table? right
    refine ⟨by rw [entries]; rfl, by rw [entries']; rfl, ?_⟩
    intro k known
    rw [value?, value?, entries, entries']
    exact same k known
  | @listed form items es' left right same =>
    have entries : h.entries? root = some (h.keys.zip items) := by
      simp only [entries?, left, entriesOf]
    have entries' := entries?_of_table? right
    refine ⟨by rw [entries]; rfl, by rw [entries']; rfl, ?_⟩
    intro k known
    obtain ⟨i, here⟩ := List.getElem?_of_mem known
    rw [value?, value?, entries, entries', Option.bind_some, Option.bind_some,
      get?_zip h.nodup_keys here]
    exact same i k here

theorem keyed_value? (keyed : root.Keyed) {k : String} {v : Value}
    (found : h.value? root k = some v) : v.Keyed := by
  obtain ⟨es, entries, at_key⟩ := Option.bind_eq_some_iff.mp found
  unfold entries? at entries
  split at entries
  · cases entries
    cases at_key
  · rename_i w placed
    exact (keyed_entriesOf h.nodup_keys (keyed.value placed) entries).value at_key

end Heading

theorem Says.agrees {root root' : Entries} {f : FileSettings} (keyed : root'.Keyed)
    (agree : ∀ h : Heading, h.Agrees root root') (said : Says root f) : Says root' f := by
  have server := (agree .server).values
  constructor
  · intro h
    exact (agree h).right
  · exact said.host.same (fun _ _ _ => IsText.same) (server "host" (by decide))
  · exact said.port.same (fun _ _ _ => isInteger_same) (server "port" (by decide))
  · exact said.backlog.same (fun _ _ _ => isInteger_same) (server "backlog" (by decide))
  · exact said.runtime.same (fun _ _ found => IsRuntime.same (Heading.keyed_value? keyed found))
      (server "runtime" (by decide))
  · exact said.maxConnections.same (fun _ _ _ => isInteger_same)
      (server "max_connections" (by decide))
  · exact said.chunkSize.same (fun _ _ _ => isInteger_same)
      ((agree .relay).values "chunk_size" (by decide))
  · exact said.level.same (fun _ _ _ => IsText.same)
      ((agree .logging).values "level" (by decide))

theorem says_iff_of_alike {root root' : Entries} (keyed : root.Keyed) (keyed' : root'.Keyed)
    (alike : ∀ h : Heading, h.Alike root root') (f : FileSettings) :
    Says root f ↔ Says root' f := by
  constructor
  · intro said
    exact said.agrees keyed' fun h => (alike h).agrees
  · intro said
    exact said.agrees keyed fun h => (alike h).agrees.symm

end Schema

namespace FileSettings

/-- Of two texts whose documents are alike under each heading, the one gives settings if the other
does, and then the same. What else they hold, in which order they have it and how they are written
does not count. -/
theorem parse_alike {text text' : String} {root root' : Entries}
    (document : Toml.parse? text = some root) (document' : Toml.parse? text' = some root')
    (alike : ∀ h : Schema.Heading, h.Alike root root') (f : FileSettings) :
    FileSettings.parse text = .ok f ↔ FileSettings.parse text' = .ok f := by
  have same := Schema.says_iff_of_alike (Toml.keyed_parse? document) (Toml.keyed_parse? document')
    alike f
  rw [Settings.parse_eq_ok, Settings.parse_eq_ok]
  constructor
  · rintro ⟨root, read, said⟩
    rw [document] at read
    cases read
    exact ⟨root', document', same.mp said⟩
  · rintro ⟨root', read, said⟩
    rw [document'] at read
    cases read
    exact ⟨root, document, same.mpr said⟩

def dotted : String :=
  "relay = [16]\nextra = 1979-05-27\nserver.runtime.serial = \x7b\x7d\nserver.port = 9\n"

def dottedRoot : Entries := [
  ("relay", .array .listed [.integer 16]),
  ("extra", .moment "1979-05-27"),
  ("server", .table .dotted [
    ("runtime", .table .dotted [("serial", .table .inline [])]),
    ("port", .integer 9)])
]

def headed : String :=
  "[server]\nport = 0x9\nruntime = \x7bserial = \x7b\x7d\x7d\nmore = [1]\n" ++
    "[relay]\nchunk_size = 16\n"

def headedRoot : Entries := [
  ("server", .table .header [
    ("port", .integer 9),
    ("runtime", .table .inline [("serial", .table .inline [])]),
    ("more", .array .listed [.integer 1])]),
  ("relay", .table .header [("chunk_size", .integer 16)])
]

theorem dotted_alike_headed :
    Toml.parse? dotted = some dottedRoot ∧ Toml.parse? headed = some headedRoot ∧
    (∀ h : Schema.Heading, h.Alike dottedRoot headedRoot) ∧
    FileSettings.parse dotted = .ok { server := { port := 9 }, relay := { chunkSize := 16 } } := by
  have document : Toml.parse? dotted = some dottedRoot := by with_unfolding_all rfl
  have document' : Toml.parse? headed = some headedRoot := by with_unfolding_all rfl
  have runtime : Value.Same (.table .dotted [("serial", .table .inline [])])
      (.table .inline [("serial", .table .inline [])]) := by
    apply Value.Same.table (fun _ => Iff.rfl)
    intro k v v' here there
    rw [here] at there
    cases there
    exact .refl v
  have alike : ∀ h : Schema.Heading, h.Alike dottedRoot headedRoot := by
    intro h
    cases h with
    | server =>
      apply Schema.Heading.Alike.tables rfl rfl
      intro k known
      simp only [Schema.Heading.keys, List.mem_cons, List.not_mem_nil, or_false] at known
      rcases known with rfl | rfl | rfl | rfl | rfl
      · exact .none
      · exact .some (.integer 9)
      · exact .none
      · exact .some runtime
      · exact .none
    | relay =>
      apply Schema.Heading.Alike.listed rfl rfl
      intro i k here
      cases i with
      | zero =>
        cases here
        exact .some (.integer 16)
      | succ i => cases here
    | logging =>
      apply Schema.Heading.Alike.tables rfl rfl
      intro k known
      exact .none
  have given : FileSettings.parse headed =
      .ok { server := { port := 9 }, relay := { chunkSize := 16 } } :=
    Settings.parse_eq_ok.mpr
      ⟨headedRoot, document', (Schema.decode_eq_ok (Toml.keyed_parse? document')).mp rfl⟩
  exact ⟨document, document', alike, (parse_alike document document' alike _).mpr given⟩

end FileSettings
end TcpEcho
