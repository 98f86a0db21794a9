import Mathlib.Data.List.Nodup
import TcpEcho.Settings.Schema
import TcpEcho.Proofs.Toml.Tables
/- What a document says about each setting, told key by key. Decoding gives the settings that
   a document says, in whatever order and notation it says them. -/
namespace TcpEcho.Schema

open Toml (Value Entries)

def IsText (v : Value) (s : String) : Prop := v = .text s

def IsPort (v : Value) (p : UInt16) : Prop := v = .integer p.toNat

def IsBacklog (v : Value) (b : Int32) : Prop := v = .integer b.toInt

def IsSize (v : Value) (n : UInt64) : Prop := v = .integer n.toNat

/-- A runtime is named by its word, or by the only key of a table that says no more. -/
def IsRuntime (v : Value) (r : Runtime) : Prop :=
  v = .text r.word ∨ ∃ outer inner, v = .table outer [(r.word, .table inner [])]

theorem text_eq_ok (v : Value) (s : String) : text v = .ok s ↔ IsText v s := by
  cases v <;> simp [text, IsText]

theorem whole_eq_ok {wanted : Wanted} {low high n : Int} (v : Value) :
    whole wanted low high v = .ok n ↔ v = .integer n ∧ low ≤ n ∧ n ≤ high := by
  cases v with
  | integer m =>
    simp only [whole, Value.integer.injEq]
    by_cases within : low ≤ m ∧ m ≤ high
    · rw [if_pos within, Except.ok.injEq]
      constructor
      · rintro rfl
        exact ⟨rfl, within⟩
      · exact fun h => h.1
    · rw [if_neg within]
      constructor
      · intro h
        cases h
      · rintro ⟨rfl, h⟩
        exact absurd h within
  | _ => simp [whole]

theorem map_eq_ok {ε α β : Type} {f : α → β} {x : Except ε α} {y : β} :
    x.map f = .ok y ↔ ∃ a, x = .ok a ∧ f a = y := by
  cases x <;> simp [Except.map]

theorem port_eq_ok (v : Value) (p : UInt16) : port v = .ok p ↔ IsPort v p := by
  unfold port IsPort
  rw [map_eq_ok]
  simp only [whole_eq_ok]
  constructor
  · rintro ⟨n, ⟨rfl, low, high⟩, rfl⟩
    have same : (UInt16.ofNat n.toNat).toNat = n.toNat := by
      simp only [UInt16.toNat_ofNat']
      omega
    rw [same, Int.toNat_of_nonneg low]
  · rintro rfl
    have bound := p.toNat_lt
    exact ⟨p.toNat, ⟨rfl, by omega, by omega⟩, by simp⟩

theorem size_eq_ok (v : Value) (n : UInt64) : size v = .ok n ↔ IsSize v n := by
  unfold size IsSize
  rw [map_eq_ok]
  simp only [whole_eq_ok]
  constructor
  · rintro ⟨m, ⟨rfl, low, high⟩, rfl⟩
    have same : (UInt64.ofNat m.toNat).toNat = m.toNat := by
      simp only [UInt64.toNat_ofNat']
      omega
    rw [same, Int.toNat_of_nonneg low]
  · rintro rfl
    have bound := n.toNat_lt
    exact ⟨n.toNat, ⟨rfl, by omega, by omega⟩, by simp⟩

theorem backlog_eq_ok (v : Value) (b : Int32) : backlog v = .ok b ↔ IsBacklog v b := by
  unfold backlog IsBacklog
  rw [map_eq_ok]
  simp only [whole_eq_ok]
  constructor
  · rintro ⟨n, ⟨rfl, low, high⟩, rfl⟩
    rw [Int32.toInt_ofInt_of_le low (by omega)]
  · rintro rfl
    have low := b.minValue_le_toInt
    have high := b.toInt_lt
    simp at low
    exact ⟨b.toInt, ⟨rfl, by omega, by omega⟩, by simp⟩

theorem ofWord?_eq_some {s : String} {r : Runtime} :
    Runtime.ofWord? s = some r ↔ s = r.word := by
  unfold Runtime.ofWord?
  constructor
  · intro h
    split at h
    · cases h
      assumption
    · split at h
      · cases h
        assumption
      · cases h
  · rintro rfl
    cases r <;> decide

theorem runtimeNamed_eq_ok {s : String} {r : Runtime} : runtimeNamed s = .ok r ↔ s = r.word := by
  rw [← ofWord?_eq_some]
  unfold runtimeNamed
  cases Runtime.ofWord? s <;> simp

theorem payload_eq_ok (v : Value) : payload v = .ok () ↔ ∃ form, v = .table form [] := by
  constructor
  · intro h
    unfold payload at h
    split at h
    · exact ⟨_, rfl⟩
    all_goals cases h
  · rintro ⟨form, rfl⟩
    rfl

theorem runtime_eq_ok (v : Value) (r : Runtime) : runtime v = .ok r ↔ IsRuntime v r := by
  constructor
  · intro h
    unfold runtime at h
    split at h
    · exact .inl (by rw [runtimeNamed_eq_ok.mp h])
    · cases h
    · rename_i outer k w
      simp only [Bind.bind, Except.bind] at h
      split at h
      · cases h
      · rename_i q named
        split at h
        · cases h
        · rename_i empty
          cases h
          obtain ⟨inner, rfl⟩ := (payload_eq_ok w).mp empty
          exact .inr ⟨outer, inner, by rw [runtimeNamed_eq_ok.mp named]⟩
    · cases h
    · cases h
  · rintro (rfl | ⟨outer, inner, rfl⟩)
    · exact runtimeNamed_eq_ok.mpr rfl
    · have named : runtimeNamed r.word = .ok r := runtimeNamed_eq_ok.mpr rfl
      simp [runtime, named, payload, Bind.bind, Except.bind, pure, Except.pure]

/-- What a setting is worth: what the value in its place stands for, or else its default. -/
def Given {α : Type} (stands : Value → α → Prop) (v? : Option Value) (initial x : α) : Prop :=
  match v? with
  | none => x = initial
  | some v => stands v x

/-- The entries that the value of a section stands for. Items without keys belong to the keys
in their order, and a date or time stands for none. -/
def entriesOf (keys : List String) : Value → Option Entries
  | .table _ es => some es
  | .array _ items => some (keys.zip items)
  | .moment _ => some []
  | _ => none

section Fields

variable {σ α : Type} {fields : List (Field σ)}

def keysOf (fields : List (Field σ)) : List String := fields.map Field.key

theorem find_field (distinct : (keysOf fields).Nodup) {f : Field σ} (member : f ∈ fields) :
    (fields.find? fun g => g.key = f.key) = some f := by
  induction fields with
  | nil => cases member
  | cons g fields ih =>
    simp only [keysOf, List.map_cons, List.nodup_cons] at distinct
    rcases List.mem_cons.mp member with rfl | later
    · simp
    · have other : g.key ≠ f.key := by
        intro same
        exact distinct.1 (same ▸ List.mem_map_of_mem later)
      rw [List.find?_cons_of_neg (by simpa using other)]
      exact ih distinct.2 later

theorem setEntry_known (distinct : (keysOf fields).Nodup) {f : Field σ} (member : f ∈ fields)
    (v : Value) (s : σ) : setEntry fields s (f.key, v) = f.set v s := by
  simp only [setEntry, find_field distinct member]

theorem setEntry_unknown {k : String} (unknown : k ∉ keysOf fields) (v : Value) (s : σ) :
    setEntry fields s (k, v) = .ok s := by
  have none : (fields.find? fun g => g.key = k) = none := by
    rw [List.find?_eq_none]
    intro g member same
    exact unknown (List.mem_map.mpr ⟨g, member, by simpa using same⟩)
  simp only [setEntry, none]

theorem setEntry_cases (distinct : (keysOf fields).Nodup) {e : String × Value} {s s' : σ}
    (done : setEntry fields s e = .ok s') :
    (∃ f ∈ fields, f.key = e.1 ∧ f.set e.2 s = .ok s') ∨ (e.1 ∉ keysOf fields ∧ s' = s) := by
  by_cases known : e.1 ∈ keysOf fields
  · obtain ⟨f, member, same⟩ := List.mem_map.mp known
    refine Or.inl ⟨f, member, same, ?_⟩
    rw [← setEntry_known distinct member, same]
    exact done
  · rw [show e = (e.1, e.2) from rfl, setEntry_unknown known] at done
    cases done
    exact Or.inr ⟨known, rfl⟩

theorem setEntries_cons {e : String × Value} {es : Entries} {s s' : σ} :
    setEntries fields (e :: es) s = .ok s' ↔
      ∃ next, setEntry fields s e = .ok next ∧ setEntries fields es next = .ok s' := by
  unfold setEntries
  rw [List.foldlM_cons]
  cases setEntry fields s e <;> simp [Bind.bind, Except.bind]

theorem setEntries_ok (distinct : (keysOf fields).Nodup) {es : Entries}
    (each : ∀ e ∈ es, ∀ f ∈ fields, f.key = e.1 → ∀ s, ∃ s', f.set e.2 s = .ok s') (s : σ) :
    ∃ s', setEntries fields es s = .ok s' := by
  induction es generalizing s with
  | nil => exact ⟨s, rfl⟩
  | cons e es ih =>
    have first : ∃ next, setEntry fields s e = .ok next := by
      by_cases known : e.1 ∈ keysOf fields
      · obtain ⟨f, member, same⟩ := List.mem_map.mp known
        obtain ⟨next, set⟩ := each e List.mem_cons_self f member same s
        refine ⟨next, ?_⟩
        rw [show e = (f.key, e.2) by rw [same], setEntry_known distinct member]
        exact set
      · exact ⟨s, setEntry_unknown known e.2 s⟩
    obtain ⟨next, set⟩ := first
    obtain ⟨s', rest⟩ := ih (fun e among => each e (List.mem_cons_of_mem _ among)) next
    exact ⟨s', setEntries_cons.mpr ⟨next, set, rest⟩⟩

theorem setItems_eq_setEntries (distinct : (keysOf fields).Nodup) (items : List Value) (s : σ) :
    setItems fields items s = setEntries fields ((keysOf fields).zip items) s := by
  have listed : ∀ fs : List (Field σ), (∀ f ∈ fs, f ∈ fields) → ∀ items s,
      (fs.zip items).foldlM (fun s p => p.1.set p.2 s) s =
        ((keysOf fs).zip items).foldlM (setEntry fields) s := by
    intro fs members
    induction fs with
    | nil => intro items s; rfl
    | cons f fs ih =>
      intro items s
      cases items with
      | nil => rfl
      | cons v items =>
        simp only [keysOf, List.map_cons, List.zip_cons_cons, List.foldlM_cons]
        rw [setEntry_known distinct (members f List.mem_cons_self)]
        have rest := ih fun g among => members g (List.mem_cons_of_mem f among)
        simp only [keysOf] at rest
        simp only [rest]
  exact listed fields (fun _ member => member) items s

theorem sectionOf_eq (wanted : Wanted) (distinct : (keysOf fields).Nodup) (initial : σ)
    (v : Value) :
    sectionOf wanted fields initial v =
      match entriesOf (keysOf fields) v with
      | some es => setEntries fields es initial
      | none => .error (misplaced v wanted) := by
  cases v with
  | array form items => exact setItems_eq_setEntries distinct items initial
  | _ => rfl

end Fields

/-- A part of a section: the field that sets it, how it is got from the section, and which
values stand for it. -/
structure Part (σ : Type) where
  {α : Type}
  key : String
  decode : Decoder α
  put : σ → α → σ
  get : σ → α
  stands : Value → α → Prop
  get_put : ∀ s x, get (put s x) = x
  reads : ∀ v x, v.Keyed → (decode v = .ok x ↔ stands v x)

namespace Part

variable {σ : Type}

def field (p : Part σ) : Field σ := Schema.field p.key p.decode p.put

def IsGiven (p : Part σ) (es : Entries) (initial s : σ) : Prop :=
  Given p.stands (es.get? p.key) (p.get initial) (p.get s)

theorem field_set (p : Part σ) {v : Value} (keyed : v.Keyed) {s s' : σ} :
    p.field.set v s = .ok s' ↔ ∃ x, p.stands v x ∧ p.put s x = s' := by
  unfold field
  simp only [Schema.field, map_eq_ok, p.reads v _ keyed]

theorem stands_unique (p : Part σ) {v : Value} (keyed : v.Keyed) {x y : p.α}
    (left : p.stands v x) (right : p.stands v y) : x = y := by
  have first := (p.reads v x keyed).mpr left
  have second := (p.reads v y keyed).mpr right
  rw [first] at second
  cases second
  rfl

theorem IsGiven.unique {p : Part σ} {es : Entries} (keyed : es.Keyed) {initial s s' : σ}
    (left : p.IsGiven es initial s) (right : p.IsGiven es initial s') : p.get s = p.get s' := by
  unfold IsGiven Given at left right
  cases found : es.get? p.key with
  | none =>
    simp only [found] at left right
    rw [left, right]
  | some v =>
    simp only [found] at left right
    exact p.stands_unique (keyed.value found) left right

end Part

/-- The parts that make up a section, one for each field. -/
structure Layout {σ : Type} (parts : List (Part σ)) : Prop where
  distinct : (parts.map Part.key).Nodup
  apart : ∀ p ∈ parts, ∀ q ∈ parts, p.key ≠ q.key → ∀ s x, q.get (p.put s x) = q.get s
  ext : ∀ s s', (∀ p ∈ parts, p.get s = p.get s') → s = s'

namespace Layout

variable {σ : Type} {parts : List (Part σ)}

theorem distinct_fields (h : Layout parts) : (keysOf (parts.map Part.field)).Nodup := by
  have same : keysOf (parts.map Part.field) = parts.map Part.key := by
    simp [keysOf, Part.field, Schema.field, Function.comp_def]
  rw [same]
  exact h.distinct

theorem part_unique (h : Layout parts) {p q : Part σ} (here : p ∈ parts) (there : q ∈ parts)
    (same : p.key = q.key) : p = q :=
  List.inj_on_of_nodup_map h.distinct here there same

theorem isGiven (h : Layout parts) {es : Entries} (keyed : es.Keyed) {initial s : σ}
    (done : setEntries (parts.map Part.field) es initial = .ok s) {p : Part σ}
    (here : p ∈ parts) : p.IsGiven es initial s := by
  induction es generalizing initial with
  | nil =>
    cases done
    rfl
  | cons e es ih =>
    obtain ⟨next, first, rest⟩ := setEntries_cons.mp done
    have later := ih keyed.tail rest
    have keyed_value := keyed.each e List.mem_cons_self
    unfold Part.IsGiven at later ⊢
    -- Keys are distinct: what the first entry sets is not set again, and what it does not set
    -- is left to the entries behind it.
    by_cases same : e.1 = p.key
    · have once : Entries.get? p.key es = none := by
        rw [Entries.get?_eq_none, ← same]
        exact keyed.head_notMem
      rw [once] at later
      rw [Entries.get?_cons_self same]
      rcases setEntry_cases h.distinct_fields first with ⟨f, member, at_key, set⟩ | ⟨unknown, -⟩
      · obtain ⟨q, there, rfl⟩ := List.mem_map.mp member
        obtain rfl := h.part_unique here there (same.symm.trans at_key.symm)
        obtain ⟨x, stands, put⟩ := (p.field_set keyed_value).mp set
        have got : p.get s = x := by
          rw [show p.get s = p.get next from later, ← put, p.get_put]
        rw [got]
        exact stands
      · rw [same] at unknown
        exact absurd (List.mem_map.mpr ⟨p.field, List.mem_map_of_mem here, rfl⟩) unknown
    · have kept : p.get next = p.get initial := by
        rcases setEntry_cases h.distinct_fields first with ⟨f, member, at_key, set⟩ | ⟨-, rfl⟩
        · obtain ⟨q, there, rfl⟩ := List.mem_map.mp member
          obtain ⟨x, -, rfl⟩ := (q.field_set keyed_value).mp set
          exact h.apart q there p here (fun k => same (at_key.symm.trans k)) initial x
        · rfl
      rw [kept] at later
      rw [Entries.get?_cons_of_ne same]
      exact later

/-- Entries give a section if it is what they say part by part. -/
theorem setEntries_eq_ok (h : Layout parts) {es : Entries} (keyed : es.Keyed) (initial s : σ) :
    setEntries (parts.map Part.field) es initial = .ok s ↔
      ∀ p ∈ parts, p.IsGiven es initial s := by
  constructor
  · intro done p here
    exact h.isGiven keyed done here
  · intro said
    have each : ∀ e ∈ es, ∀ f ∈ parts.map Part.field, f.key = e.1 →
        ∀ t, ∃ t', f.set e.2 t = .ok t' := by
      intro e among f member at_key t
      obtain ⟨p, here, rfl⟩ := List.mem_map.mp member
      have found : es.get? p.key = some e.2 := by
        rw [show p.key = e.1 from at_key]
        exact (Entries.get?_eq_some keyed.distinct).mpr among
      have stands := said p here
      simp only [Part.IsGiven, found, Given] at stands
      exact ⟨_, (p.field_set (keyed.each e among)).mpr ⟨_, stands, rfl⟩⟩
    obtain ⟨t, done⟩ := setEntries_ok h.distinct_fields each initial
    have same : t = s := h.ext t s fun p here =>
      (h.isGiven keyed done here).unique keyed (said p here)
    rw [done, same]

end Layout

def serverParts : List (Part ServerSection) := [
  { key := "host", decode := text, put := fun s x => { s with host := x }
    get := ServerSection.host, stands := IsText
    get_put := fun _ _ => rfl, reads := fun v x _ => text_eq_ok v x },
  { key := "port", decode := port, put := fun s x => { s with port := x }
    get := ServerSection.port, stands := IsPort
    get_put := fun _ _ => rfl, reads := fun v x _ => port_eq_ok v x },
  { key := "backlog", decode := backlog, put := fun s x => { s with backlog := x }
    get := ServerSection.backlog, stands := IsBacklog
    get_put := fun _ _ => rfl, reads := fun v x _ => backlog_eq_ok v x },
  { key := "runtime", decode := runtime, put := fun s x => { s with runtime := x }
    get := ServerSection.runtime, stands := IsRuntime
    get_put := fun _ _ => rfl, reads := fun v x _ => runtime_eq_ok v x },
  { key := "max_connections", decode := size, put := fun s x => { s with maxConnections := x }
    get := ServerSection.maxConnections, stands := IsSize
    get_put := fun _ _ => rfl, reads := fun v x _ => size_eq_ok v x }]

def relayParts : List (Part RelaySection) := [
  { key := "chunk_size", decode := size, put := fun s x => { s with chunkSize := x }
    get := RelaySection.chunkSize, stands := IsSize
    get_put := fun _ _ => rfl, reads := fun v x _ => size_eq_ok v x }]

def loggingParts : List (Part LoggingSection) := [
  { key := "level", decode := text, put := fun s x => { s with level := x }
    get := LoggingSection.level, stands := IsText
    get_put := fun _ _ => rfl, reads := fun v x _ => text_eq_ok v x }]

theorem layout_server : Layout serverParts where
  distinct := by decide
  apart := by simp [serverParts]
  ext s s' same := by
    obtain ⟨host, port, backlog, runtime, connections⟩ := s
    simp only [serverParts, List.forall_mem_cons] at same
    obtain ⟨rfl, rfl, rfl, rfl, rfl, -⟩ := same
    rfl

theorem layout_relay : Layout relayParts where
  distinct := by decide
  apart := by simp [relayParts]
  ext s s' same := by
    obtain ⟨size⟩ := s
    simp only [relayParts, List.forall_mem_cons] at same
    obtain ⟨rfl, -⟩ := same
    rfl

theorem layout_logging : Layout loggingParts where
  distinct := by decide
  apart := by simp [loggingParts]
  ext s s' same := by
    obtain ⟨level⟩ := s
    simp only [loggingParts, List.forall_mem_cons] at same
    obtain ⟨rfl, -⟩ := same
    rfl

def IsSection {σ : Type} (parts : List (Part σ)) (initial : σ) (v : Value) (s : σ) : Prop :=
  ∃ es, entriesOf (parts.map Part.key) v = some es ∧ ∀ p ∈ parts, p.IsGiven es initial s

theorem keyed_entriesOf {keys : List String} (distinct : keys.Nodup) {v : Value}
    (keyed : v.Keyed) {es : Entries} (h : entriesOf keys v = some es) : es.Keyed := by
  unfold entriesOf at h
  split at h
  · cases h
    cases keyed with
    | table distinct each => exact ⟨distinct, each⟩
  · cases h
    cases keyed with
    | array each =>
      constructor
      · rw [List.zip_eq_zip_take_min, List.map_fst_zip (by simp)]
        exact distinct.sublist (List.take_sublist _ _)
      · intro e member
        exact each e.2 (List.of_mem_zip member).2
  · cases h
    exact Entries.keyed_nil
  · cases h

theorem sectionOf_eq_ok {σ : Type} {parts : List (Part σ)} (h : Layout parts) (wanted : Wanted)
    (initial : σ) (v : Value) (s : σ) (keyed : v.Keyed) :
    sectionOf wanted (parts.map Part.field) initial v = .ok s ↔ IsSection parts initial v s := by
  have keys : keysOf (parts.map Part.field) = parts.map Part.key := by
    simp [keysOf, Part.field, field, Function.comp_def]
  rw [sectionOf_eq wanted h.distinct_fields, keys]
  unfold IsSection
  cases entries : entriesOf (parts.map Part.key) v with
  | none => simp
  | some es =>
    simp only [h.setEntries_eq_ok (keyed_entriesOf h.distinct keyed entries), Option.some.injEq,
      exists_eq_left']

def sectionParts : List (Part FileSettings) := [
  { key := "server", decode := sectionOf .server serverFields {}
    put := fun s x => { s with server := x }, get := FileSettings.server
    stands := IsSection serverParts {}
    get_put := fun _ _ => rfl, reads := sectionOf_eq_ok layout_server .server {} },
  { key := "relay", decode := sectionOf .relay relayFields {}
    put := fun s x => { s with relay := x }, get := FileSettings.relay
    stands := IsSection relayParts {}
    get_put := fun _ _ => rfl, reads := sectionOf_eq_ok layout_relay .relay {} },
  { key := "logging", decode := sectionOf .logging loggingFields {}
    put := fun s x => { s with logging := x }, get := FileSettings.logging
    stands := IsSection loggingParts {}
    get_put := fun _ _ => rfl, reads := sectionOf_eq_ok layout_logging .logging {} }]

theorem layout_sections : Layout sectionParts where
  distinct := by decide
  apart := by simp [sectionParts]
  ext s s' same := by
    obtain ⟨server, relay, logging⟩ := s
    simp only [sectionParts, List.forall_mem_cons] at same
    obtain ⟨rfl, rfl, rfl, -⟩ := same
    rfl

inductive Heading where
  | server
  | relay
  | logging
deriving DecidableEq, Repr

namespace Heading

def word : Heading → String
  | .server => "server"
  | .relay => "relay"
  | .logging => "logging"

def keys : Heading → List String
  | .server => ["host", "port", "backlog", "runtime", "max_connections"]
  | .relay => ["chunk_size"]
  | .logging => ["level"]

def entries? (h : Heading) (root : Entries) : Option Entries :=
  match root.get? h.word with
  | none => some []
  | some v => entriesOf h.keys v

def value? (h : Heading) (root : Entries) (key : String) : Option Value :=
  (h.entries? root).bind (Entries.get? key)

end Heading

/-- What a document says about the settings: what stands under each heading is a section, and
each of the seven values is read from its place or is the default. -/
structure Says (root : Entries) (f : FileSettings) : Prop where
  sections : ∀ h : Heading, (h.entries? root).isSome = true
  host : Given IsText (Heading.server.value? root "host") "0.0.0.0" f.server.host
  port : Given IsPort (Heading.server.value? root "port") 1234 f.server.port
  backlog : Given IsBacklog (Heading.server.value? root "backlog") 128 f.server.backlog
  runtime : Given IsRuntime (Heading.server.value? root "runtime") .serial f.server.runtime
  maxConnections :
    Given IsSize (Heading.server.value? root "max_connections") 1024 f.server.maxConnections
  chunkSize : Given IsSize (Heading.relay.value? root "chunk_size") 1024 f.relay.chunkSize
  level : Given IsText (Heading.logging.value? root "level") "info" f.logging.level

theorem given_section_iff {σ : Type} {parts : List (Part σ)} (layout : Layout parts) (h : Heading)
    (keys : parts.map Part.key = h.keys) (root : Entries) (initial s : σ) :
    Given (IsSection parts initial) (root.get? h.word) initial s ↔
      (h.entries? root).isSome = true ∧
        ∀ p ∈ parts, Given p.stands (h.value? root p.key) (p.get initial) (p.get s) := by
  unfold Heading.value? Heading.entries?
  cases found : root.get? h.word with
  | none =>
    simp only [Given, Option.isSome_some, Option.bind_some, true_and]
    constructor
    · rintro rfl p here
      rfl
    · intro said
      exact layout.ext s initial said
  | some v =>
    simp only [Given, IsSection, keys]
    cases entries : entriesOf h.keys v with
    | none => simp
    | some es => simp [Part.IsGiven, Given]

theorem decode_eq_ok {root : Entries} (keyed : root.Keyed) {f : FileSettings} :
    decode root = .ok f ↔ Says root f := by
  have parts := layout_sections.setEntries_eq_ok keyed {} f
  have server := given_section_iff layout_server .server rfl root {} f.server
  have relay := given_section_iff layout_relay .relay rfl root {} f.relay
  have logging := given_section_iff layout_logging .logging rfl root {} f.logging
  simp only [serverParts, List.forall_mem_cons] at server
  simp only [relayParts, List.forall_mem_cons] at relay
  simp only [loggingParts, List.forall_mem_cons] at logging
  simp only [sectionParts, List.forall_mem_cons, Part.IsGiven] at parts
  refine parts.trans ?_
  constructor
  · rintro ⟨first, second, third, -⟩
    obtain ⟨placed, host, port, backlog, runtime, connections, -⟩ := server.mp first
    obtain ⟨placed_relay, size, -⟩ := relay.mp second
    obtain ⟨placed_logging, level, -⟩ := logging.mp third
    refine ⟨?_, host, port, backlog, runtime, connections, size, level⟩
    intro h
    cases h with
    | server => exact placed
    | relay => exact placed_relay
    | logging => exact placed_logging
  · intro said
    refine ⟨server.mpr ⟨said.sections .server, ?_⟩, relay.mpr ⟨said.sections .relay, ?_⟩,
      logging.mpr ⟨said.sections .logging, ?_⟩, by simp⟩
    · exact ⟨said.host, said.port, said.backlog, said.runtime, said.maxConnections, by simp⟩
    · exact ⟨said.chunkSize, by simp⟩
    · exact ⟨said.level, by simp⟩

end TcpEcho.Schema
