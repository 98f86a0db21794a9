import Mathlib.Data.List.Perm.Basic
import TcpEcho.Settings.Written
import TcpEcho.Proofs.Settings.Load
import TcpEcho.Proofs.Toml.Reading
/- Settings are the same when they have been written to a file and read back, in whatever order
   the file has its sections and their entries. -/
namespace TcpEcho

open Toml (Value Entries Entry Section IsBare Enters Tells)
open Schema (Says Given Heading)

namespace Schema

theorem Heading.entries?_of_mem {root es : Entries} (keyed : root.Keyed) {h : Heading}
    {form : Toml.TableForm} (there : (h.word, .table form es) ∈ root) :
    h.entries? root = some es := by
  have found := (Entries.get?_eq_some keyed.distinct).mpr there
  simp only [Heading.entries?, found, entriesOf]

theorem Heading.value?_of_mem {root es : Entries} (keyed : root.Keyed) {h : Heading}
    {form : Toml.TableForm} (there : (h.word, .table form es) ∈ root) {k : String} {v : Value}
    (entry : (k, v) ∈ es) : h.value? root k = some v := by
  have inner := keyed.inner ((Entries.get?_eq_some keyed.distinct).mpr there)
  rw [Heading.value?, Heading.entries?_of_mem keyed there, Option.bind_some]
  exact (Entries.get?_eq_some inner.distinct).mpr entry

end Schema

def ServerSection.values (s : ServerSection) : Entries := [
  ("host", .text s.host),
  ("port", .integer s.port.toNat),
  ("backlog", .integer s.backlog.toInt),
  ("runtime", .text s.runtime.word),
  ("max_connections", .integer s.maxConnections.toNat)
]

def RelaySection.values (s : RelaySection) : Entries :=
  [("chunk_size", .integer s.chunkSize.toNat)]

def LoggingSection.values (s : LoggingSection) : Entries := [("level", .text s.level)]

theorem enters_quoted {k : String} (bare : IsBare k) (s : String) :
    Enters (k, Toml.quoted s) (k, .text s) := ⟨rfl, bare, Toml.spells_quoted s⟩

theorem enters_digits {k : String} (bare : IsBare k) {n : Nat} (high : n < 0x8000000000000000) :
    Enters (k, Decimal.digits n) (k, .integer n) := ⟨rfl, bare, Toml.spells_digits high⟩

theorem ServerSection.enters (s : ServerSection)
    (writable : s.maxConnections < 0x8000000000000000) :
    List.Forall₂ Enters s.entries s.values := by
  have port := s.port.toNat_lt
  have low := s.backlog.minValue_le_toInt
  have high := s.backlog.toInt_lt
  have connections : s.maxConnections.toNat < 0x8000000000000000 := writable
  simp at low
  have backlog : Enters ("backlog", Decimal.signedDigits s.backlog.toInt)
      ("backlog", .integer s.backlog.toInt) :=
    ⟨rfl, (by decide : IsBare "backlog"), Toml.spells_signedDigits (by omega) (by omega)⟩
  refine .cons (enters_quoted (by decide) s.host) (.cons (enters_digits (by decide) (by omega)) ?_)
  refine .cons backlog (.cons (enters_quoted (by decide) s.runtime.word) ?_)
  exact .cons (enters_digits (by decide) connections) .nil

theorem RelaySection.enters (s : RelaySection) (writable : s.chunkSize < 0x8000000000000000) :
    List.Forall₂ Enters s.entries s.values := by
  have size : s.chunkSize.toNat < 0x8000000000000000 := writable
  exact .cons (enters_digits (by decide) size) .nil

theorem LoggingSection.enters (s : LoggingSection) : List.Forall₂ Enters s.entries s.values :=
  .cons (enters_quoted (by decide) s.level) .nil

theorem tells_of_perm {k : String} (bare : IsBare k) {es written : List Entry} {ds : Entries}
    (order : written.Perm es) (enters : List.Forall₂ Enters es ds) :
    ∃ ds', Tells (k, written) (k, ds') ∧ ds'.Perm ds := by
  obtain ⟨ds', entries, same⟩ := List.perm_comp_forall₂ order enters
  exact ⟨ds', ⟨rfl, bare, entries⟩, same⟩

namespace FileSettings

def values (f : FileSettings) : Heading → Entries
  | .server => f.server.values
  | .relay => f.relay.values
  | .logging => f.logging.values

/-- Tables that say under each heading what the settings are there. -/
structure AreTables (f : FileSettings) (ts : List (String × Entries)) : Prop where
  names : (ts.map Prod.fst).Nodup
  keys : ∀ t ∈ ts, (t.2.map Prod.fst).Nodup
  each : ∀ h : Heading, ∃ es, (h.word, es) ∈ ts ∧ es.Perm (f.values h)

theorem tells_of_isArranged {f : FileSettings} {ss : List Section} (writable : f.IsWritable)
    (arranged : f.IsArranged ss) : ∃ ts, List.Forall₂ Tells ss ts ∧ f.AreTables ts := by
  obtain ⟨server, relay, logging, server_order, relay_order, logging_order, order⟩ := arranged
  obtain ⟨es₁, tells₁, same₁⟩ := tells_of_perm (k := "server") (by decide) server_order
    (f.server.enters writable.1)
  obtain ⟨es₂, tells₂, same₂⟩ := tells_of_perm (k := "relay") (by decide) relay_order
    (f.relay.enters writable.2)
  obtain ⟨es₃, tells₃, same₃⟩ := tells_of_perm (k := "logging") (by decide) logging_order
    f.logging.enters
  obtain ⟨ts, told, same⟩ := List.perm_comp_forall₂ order
    (.cons tells₁ (.cons tells₂ (.cons tells₃ .nil)))
  refine ⟨ts, told, ?_⟩
  constructor
  · rw [(same.map Prod.fst).nodup_iff]
    exact (by decide : ["server", "relay", "logging"].Nodup)
  · intro t member
    have known := same.mem_iff.mp member
    simp only [List.mem_cons, List.not_mem_nil, or_false] at known
    rcases known with rfl | rfl | rfl
    · rw [(same₁.map Prod.fst).nodup_iff]
      exact (by decide : ["host", "port", "backlog", "runtime", "max_connections"].Nodup)
    · rw [(same₂.map Prod.fst).nodup_iff]
      exact List.nodup_singleton _
    · rw [(same₃.map Prod.fst).nodup_iff]
      exact List.nodup_singleton _
  · intro h
    cases h with
    | server => exact ⟨es₁, same.mem_iff.mpr (by simp [Heading.word]), same₁⟩
    | relay => exact ⟨es₂, same.mem_iff.mpr (by simp [Heading.word]), same₂⟩
    | logging => exact ⟨es₃, same.mem_iff.mpr (by simp [Heading.word]), same₃⟩

theorem AreTables.says {f : FileSettings} {ts : List (String × Entries)} (h : f.AreTables ts)
    (keyed : Entries.Keyed (ts.map Toml.asTable)) : Says (ts.map Toml.asTable) f := by
  have under : ∀ (h : Heading) {k : String} {v : Value}, (k, v) ∈ f.values h →
      h.value? (ts.map Toml.asTable) k = some v := by
    intro heading k v entry
    obtain ⟨es, there, order⟩ := h.each heading
    exact Heading.value?_of_mem keyed (List.mem_map_of_mem (f := Toml.asTable) there)
      (order.mem_iff.mpr entry)
  constructor
  · intro heading
    obtain ⟨es, there, -⟩ := h.each heading
    rw [Heading.entries?_of_mem keyed (List.mem_map_of_mem (f := Toml.asTable) there)]
    rfl
  · rw [under .server (v := .text f.server.host) (by simp [values, ServerSection.values])]
    rfl
  · rw [under .server (v := .integer f.server.port.toNat)
      (by simp [values, ServerSection.values])]
    rfl
  · rw [under .server (v := .integer f.server.backlog.toInt)
      (by simp [values, ServerSection.values])]
    rfl
  · rw [under .server (v := .text f.server.runtime.word)
      (by simp [values, ServerSection.values])]
    exact Or.inl rfl
  · rw [under .server (v := .integer f.server.maxConnections.toNat)
      (by simp [values, ServerSection.values])]
    rfl
  · rw [under .relay (v := .integer f.relay.chunkSize.toNat)
      (by simp [values, RelaySection.values])]
    rfl
  · rw [under .logging (v := .text f.logging.level) (by simp [values, LoggingSection.values])]
    rfl

/-- Settings that have been written are read back as they were. -/
theorem parse_written (f : FileSettings) (ss : List Section) (writable : f.IsWritable)
    (arranged : f.IsArranged ss) : FileSettings.parse (Toml.written ss) = .ok f := by
  obtain ⟨ts, told, tables⟩ := tells_of_isArranged writable arranged
  have document := Toml.parse?_written told tables.names tables.keys
  have said := tables.says (Toml.keyed_parse? document)
  exact Settings.parse_eq_ok.mpr ⟨_, document, said⟩

def extremes : FileSettings where
  server := {
    host := "\"\\\r\n\x00\x7f é😀#="
    port := 65535
    backlog := -2147483648
    runtime := .concurrent
    maxConnections := 0x7FFFFFFFFFFFFFFF
  }
  relay := { chunkSize := 0 }
  logging := { level := "" }

theorem parse_written_reversed : extremes.IsWritable ∧
    extremes.IsArranged [("logging", extremes.logging.entries),
      ("relay", extremes.relay.entries), ("server", extremes.server.entries.reverse)] ∧
    FileSettings.parse (Toml.written [("logging", extremes.logging.entries),
      ("relay", extremes.relay.entries), ("server", extremes.server.entries.reverse)]) =
        .ok extremes := by
  have writable : extremes.IsWritable := ⟨by decide, by decide⟩
  have arranged : extremes.IsArranged [("logging", extremes.logging.entries),
      ("relay", extremes.relay.entries), ("server", extremes.server.entries.reverse)] :=
    ⟨_, _, _, List.reverse_perm _, List.Perm.refl _, List.Perm.refl _,
      List.reverse_perm [("server", extremes.server.entries.reverse),
        ("relay", extremes.relay.entries), ("logging", extremes.logging.entries)]⟩
  exact ⟨writable, arranged, parse_written extremes _ writable arranged⟩

end FileSettings

end TcpEcho
