import TcpEcho.Settings.Load
import TcpEcho.Proofs.Settings.Schema
import TcpEcho.Proofs.Text.Utf8
/- Which settings a command line and its file give together, and if none, what is at fault. The
   file is judged by itself, and the values only after the two have been put together. -/
namespace TcpEcho.Settings

open CommandLine (Options)
open Toml (Value Entries)
open Schema (Given IsText IsPort IsBacklog IsSize IsRuntime Heading Says)

/-- The document that a command line goes by: the one in the file that it names, or else an empty
one. -/
def IsDocument (read : FileReader) (config : Option (List UInt8)) (root : Entries) : Prop :=
  match config with
  | none => root = []
  | some path => ∃ text, read path = .ok (Utf8.encode text) ∧ Toml.parse? text = some root

def Fits (root : Entries) : Prop := ∃ f, Says root f

/-- A setting is that of the command line, or else that of the document or its default. -/
def Chosen {α : Type} (option : Option α) (stands : Value → α → Prop) (v? : Option Value)
    (initial x : α) : Prop :=
  match option with
  | some y => x = y
  | none => Given stands v? initial x

/-- Each of the seven settings is chosen for itself. -/
structure IsResolved (o : Options) (root : Entries) (s : Settings) : Prop where
  host : Chosen o.host IsText (Heading.server.value? root "host") "0.0.0.0" s.host
  port : Chosen o.port IsPort (Heading.server.value? root "port") 1234 s.port
  backlog : Chosen o.backlog IsBacklog (Heading.server.value? root "backlog") 128 s.backlog
  runtime : Chosen o.runtime IsRuntime (Heading.server.value? root "runtime") .serial s.runtime
  maxConnections : Chosen o.maxConnections IsSize
    (Heading.server.value? root "max_connections") 1024 s.maxConnections
  chunkSize : Chosen o.chunkSize IsSize (Heading.relay.value? root "chunk_size") 1024 s.chunkSize
  logLevel : Chosen o.logLevel IsText (Heading.logging.value? root "level") "info" s.logLevel

/-- The greatest number of permits is an eighth of the greatest number of 64 bits. -/
def Permitted (s : Settings) : Prop :=
  1 ≤ s.chunkSize.toNat ∧ 1 ≤ s.maxConnections.toNat ∧
    s.maxConnections.toNat ≤ (UInt64.size - 1) >>> 3

/-- The first of the bounds that settings are out of. -/
def Breaks (s : Settings) : InvalidSettings → Prop
  | .noChunkSize => s.chunkSize = 0
  | .noConnections => s.chunkSize ≠ 0 ∧ s.maxConnections = 0
  | .tooManyConnections => s.chunkSize ≠ 0 ∧ s.maxConnections ≠ 0 ∧
      (UInt64.size - 1) >>> 3 < s.maxConnections.toNat

theorem decodeText_eq_ok {read : FileReader} {path : List UInt8} {text : String} :
    decodeText (read path) = .ok text ↔ read path = .ok (Utf8.encode text) := by
  unfold decodeText
  cases brought : read path with
  | error f => simp
  | ok data =>
    rw [Except.ok.injEq, ← Utf8.decode?_eq_some_iff]
    cases decoded : Utf8.decode? data <;> simp [decoded]

theorem decodeText_eq_error {read : FileReader} {path : List UInt8} {f : Fault} :
    decodeText (read path) = .error f ↔ read path = .error f ∨
      ∃ data, read path = .ok data ∧ (∀ text, data ≠ Utf8.encode text) ∧
        f = .fixed .invalidData "stream did not contain valid UTF-8" := by
  unfold decodeText
  cases brought : read path with
  | error g => simp
  | ok data =>
    have meaning : (∀ text, data ≠ Utf8.encode text) ↔ Utf8.decode? data = none := by
      rw [Option.eq_none_iff_forall_ne_some]
      exact forall_congr' fun text => not_congr Utf8.decode?_eq_some_iff.symm
    simp only [Except.ok.injEq, exists_eq_left', meaning]
    cases Utf8.decode? data <;> simp [eq_comm]

theorem parse_eq_ok {text : String} {f : FileSettings} :
    FileSettings.parse text = .ok f ↔ ∃ root, Toml.parse? text = some root ∧ Says root f := by
  unfold FileSettings.parse
  cases parsed : Toml.parse? text with
  | none => simp
  | some root =>
    have decodes := Schema.decode_eq_ok (Toml.keyed_parse? parsed) (f := f)
    simp only [Option.some.injEq, exists_eq_left', ← decodes]
    cases Schema.decode root <;> simp [Except.mapError]

theorem parse_eq_syntaxError {text : String} :
    FileSettings.parse text = .error .syntaxError ↔ Toml.parse? text = none := by
  unfold FileSettings.parse
  cases Toml.parse? text with
  | none => simp
  | some root => cases decoded : Schema.decode root <;> simp [Except.mapError, decoded]

theorem parse_eq_misfit {text : String} :
    (∃ m, FileSettings.parse text = .error (.misfit m)) ↔
      ∃ root, Toml.parse? text = some root ∧ ¬ Fits root := by
  unfold FileSettings.parse Fits
  cases parsed : Toml.parse? text with
  | none => simp
  | some root =>
    simp only [Option.some.injEq, exists_eq_left', not_exists,
      ← Schema.decode_eq_ok (Toml.keyed_parse? parsed)]
    cases Schema.decode root <;> simp [Except.mapError]

theorem result_fromFile (read : FileReader) (path : List UInt8) :
    (fromFile read path).result = parseText path (decodeText (read path)) := rfl

theorem fromFile_eq_ok {read : FileReader} {path : List UInt8} {f : FileSettings} :
    (fromFile read path).result = .ok f ↔
      ∃ root, IsDocument read (some path) root ∧ Says root f := by
  unfold IsDocument
  rw [result_fromFile]
  constructor
  · intro h
    unfold parseText at h
    split at h
    · cases h
    · rename_i text brought
      cases parsed : FileSettings.parse text with
      | error e => simp [parsed, Except.mapError] at h
      | ok g =>
        simp only [parsed, Except.mapError, Except.ok.injEq] at h
        obtain ⟨root, document, said⟩ := parse_eq_ok.mp parsed
        exact ⟨root, ⟨text, decodeText_eq_ok.mp brought, document⟩, h ▸ said⟩
  · rintro ⟨root, ⟨text, brought, document⟩, said⟩
    rw [decodeText_eq_ok.mpr brought]
    simp only [parseText, parse_eq_ok.mpr ⟨root, document, said⟩, Except.mapError]

theorem fromFile_eq_unreadable {read : FileReader} {path place : List UInt8} {f : Fault} :
    (fromFile read path).result = .error (.unreadable place f) ↔
      path = place ∧ decodeText (read path) = .error f := by
  rw [result_fromFile]
  unfold parseText
  cases decodeText (read path) with
  | error g => simp
  | ok text => cases parsed : FileSettings.parse text <;> simp [Except.mapError, parsed]

theorem fromFile_eq_unusable {read : FileReader} {path place : List UInt8} {f : FileFault} :
    (fromFile read path).result = .error (.unusable place f) ↔ path = place ∧
      ∃ text, read path = .ok (Utf8.encode text) ∧ FileSettings.parse text = .error f := by
  simp only [← decodeText_eq_ok]
  rw [result_fromFile]
  unfold parseText
  cases decodeText (read path) with
  | error g => simp
  | ok text => cases parsed : FileSettings.parse text <;> simp [Except.mapError, parsed]

theorem fromFile_ne_invalid (read : FileReader) (path : List UInt8) (why : InvalidSettings) :
    (fromFile read path).result ≠ .error (.invalid why) := by
  rw [result_fromFile]
  unfold parseText
  cases decodeText (read path) with
  | error g => simp
  | ok text => cases parsed : FileSettings.parse text <;> simp [Except.mapError, parsed]

def contents (o : Options) (read : FileReader) : Except LoadError FileSettings :=
  o.config.elim (.ok {}) fun path => (fromFile read path).result

theorem load_eq_judge (o : Options) (read : FileReader) :
    load o read = judge o (contents o read) := by
  unfold load loading contents
  cases o.config <;> rfl

theorem opened_loading (o : Options) (read : FileReader) :
    (loading o read).opened = o.config.toList := by
  unfold loading
  cases o.config <;> rfl

/-- What is loaded depends on nothing but what is opened. -/
theorem load_congr {o : Options} {read read' : FileReader}
    (same : ∀ path ∈ (loading o read).opened, read path = read' path) :
    load o read = load o read' := by
  rw [opened_loading] at same
  rw [load_eq_judge, load_eq_judge]
  unfold contents
  cases named : o.config with
  | none => rfl
  | some path =>
    rw [Option.elim_some, Option.elim_some, result_fromFile, result_fromFile,
      same path (by simp [named])]

theorem contents_eq_ok {o : Options} {read : FileReader} {f : FileSettings} :
    contents o read = .ok f ↔ ∃ root, IsDocument read o.config root ∧ Says root f := by
  unfold contents
  cases named : o.config with
  | some path => exact fromFile_eq_ok
  | none =>
    have nothing : Schema.decode [] = .ok {} := rfl
    simp only [Option.elim_none, IsDocument, exists_eq_left]
    rw [← Schema.decode_eq_ok Toml.Entries.keyed_nil, nothing, Except.ok.injEq, Except.ok.injEq]

theorem load_eq_of_contents {o : Options} {read : FileReader} {f : FileSettings}
    (h : contents o read = .ok f) :
    load o read = ((merge o f).validate.mapError .invalid).map fun _ => merge o f := by
  rw [load_eq_judge, h, judge]
  cases (merge o f).validate <;> rfl

theorem load_eq_of_error {o : Options} {read : FileReader} {e : LoadError}
    (h : contents o read = .error e) : load o read = .error e := by
  rw [load_eq_judge, h, judge]

theorem given_unique {α : Type} {decode : Schema.Decoder α} {stands : Value → α → Prop}
    (reads : ∀ v x, decode v = .ok x ↔ stands v x) {v? : Option Value} {initial x y : α}
    (left : Given stands v? initial x) (right : Given stands v? initial y) : x = y := by
  cases v? with
  | none => exact left.trans right.symm
  | some v =>
    have first := (reads v x).mpr left
    have second := (reads v y).mpr right
    rw [first] at second
    cases second
    rfl

theorem chosen_iff {α : Type} {decode : Schema.Decoder α} {stands : Value → α → Prop}
    (reads : ∀ v x, decode v = .ok x ↔ stands v x) {v? : Option Value} {initial x y : α}
    (given : Given stands v? initial y) (option : Option α) :
    Chosen option stands v? initial x ↔ x = option.getD y := by
  cases option with
  | some z => rfl
  | none =>
    constructor
    · intro chosen
      exact given_unique reads chosen given
    · rintro rfl
      exact given

theorem isResolved_iff {root : Entries} {f : FileSettings} (said : Says root f) (o : Options)
    (s : Settings) : IsResolved o root s ↔ s = merge o f := by
  have host := chosen_iff Schema.text_eq_ok said.host o.host (x := s.host)
  have port := chosen_iff Schema.port_eq_ok said.port o.port (x := s.port)
  have backlog := chosen_iff Schema.backlog_eq_ok said.backlog o.backlog (x := s.backlog)
  have runtime := chosen_iff Schema.runtime_eq_ok said.runtime o.runtime (x := s.runtime)
  have connections := chosen_iff Schema.size_eq_ok said.maxConnections o.maxConnections
    (x := s.maxConnections)
  have size := chosen_iff Schema.size_eq_ok said.chunkSize o.chunkSize (x := s.chunkSize)
  have level := chosen_iff Schema.text_eq_ok said.level o.logLevel (x := s.logLevel)
  constructor
  · intro chosen
    obtain ⟨a, b, c, d, e, g, h⟩ := s
    simp only [merge, Settings.mk.injEq]
    exact ⟨host.mp chosen.host, port.mp chosen.port, size.mp chosen.chunkSize,
      backlog.mp chosen.backlog, runtime.mp chosen.runtime,
      connections.mp chosen.maxConnections, level.mp chosen.logLevel⟩
  · rintro rfl
    exact ⟨host.mpr rfl, port.mpr rfl, backlog.mpr rfl, runtime.mpr rfl, connections.mpr rfl,
      size.mpr rfl, level.mpr rfl⟩

theorem permitLimit_toNat : permitLimit.toNat = (UInt64.size - 1) >>> 3 := by decide

theorem validate_eq_ok {s : Settings} : s.validate = .ok () ↔ s.Permitted := by
  unfold validate Permitted
  rw [← permitLimit_toNat]
  simp only [← UInt64.toNat_inj, UInt64.lt_iff_toNat_lt, UInt64.toNat_zero]
  split
  · simp; omega
  · split
    · simp; omega
    · split
      · simp; omega
      · simp; omega

theorem validate_eq_error {s : Settings} {why : InvalidSettings} :
    s.validate = .error why ↔ s.Breaks why := by
  unfold validate Breaks
  rw [← permitLimit_toNat]
  simp only [UInt64.lt_iff_toNat_lt]
  by_cases chunk : s.chunkSize = 0
  · cases why <;> simp [chunk]
  by_cases nobody : s.maxConnections = 0
  · cases why <;> simp [chunk, nobody]
  by_cases many : permitLimit.toNat < s.maxConnections.toNat
  · cases why <;> simp [chunk, nobody, many]
  · cases why <;> simp [chunk, nobody, many]

theorem load_eq_ok {o : Options} {read : FileReader} {s : Settings} :
    load o read = .ok s ↔
      ∃ f, contents o read = .ok f ∧ s = merge o f ∧ s.validate = .ok () := by
  cases known : contents o read with
  | error e => simp [load_eq_of_error known]
  | ok f =>
    rw [load_eq_of_contents known]
    simp only [Except.ok.injEq, exists_eq_left']
    cases judged : (merge o f).validate with
    | error why =>
      simp only [Except.mapError, Except.map]
      constructor
      · intro h
        cases h
      · rintro ⟨rfl, fine⟩
        rw [judged] at fine
        cases fine
    | ok u =>
      simp only [Except.mapError, Except.map, Except.ok.injEq]
      constructor
      · rintro rfl
        exact ⟨rfl, judged⟩
      · rintro ⟨rfl, -⟩
        rfl

theorem contents_ne_invalid (o : Options) (read : FileReader) (why : InvalidSettings) :
    contents o read ≠ .error (.invalid why) := by
  unfold contents
  cases o.config with
  | none => simp
  | some path => exact fromFile_ne_invalid read path why

theorem load_eq_invalid {o : Options} {read : FileReader} {why : InvalidSettings} :
    load o read = .error (.invalid why) ↔
      ∃ f, contents o read = .ok f ∧ (merge o f).validate = .error why := by
  cases known : contents o read with
  | error e =>
    have other : e ≠ .invalid why := by
      rintro rfl
      exact contents_ne_invalid o read why known
    simp [load_eq_of_error known, other]
  | ok f =>
    rw [load_eq_of_contents known]
    simp only [Except.ok.injEq, exists_eq_left']
    cases (merge o f).validate <;> simp [Except.mapError, Except.map]

theorem load_eq_file_error {o : Options} {read : FileReader} {e : LoadError}
    (file : ∀ why, e ≠ .invalid why) :
    load o read = .error e ↔
      ∃ path, o.config = some path ∧ (fromFile read path).result = .error e := by
  have from_file : contents o read = .error e ↔
      ∃ path, o.config = some path ∧ (fromFile read path).result = .error e := by
    unfold contents
    cases o.config <;> simp
  rw [← from_file]
  cases known : contents o read with
  | error d => rw [load_eq_of_error known, Except.error.injEq, Except.error.injEq]
  | ok f =>
    rw [load_eq_of_contents known]
    cases (merge o f).validate with
    | error why => simpa [Except.mapError, Except.map] using Ne.symm (file why)
    | ok u => simp [Except.mapError, Except.map]

theorem load_eq_unreadable {o : Options} {read : FileReader} {path : List UInt8} {f : Fault} :
    load o read = .error (.unreadable path f) ↔
      o.config = some path ∧ decodeText (read path) = .error f := by
  rw [load_eq_file_error (by simp)]
  constructor
  · rintro ⟨place, named, failed⟩
    obtain ⟨rfl, cause⟩ := fromFile_eq_unreadable.mp failed
    exact ⟨named, cause⟩
  · rintro ⟨named, cause⟩
    exact ⟨path, named, fromFile_eq_unreadable.mpr ⟨rfl, cause⟩⟩

theorem load_eq_unusable {o : Options} {read : FileReader} {path : List UInt8} {f : FileFault} :
    load o read = .error (.unusable path f) ↔ o.config = some path ∧
      ∃ text, read path = .ok (Utf8.encode text) ∧ FileSettings.parse text = .error f := by
  rw [load_eq_file_error (by simp)]
  constructor
  · rintro ⟨place, named, failed⟩
    obtain ⟨rfl, cause⟩ := fromFile_eq_unusable.mp failed
    exact ⟨named, cause⟩
  · rintro ⟨named, cause⟩
    exact ⟨path, named, fromFile_eq_unusable.mpr ⟨rfl, cause⟩⟩

/-- Settings are loaded if the file that is named, if any, holds a document that fits and the
settings chosen from options and document are within their bounds, and then they are those. Else
the first fault is told: a file that cannot be read as text, a text that is no document or one
that does not fit, whatever the options, and only then the first bound that the chosen settings
break. -/
theorem load_outcome (o : Options) (read : FileReader) :
    (∀ s, load o read = .ok s ↔ ∃ root, IsDocument read o.config root ∧ Fits root ∧
      IsResolved o root s ∧ s.Permitted) ∧
    (∀ path f, load o read = .error (.unreadable path f) ↔ o.config = some path ∧
      (read path = .error f ∨ ∃ data, read path = .ok data ∧ (∀ text, data ≠ Utf8.encode text) ∧
        f = .fixed .invalidData "stream did not contain valid UTF-8")) ∧
    (∀ path, load o read = .error (.unusable path .syntaxError) ↔ o.config = some path ∧
      ∃ text, read path = .ok (Utf8.encode text) ∧ Toml.parse? text = none) ∧
    (∀ path, (∃ m, load o read = .error (.unusable path (.misfit m))) ↔ o.config = some path ∧
      ∃ root, IsDocument read o.config root ∧ ¬ Fits root) ∧
    (∀ why, load o read = .error (.invalid why) ↔ ∃ root s, IsDocument read o.config root ∧
      Fits root ∧ IsResolved o root s ∧ s.Breaks why) := by
  refine ⟨fun s => ?_, fun path f => ?_, fun path => ?_, fun path => ?_, fun why => ?_⟩
  · rw [load_eq_ok]
    simp only [contents_eq_ok, validate_eq_ok]
    constructor
    · rintro ⟨f, ⟨root, document, said⟩, merged, fine⟩
      exact ⟨root, document, ⟨f, said⟩, (isResolved_iff said o s).mpr merged, fine⟩
    · rintro ⟨root, document, ⟨f, said⟩, resolved, fine⟩
      exact ⟨f, ⟨root, document, said⟩, (isResolved_iff said o s).mp resolved, fine⟩
  · rw [load_eq_unreadable, decodeText_eq_error]
  · simp only [load_eq_unusable, parse_eq_syntaxError]
  · simp only [load_eq_unusable]
    constructor
    · rintro ⟨m, named, text, brought, failed⟩
      obtain ⟨root, document, misfit⟩ := parse_eq_misfit.mp ⟨m, failed⟩
      refine ⟨named, root, ?_, misfit⟩
      rw [named]
      exact ⟨text, brought, document⟩
    · rintro ⟨named, root, document, misfit⟩
      rw [named] at document
      obtain ⟨text, brought, parsed⟩ := document
      obtain ⟨m, failed⟩ := parse_eq_misfit.mpr ⟨root, parsed, misfit⟩
      exact ⟨m, named, text, brought, failed⟩
  · rw [load_eq_invalid]
    simp only [contents_eq_ok, validate_eq_error]
    constructor
    · rintro ⟨f, ⟨root, document, said⟩, broken⟩
      exact ⟨root, merge o f, document, ⟨f, said⟩, (isResolved_iff said o _).mpr rfl, broken⟩
    · rintro ⟨root, s, document, ⟨f, said⟩, resolved, broken⟩
      rw [(isResolved_iff said o s).mp resolved] at broken
      exact ⟨f, ⟨root, document, said⟩, broken⟩

end TcpEcho.Settings
