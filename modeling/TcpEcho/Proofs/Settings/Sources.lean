import TcpEcho.Proofs.CommandLine.Mentions
import TcpEcho.Proofs.Settings.Notation
import TcpEcho.Proofs.Settings.RoundTrip
/- A setting means the same from either source. What the option for it takes is what its key in a
   settings file takes, and both put the same value into settings that else are the initial ones. -/
namespace TcpEcho

open CommandLine (OptionName Options Mention UsageError Word)
open Toml (Value Entries)
open Schema (Heading Says)

inductive NumberSetting where
  | port
  | backlog
  | chunkSize
  | maxConnections
deriving DecidableEq, Repr

namespace NumberSetting

def option : NumberSetting → OptionName
  | .port => .port
  | .backlog => .backlog
  | .chunkSize => .chunkSize
  | .maxConnections => .maxConnections

def heading : NumberSetting → Heading
  | .chunkSize => .relay
  | _ => .server

def key : NumberSetting → String
  | .port => "port"
  | .backlog => "backlog"
  | .chunkSize => "chunk_size"
  | .maxConnections => "max_connections"

def held (s : Settings) : NumberSetting → Int
  | .port => s.port.toNat
  | .backlog => s.backlog.toInt
  | .chunkSize => s.chunkSize.toNat
  | .maxConnections => s.maxConnections.toNat

/-- The initial settings but for a number, as far as there is room for it. -/
def settings (n : Int) : NumberSetting → Settings
  | .port => { Settings.initial with port := UInt16.ofNat n.toNat }
  | .backlog => { Settings.initial with backlog := Int32.ofInt n }
  | .chunkSize => { Settings.initial with chunkSize := UInt64.ofNat n.toNat }
  | .maxConnections => { Settings.initial with maxConnections := UInt64.ofNat n.toNat }

end NumberSetting

inductive TextSetting where
  | host
  | runtime
  | logLevel
deriving DecidableEq, Repr

namespace TextSetting

def option : TextSetting → OptionName
  | .host => .host
  | .runtime => .runtime
  | .logLevel => .logLevel

def heading : TextSetting → Heading
  | .logLevel => .logging
  | _ => .server

def key : TextSetting → String
  | .host => "host"
  | .runtime => "runtime"
  | .logLevel => "level"

def held (s : Settings) : TextSetting → String
  | .host => s.host
  | .runtime => s.runtime.word
  | .logLevel => s.logLevel

/-- The initial settings but for a text, as far as it names something. -/
def settings (t : String) : TextSetting → Settings
  | .host => { Settings.initial with host := t }
  | .runtime => { Settings.initial with runtime := (Runtime.ofWord? t).getD .serial }
  | .logLevel => { Settings.initial with logLevel := t }

end TextSetting

/-- A setting with what it is to be. -/
inductive Assignment where
  | number (k : NumberSetting) (n : Int)
  | text (k : TextSetting) (t : String)
deriving DecidableEq, Repr

namespace Assignment

def option : Assignment → OptionName
  | .number k _ => k.option
  | .text k _ => k.option

def heading : Assignment → Heading
  | .number k _ => k.heading
  | .text k _ => k.heading

def key : Assignment → String
  | .number k _ => k.key
  | .text k _ => k.key

def word : Assignment → Word
  | .number _ n => CommandLine.ofText (Decimal.signedText n)
  | .text _ t => CommandLine.ofText t

def value : Assignment → Value
  | .number _ n => .integer n
  | .text _ t => .text t

def mention (a : Assignment) : Mention := ⟨a.option, a.word, .nameEquals⟩

def fileText (a : Assignment) : String :=
  let spelled := match a with
    | .number _ n => Decimal.signedDigits n
    | .text _ t => Toml.quoted t
  Toml.written [(a.heading.word, [(a.key, spelled)])]

def root (a : Assignment) : Entries := [(a.heading.word, .table .header [(a.key, a.value)])]

/-- A text that sets the one key, in whatever notation, and no other key that is known. -/
def IsAloneIn (a : Assignment) (text : String) : Prop :=
  ∃ root, Toml.parse? text = some root ∧ ∀ h : Heading, h.Alike root a.root

/-- Whole numbers of a settings file have 63 bits and a sign. -/
def IsWritable : Assignment → Prop
  | .number _ n => -0x8000000000000000 ≤ n ∧ n < 0x8000000000000000
  | .text _ _ => True

def settings : Assignment → Settings
  | .number k n => k.settings n
  | .text k t => k.settings t

/-- Settings have exactly what is assigned. -/
def IsHeldBy (a : Assignment) (s : Settings) : Prop :=
  match a with
  | .number k n => k.held s = n
  | .text k t => k.held s = t

instance (a : Assignment) (s : Settings) : Decidable (a.IsHeldBy s) :=
  match a with
  | .number k n => inferInstanceAs (Decidable (k.held s = n))
  | .text k t => inferInstanceAs (Decidable (k.held s = t))

end Assignment

instance (s : Settings) : Decidable s.Permitted :=
  inferInstanceAs (Decidable (1 ≤ s.chunkSize.toNat ∧ 1 ≤ s.maxConnections.toNat ∧
    s.maxConnections.toNat ≤ (UInt64.size - 1) >>> 3))

def Settings.Loads (read : FileReader) (words : List Word) (s : Settings) : Prop :=
  ∃ o, CommandLine.parse words = .ok o ∧ Settings.load o read = .ok s

/-- The two ways of a setting into settings, through an option and through a file. Each has a reader
of its own; these agree on what they take, and what they read is put where it belongs. -/
structure Route (a : Assignment) where
  {α : Type}
  reader : Except UsageError α
  decoder : Except Misfit α
  draft : α → CommandLine.Draft
  file : α → FileSettings
  /-- What has to be read if the settings are to have what is assigned. -/
  wanted : α
  put : ({} : CommandLine.Draft).put a.option a.word = reader.map draft := by rfl
  plain : ∀ x, (draft x).config = none := by intro x; rfl
  merge : ∀ x, Settings.merge ((draft x).options none) {} = Settings.merge {} (file x) := by
    intro x; rfl
  settings : a.settings = Settings.merge {} (file wanted) := by rfl
  decode : Schema.decode a.root = decoder.map file
  agree : ∀ x, reader = .ok x ↔ decoder = .ok x
  reads : ∀ x, decoder = .ok x ↔ a.IsHeldBy (Settings.merge {} (file x))
  unique : ∀ x, a.IsHeldBy (Settings.merge {} (file x)) → x = wanted

/- Readers of the command line -/

namespace CommandLine

theorem numberValue_eq_ok {α : Type} {o : OptionName} {read : List Char → Except NumberFault α}
    {cs : List Char} {x : α} :
    numberValue o read (ofText (String.ofList cs)) = .ok x ↔ read cs = .ok x := by
  simp only [numberValue, textValue_ofText, String.toList_ofList]
  cases read cs <;> simp [Except.mapError]

theorem ranged_agrees {low high n : Int} (least : -0x8000000000000000 ≤ n)
    (most : n < 0x8000000000000000) (wanted : Wanted) (m : Int) :
    ranged low high (Decimal.signedDigits n) = .ok m ↔
      Schema.whole wanted low high (.integer n) = .ok m := by
  have read : signed 0x7FFFFFFFFFFFFFFF (Decimal.signedDigits n) = .ok n :=
    signed_signedDigits (by omega) (by omega)
  rw [Schema.whole_eq_ok, Value.integer.injEq]
  simp only [ranged, read]
  split
  · rename_i within
    rw [Except.ok.injEq]
    constructor
    · rintro rfl
      exact ⟨rfl, within⟩
    · intro h
      exact h.1
  · rename_i outside
    constructor
    · intro h
      cases h
    · rintro ⟨rfl, within⟩
      exact absurd within outside

theorem unsigned_agrees {n : Int} (most : n < 0x8000000000000000) (m : Nat) :
    unsigned 0xFFFFFFFFFFFFFFFF (Decimal.signedDigits n) = .ok m ↔
      Schema.whole .size 0 18446744073709551615 (.integer n) = .ok (m : Int) := by
  rw [Schema.whole_eq_ok, Value.integer.injEq]
  unfold Decimal.signedDigits
  by_cases negative : n < 0
  · have refused : unsigned 0xFFFFFFFFFFFFFFFF ('-' :: Decimal.digits n.natAbs) =
        .error .invalidDigit := by
      simp [unsigned, boundedValue, Decimal.isDigit]
    rw [if_pos negative, refused]
    constructor
    · intro h
      cases h
    · intro h
      omega
  · have read : unsigned 0xFFFFFFFFFFFFFFFF (Decimal.digits n.natAbs) = .ok n.natAbs :=
      unsigned_digits (by omega)
    rw [if_neg negative, read, Except.ok.injEq]
    omega

theorem runtimeValue_eq_ok {t : String} {r : Runtime} :
    runtimeValue (ofText t) = .ok r ↔ Runtime.ofWord? t = some r := by
  have read : Utf8.decode? (ofText t) = some t := Utf8.decode?_encode t
  unfold runtimeValue
  rw [read, Option.bind_some]
  cases Runtime.ofWord? t <;> simp

end CommandLine

theorem map_agrees {ε δ α β : Type} {x : Except ε α} {y : Except δ α} (f : α → β)
    (agree : ∀ a, x = .ok a ↔ y = .ok a) (b : β) : x.map f = .ok b ↔ y.map f = .ok b := by
  rw [Schema.map_eq_ok, Schema.map_eq_ok]
  simp only [agree]

theorem portValue_agrees {n : Int} (least : -0x8000000000000000 ≤ n)
    (most : n < 0x8000000000000000) (p : UInt16) :
    CommandLine.portValue (Decimal.signedDigits n) = .ok p ↔ Schema.port (.integer n) = .ok p :=
  map_agrees _ (CommandLine.ranged_agrees least most .port) p

theorem backlogValue_agrees {n : Int} (least : -0x8000000000000000 ≤ n)
    (most : n < 0x8000000000000000) (b : Int32) :
    CommandLine.backlogValue (Decimal.signedDigits n) = .ok b ↔
      Schema.backlog (.integer n) = .ok b :=
  map_agrees _ (CommandLine.ranged_agrees least most .backlog) b

theorem sizeValue_agrees {n : Int} (most : n < 0x8000000000000000) (k : UInt64) :
    CommandLine.sizeValue (Decimal.signedDigits n) = .ok k ↔ Schema.size (.integer n) = .ok k := by
  unfold CommandLine.sizeValue Schema.size
  rw [Schema.map_eq_ok, Schema.map_eq_ok]
  simp only [CommandLine.unsigned_agrees most]
  constructor
  · rintro ⟨m, read, rfl⟩
    exact ⟨m, read, rfl⟩
  · rintro ⟨m, read, rfl⟩
    have low := ((Schema.whole_eq_ok _).mp read).2.1
    refine ⟨m.toNat, ?_, rfl⟩
    rw [Int.toNat_of_nonneg low]
    exact read

theorem textValue_agrees (t x : String) :
    CommandLine.textValue (CommandLine.ofText t) = .ok x ↔ Schema.text (.text t) = .ok x := by
  rw [CommandLine.textValue_ofText, Schema.text, Except.ok.injEq, Except.ok.injEq]

theorem runtimeValue_agrees (t : String) (r : Runtime) :
    CommandLine.runtimeValue (CommandLine.ofText t) = .ok r ↔
      Schema.runtime (.text t) = .ok r := by
  rw [CommandLine.runtimeValue_eq_ok, Schema.ofWord?_eq_some]
  exact Schema.runtimeNamed_eq_ok.symm

theorem map_map {ε α β γ : Type} (x : Except ε α) (f : α → β) (g : β → γ) :
    (x.map f).map g = x.map fun a => g (f a) := by
  cases x <;> rfl

namespace Schema

theorem setEntries_single {σ : Type} (fields : List (Field σ)) (e : String × Value) (s : σ) :
    setEntries fields [e] s = setEntry fields s e := by
  simp [setEntries]

theorem decode_server (k : String) (v : Value) :
    decode [(Heading.server.word, .table .header [(k, v)])] =
      (setEntry serverFields {} (k, v)).map fun x => { server := x } := by
  rw [← setEntries_single serverFields]
  exact setEntries_single sections _ _

theorem decode_relay (k : String) (v : Value) :
    decode [(Heading.relay.word, .table .header [(k, v)])] =
      (setEntry relayFields {} (k, v)).map fun x => { relay := x } := by
  rw [← setEntries_single relayFields]
  exact setEntries_single sections _ _

theorem decode_logging (k : String) (v : Value) :
    decode [(Heading.logging.word, .table .header [(k, v)])] =
      (setEntry loggingFields {} (k, v)).map fun x => { logging := x } := by
  rw [← setEntries_single loggingFields]
  exact setEntries_single sections _ _

section Exactly

variable {n : Int} {t : String}

theorem port_integer (p : UInt16) : port (.integer n) = .ok p ↔ (p.toNat : Int) = n := by
  rw [port_eq_ok, IsPort, Value.integer.injEq, eq_comm]

theorem backlog_integer (b : Int32) : backlog (.integer n) = .ok b ↔ b.toInt = n := by
  rw [backlog_eq_ok, IsBacklog, Value.integer.injEq, eq_comm]

theorem size_integer (k : UInt64) : size (.integer n) = .ok k ↔ (k.toNat : Int) = n := by
  rw [size_eq_ok, IsSize, Value.integer.injEq, eq_comm]

theorem text_text (x : String) : text (.text t) = .ok x ↔ x = t := by
  rw [text, Except.ok.injEq, eq_comm]

theorem runtime_text (r : Runtime) : runtime (.text t) = .ok r ↔ r.word = t := by
  rw [eq_comm (b := t)]
  exact runtimeNamed_eq_ok

theorem eq_ofNat_of_size {k : UInt64} (same : (k.toNat : Int) = n) : k = UInt64.ofNat n.toNat := by
  rw [← same, Int.toNat_natCast, UInt64.ofNat_toNat]

end Exactly

end Schema

namespace Route

variable {n : Int}

def port (least : -0x8000000000000000 ≤ n) (most : n < 0x8000000000000000) :
    Route (.number .port n) where
  reader := CommandLine.numberValue .port CommandLine.portValue
    (CommandLine.ofText (Decimal.signedText n))
  decoder := Schema.port (.integer n)
  draft x := { port := some x }
  file x := { server := { port := x } }
  wanted := UInt16.ofNat n.toNat
  decode := (Schema.decode_server "port" _).trans (map_map _ _ _)
  agree x := CommandLine.numberValue_eq_ok.trans (portValue_agrees least most x)
  reads := Schema.port_integer
  unique x held := by
    have same : (x.toNat : Int) = n := held
    rw [← same, Int.toNat_natCast, UInt16.ofNat_toNat]

def backlog (least : -0x8000000000000000 ≤ n) (most : n < 0x8000000000000000) :
    Route (.number .backlog n) where
  reader := CommandLine.numberValue .backlog CommandLine.backlogValue
    (CommandLine.ofText (Decimal.signedText n))
  decoder := Schema.backlog (.integer n)
  draft x := { backlog := some x }
  file x := { server := { backlog := x } }
  wanted := Int32.ofInt n
  decode := (Schema.decode_server "backlog" _).trans (map_map _ _ _)
  agree x := CommandLine.numberValue_eq_ok.trans (backlogValue_agrees least most x)
  reads := Schema.backlog_integer
  unique x held := by
    have same : x.toInt = n := held
    rw [← same, Int32.ofInt_toInt]

def chunkSize (most : n < 0x8000000000000000) : Route (.number .chunkSize n) where
  reader := CommandLine.numberValue .chunkSize CommandLine.sizeValue
    (CommandLine.ofText (Decimal.signedText n))
  decoder := Schema.size (.integer n)
  draft x := { chunkSize := some x }
  file x := { relay := { chunkSize := x } }
  wanted := UInt64.ofNat n.toNat
  decode := (Schema.decode_relay "chunk_size" _).trans (map_map _ _ _)
  agree x := CommandLine.numberValue_eq_ok.trans (sizeValue_agrees most x)
  reads := Schema.size_integer
  unique _ := Schema.eq_ofNat_of_size

def maxConnections (most : n < 0x8000000000000000) : Route (.number .maxConnections n) where
  reader := CommandLine.numberValue .maxConnections CommandLine.sizeValue
    (CommandLine.ofText (Decimal.signedText n))
  decoder := Schema.size (.integer n)
  draft x := { maxConnections := some x }
  file x := { server := { maxConnections := x } }
  wanted := UInt64.ofNat n.toNat
  decode := (Schema.decode_server "max_connections" _).trans (map_map _ _ _)
  agree x := CommandLine.numberValue_eq_ok.trans (sizeValue_agrees most x)
  reads := Schema.size_integer
  unique _ := Schema.eq_ofNat_of_size

def host (t : String) : Route (.text .host t) where
  reader := CommandLine.textValue (CommandLine.ofText t)
  decoder := Schema.text (.text t)
  draft x := { host := some x }
  file x := { server := { host := x } }
  wanted := t
  decode := (Schema.decode_server "host" (.text t)).trans rfl
  agree := textValue_agrees t
  reads := Schema.text_text
  unique _ held := held

def logLevel (t : String) : Route (.text .logLevel t) where
  reader := CommandLine.textValue (CommandLine.ofText t)
  decoder := Schema.text (.text t)
  draft x := { logLevel := some x }
  file x := { logging := { level := x } }
  wanted := t
  decode := (Schema.decode_logging "level" (.text t)).trans rfl
  agree := textValue_agrees t
  reads := Schema.text_text
  unique _ held := held

def runtime (t : String) : Route (.text .runtime t) where
  reader := CommandLine.runtimeValue (CommandLine.ofText t)
  decoder := Schema.runtime (.text t)
  draft x := { runtime := some x }
  file x := { server := { runtime := x } }
  wanted := (Runtime.ofWord? t).getD .serial
  decode := (Schema.decode_server "runtime" _).trans (map_map _ _ _)
  agree := runtimeValue_agrees t
  reads := Schema.runtime_text
  unique x held := by
    have same : x.word = t := held
    rw [← same, Schema.ofWord?_eq_some.mpr rfl]
    rfl

/-- Every assignment that can be written to a file has its route. -/
def ofWritable : (a : Assignment) → a.IsWritable → Route a
  | .number .port _, writable => port writable.1 writable.2
  | .number .backlog _, writable => backlog writable.1 writable.2
  | .number .chunkSize _, writable => chunkSize writable.2
  | .number .maxConnections _, writable => maxConnections writable.2
  | .text .host t, _ => host t
  | .text .logLevel t, _ => logLevel t
  | .text .runtime t, _ => runtime t

end Route

namespace CommandLine

theorem parse_mention {m : Mention} (fits : m.fits = true) (level : m.option.level = .server) :
    parse m.words =
      ((({} : Draft).put m.option m.value).map (·.options none)).mapError .usage := by
  have each : ∀ k ∈ [m], k.fits = true := by
    intro k member
    rw [List.mem_singleton.mp member]
    exact fits
  have levels : ∀ k ∈ [m], k.option.level = .server := by
    intro k member
    rw [List.mem_singleton.mp member]
    exact level
  have read := readServer_mentions each levels
  have single : Draft.giveAll {} ([m].map Mention.given) = ({} : Draft).put m.option m.value := by
    have fresh : ({} : Draft).has m.option = false := by cases m.option <;> rfl
    simp only [List.map_cons, List.map_nil, Draft.giveAll, Mention.given, Draft.give_fresh fresh]
    cases ({} : Draft).put m.option m.value <;> rfl
  rw [List.flatMap_singleton, single] at read
  exact read

end CommandLine

theorem NumberSetting.isBare_key (k : NumberSetting) : Toml.IsBare k.key := by
  cases k <;> decide

theorem TextSetting.isBare_key (k : TextSetting) : Toml.IsBare k.key := by
  cases k <;> decide

namespace Assignment

variable {a : Assignment}

theorem level_option (a : Assignment) : a.option.level = .server := by
  cases a with
  | number k n => cases k <;> rfl
  | text k t => cases k <;> rfl

theorem parse?_fileText (writable : a.IsWritable) : Toml.parse? a.fileText = some a.root := by
  have heading : Toml.IsBare a.heading.word := by
    cases a.heading <;> decide
  have key : Toml.IsBare a.key := by
    cases a with
    | number k n => exact k.isBare_key
    | text k t => exact k.isBare_key
  have once : ∀ t ∈ [(a.heading.word, [(a.key, a.value)])], (t.2.map Prod.fst).Nodup := by
    intro t member
    rw [List.mem_singleton.mp member]
    exact List.nodup_singleton a.key
  cases a with
  | number k n =>
    have spells := Toml.spells_signedDigits writable.1 writable.2
    exact Toml.parse?_written (.cons ⟨rfl, heading, .cons ⟨rfl, key, spells⟩ .nil⟩ .nil)
      (List.nodup_singleton _) once
  | text k t =>
    have spells := Toml.spells_quoted t
    exact Toml.parse?_written (.cons ⟨rfl, heading, .cons ⟨rfl, key, spells⟩ .nil⟩ .nil)
      (List.nodup_singleton _) once

theorem isAloneIn_fileText (writable : a.IsWritable) : a.IsAloneIn a.fileText := by
  refine ⟨a.root, parse?_fileText writable, ?_⟩
  intro h
  have tabled : ∃ es, h.table? a.root = some es := by
    unfold Heading.table? root
    by_cases here : a.heading.word = h.word
    · rw [Entries.get?_cons_self (e := (a.heading.word, _)) here]
      exact ⟨_, rfl⟩
    · rw [Entries.get?_cons_of_ne (e := (a.heading.word, _)) here]
      exact ⟨[], rfl⟩
  obtain ⟨es, found⟩ := tabled
  exact .tables found found fun k _ => Value.Same.rel_refl (es.get? k)

def Gives (a : Assignment) (s : Settings) : Prop :=
  s = a.settings ∧ a.IsHeldBy s ∧ s.Permitted

theorem gives_iff (r : Route a) (s : Settings) : a.Gives s ↔
    ∃ x, r.decoder = .ok x ∧ s = Settings.merge {} (r.file x) ∧ s.validate = .ok () := by
  unfold Gives
  rw [Settings.validate_eq_ok]
  constructor
  · rintro ⟨rfl, held, permitted⟩
    rw [r.settings] at held permitted ⊢
    exact ⟨r.wanted, (r.reads _).mpr held, rfl, permitted⟩
  · rintro ⟨x, read, rfl, permitted⟩
    have held := (r.reads x).mp read
    obtain rfl := r.unique x held
    exact ⟨r.settings.symm, held, permitted⟩

theorem loads_option (r : Route a) (read : FileReader) (s : Settings) :
    Settings.Loads read a.mention.words s ↔ a.Gives s := by
  unfold Settings.Loads
  rw [CommandLine.parse_mention rfl a.level_option, gives_iff r]
  have put : ({} : CommandLine.Draft).put a.mention.option a.mention.value =
      r.reader.map r.draft := r.put
  have plain : ∀ x, Settings.load ((r.draft x).options none) read = .ok s ↔
      s = Settings.merge {} (r.file x) ∧ s.validate = .ok () := by
    intro x
    have nothing : Settings.contents ((r.draft x).options none) read = .ok {} := by
      unfold Settings.contents
      rw [show ((r.draft x).options none).config = none from r.plain x]
      rfl
    rw [Settings.load_eq_ok, nothing]
    simp only [Except.ok.injEq, exists_eq_left', r.merge x]
  rw [put, map_map]
  constructor
  · rintro ⟨o, parsed, loaded⟩
    cases taken : r.reader with
    | error e =>
      rw [taken] at parsed
      cases parsed
    | ok x =>
      rw [taken] at parsed
      cases parsed
      exact ⟨x, (r.agree x).mp taken, (plain x).mp loaded⟩
  · rintro ⟨x, taken, loaded⟩
    rw [(r.agree x).mpr taken]
    exact ⟨_, rfl, (plain x).mpr loaded⟩

theorem parse_alone {text : String} (writable : a.IsWritable) (alone : a.IsAloneIn text)
    (r : Route a) (f : FileSettings) :
    FileSettings.parse text = .ok f ↔ ∃ x, r.decoder = .ok x ∧ r.file x = f := by
  obtain ⟨root, document, alike⟩ := alone
  have keyed := Toml.keyed_parse? (parse?_fileText writable)
  have same := Schema.says_iff_of_alike (Toml.keyed_parse? document) keyed alike f
  rw [Settings.parse_eq_ok, document]
  simp only [Option.some.injEq, exists_eq_left']
  rw [same, ← Schema.decode_eq_ok keyed, r.decode, Schema.map_eq_ok]

theorem loads_file (r : Route a) (writable : a.IsWritable) {read : FileReader} {m : Mention}
    (config : m.option = .config) (fits : m.fits = true) (named : m.value ≠ []) {text : String}
    (file : read m.value = .ok (Utf8.encode text)) (alone : a.IsAloneIn text) (s : Settings) :
    Settings.Loads read m.words s ↔ a.Gives s := by
  have put : ({} : CommandLine.Draft).put m.option m.value =
      .ok { config := some m.value } := by
    rw [config]
    simp only [CommandLine.Draft.put, CommandLine.pathValue_ok named]
    rfl
  have parsed : CommandLine.parse m.words = .ok { config := some m.value } := by
    rw [CommandLine.parse_mention fits (by rw [config]; rfl), put]
    rfl
  have contents : ∀ f, Settings.contents { config := some m.value } read = .ok f ↔
      FileSettings.parse text = .ok f := by
    intro f
    simp only [Settings.contents, Option.elim_some, Settings.result_fromFile, Settings.parseText,
      Settings.decodeText_eq_ok.mpr file]
    cases FileSettings.parse text <;> simp [Except.mapError]
  unfold Settings.Loads
  rw [parsed, gives_iff r]
  simp only [Except.ok.injEq, exists_eq_left', Settings.load_eq_ok, contents,
    parse_alone writable alone r]
  constructor
  · rintro ⟨f, ⟨x, taken, rfl⟩, merged, fine⟩
    exact ⟨x, taken, merged, fine⟩
  · rintro ⟨x, taken, merged, fine⟩
    exact ⟨r.file x, ⟨x, taken, rfl⟩, merged, fine⟩

/-- An option with no file gives settings if a file that sets the key of the setting alone does,
and then the same: the initial ones but for exactly what is assigned. The plainest text of such a
file is the one with no other entry, and the words that name the file may be spelled in any way. -/
theorem option_eq_file (a : Assignment) (writable : a.IsWritable) :
    a.IsAloneIn a.fileText ∧
    ∀ (read read' : FileReader) (m : Mention) (text : String) (s : Settings),
      m.option = .config → m.fits = true → m.value ≠ [] →
      read' m.value = .ok (Utf8.encode text) → a.IsAloneIn text →
      (Settings.Loads read a.mention.words s ↔ Settings.Loads read' m.words s) ∧
      (Settings.Loads read a.mention.words s ↔
        s = a.settings ∧ a.IsHeldBy s ∧ s.Permitted) := by
  refine ⟨isAloneIn_fileText writable, ?_⟩
  intro read read' m text s config fits named file alone
  have route := Route.ofWritable a writable
  have option := loads_option route read s
  exact ⟨option.trans (loads_file route writable config fits named file alone s).symm, option⟩

def named : Mention := ⟨.config, CommandLine.ofText "echo.toml", .letterJoined⟩

theorem option_eq_file_at_bounds :
    Settings.Loads (fun _ => .error .noSuchFile) [CommandLine.ofText "--backlog=-2147483648"]
      { Settings.initial with backlog := -2147483648 } ∧
    Settings.Loads (fun _ => .ok (Utf8.encode "[server]\nbacklog = -2147483648\n"))
      [CommandLine.ofText "-cecho.toml"] { Settings.initial with backlog := -2147483648 } ∧
    ∀ s, ¬ Settings.Loads (fun _ => .ok (Utf8.encode "[server]\nport = 65536\n"))
      [CommandLine.ofText "-cecho.toml"] s := by
  obtain ⟨alone, low⟩ := option_eq_file (.number .backlog (-2147483648)) ⟨by decide, by decide⟩
  obtain ⟨alone', high⟩ := option_eq_file (.number .port 65536) ⟨by decide, by decide⟩
  have text : fileText (.number .backlog (-2147483648)) = "[server]\nbacklog = -2147483648\n" := by
    decide +kernel
  have text' : fileText (.number .port 65536) = "[server]\nport = 65536\n" := by decide +kernel
  have words : named.words = [CommandLine.ofText "-cecho.toml"] := by decide +kernel
  have word : (mention (.number .backlog (-2147483648))).words =
      [CommandLine.ofText "--backlog=-2147483648"] := by decide +kernel
  rw [text] at alone
  rw [text'] at alone'
  obtain ⟨either, gives⟩ := low (fun _ => .error .noSuchFile)
    (fun _ => .ok (Utf8.encode "[server]\nbacklog = -2147483648\n")) named _
    { Settings.initial with backlog := -2147483648 } rfl (by decide +kernel) (by decide +kernel)
    rfl alone
  have loads := gives.mpr ⟨rfl, by decide, by decide⟩
  rw [words] at either
  refine ⟨word ▸ loads, either.mp loads, ?_⟩
  intro s loads
  obtain ⟨either, gives⟩ := high (fun _ => .error .noSuchFile)
    (fun _ => .ok (Utf8.encode "[server]\nport = 65536\n")) named _ s rfl (by decide +kernel)
    (by decide +kernel) rfl alone'
  rw [words] at either
  obtain ⟨rfl, held, -⟩ := gives.mp (either.mpr loads)
  exact absurd held (by decide)

end Assignment

end TcpEcho
