import TcpEcho.Settings.Basic
import TcpEcho.Toml.Document
import TcpEcho.Text.Quoted
import TcpEcho.Decimal
/- The settings that a TOML document gives. Entries are taken in the order of the document,
   the first that does not fit is the one reported, and keys without a meaning are passed. -/
namespace TcpEcho

/-- A value as a report describes it. -/
inductive Found where
  | integer (n : Int)
  | float (x : Binary64)
  | boolean (b : Bool)
  | text (s : String)
  | sequence
  | map
deriving DecidableEq, Repr

/-- What a place in the file asks for. -/
inductive Wanted where
  | text
  | port
  | backlog
  | size
  | server
  | relay
  | logging
deriving DecidableEq, Repr

/-- The kind of a value in the place of a runtime's (empty) table. -/
inductive Payload where
  | text
  | integer
  | float
  | boolean
  | moment
  | array
  | tables
deriving DecidableEq, Repr

/-- Why a value does not fit. -/
inductive Misfit where
  | wrongType (found : Found) (wanted : Wanted)
  | outOfRange (n : Int) (wanted : Wanted)
  | unknownRuntime (name : String)
  | noRuntime
  | manyRuntimes
  | noRuntimeKind
  | filledRuntime
  | runtimePayload (found : Payload)
deriving DecidableEq, Repr

namespace Found

def ofValue : Toml.Value → Found
  | .text s => .text s
  | .integer n => .integer n
  | .float x => .float x
  | .boolean b => .boolean b
  | .moment _ => .map
  | .array _ _ => .sequence
  | .table _ _ => .map

def message : Found → String
  | .integer n => "integer `" ++ Decimal.signedText n ++ "`"
  | .float x => "floating point `" ++ Decimal.floatText x ++ "`"
  | .boolean b => "boolean `" ++ (if b then "true" else "false") ++ "`"
  | .text s => "string " ++ Quoted.encode s
  | .sequence => "sequence"
  | .map => "map"

end Found

def Wanted.message : Wanted → String
  | .text => "a string"
  | .port => "u16"
  | .backlog => "i32"
  | .size => "usize"
  | .server => "struct ServerConfig"
  | .relay => "struct RelayConfig"
  | .logging => "struct LoggingConfig"

def Payload.message : Payload → String
  | .text => "string"
  | .integer => "integer"
  | .float => "float"
  | .boolean => "boolean"
  | .moment => "datetime"
  | .array => "array"
  | .tables => "array of tables"

def Misfit.message : Misfit → String
  | .wrongType found wanted =>
    "invalid type: " ++ found.message ++ ", expected " ++ wanted.message
  | .outOfRange n wanted =>
    "invalid value: " ++ (Found.integer n).message ++ ", expected " ++ wanted.message
  | .unknownRuntime name =>
    "unknown variant `" ++ name ++ "`, expected `serial` or `concurrent`"
  | .noRuntime => "wanted exactly 1 element, found 0 elements"
  | .manyRuntimes => "wanted exactly 1 element, more than 1 element"
  | .noRuntimeKind => "wanted string or table"
  | .filledRuntime => "expected empty table"
  | .runtimePayload found => "expected table, found " ++ found.message

namespace Schema

open Toml (Value Entries)

abbrev Decoder (α : Type) := Value → Except Misfit α

def misplaced (v : Value) (wanted : Wanted) : Misfit := .wrongType (Found.ofValue v) wanted

def text : Decoder String
  | .text s => .ok s
  | v => .error (misplaced v .text)

def whole (wanted : Wanted) (low high : Int) : Decoder Int
  | .integer n => if low ≤ n ∧ n ≤ high then .ok n else .error (.outOfRange n wanted)
  | v => .error (misplaced v wanted)

def port : Decoder UInt16 := fun v =>
  (whole .port 0 65535 v).map fun n => UInt16.ofNat n.toNat

def backlog : Decoder Int32 := fun v =>
  (whole .backlog (-2147483648) 2147483647 v).map Int32.ofInt

def size : Decoder UInt64 := fun v =>
  (whole .size 0 18446744073709551615 v).map fun n => UInt64.ofNat n.toNat

/-- A runtime named as the only key of a table must have an empty table for its value. -/
def payload : Decoder Unit
  | .table _ [] => .ok ()
  | .table _ _ => .error .filledRuntime
  | .text _ => .error (.runtimePayload .text)
  | .integer _ => .error (.runtimePayload .integer)
  | .float _ => .error (.runtimePayload .float)
  | .boolean _ => .error (.runtimePayload .boolean)
  | .moment _ => .error (.runtimePayload .moment)
  | .array .listed _ => .error (.runtimePayload .array)
  | .array .tables _ => .error (.runtimePayload .tables)

def runtimeNamed (s : String) : Except Misfit Runtime :=
  match Runtime.ofWord? s with
  | some r => .ok r
  | none => .error (.unknownRuntime s)

def runtime : Decoder Runtime
  | .text s => runtimeNamed s
  | .table _ [] => .error .noRuntime
  | .table _ [(k, v)] => do
    let r ← runtimeNamed k
    payload v
    pure r
  | .table _ _ => .error .manyRuntimes
  | _ => .error .noRuntimeKind

structure Field (σ : Type) where
  key : String
  set : Value → σ → Except Misfit σ

def field {α σ : Type} (key : String) (decode : Decoder α) (put : σ → α → σ) : Field σ :=
  ⟨key, fun v s => (decode v).map (put s)⟩

variable {σ : Type}

/-- One entry of a table; a key that no field has is passed. -/
def setEntry (fields : List (Field σ)) (s : σ) (entry : String × Value) : Except Misfit σ :=
  match fields.find? fun f => f.key = entry.1 with
  | some f => f.set entry.2 s
  | none => .ok s

def setEntries (fields : List (Field σ)) (es : Entries) (s : σ) : Except Misfit σ :=
  es.foldlM (setEntry fields) s

/-- Values without keys belong to the fields in their order; values beyond the last field
are passed. -/
def setItems (fields : List (Field σ)) (items : List Value) (s : σ) : Except Misfit σ :=
  (fields.zip items).foldlM (fun s p => p.1.set p.2 s) s

/-- A section is a table or the list of its values; a date or time stands for an empty one. -/
def sectionOf (wanted : Wanted) (fields : List (Field σ)) (empty : σ) : Decoder σ
  | .table _ es => setEntries fields es empty
  | .moment _ => .ok empty
  | .array _ items => setItems fields items empty
  | v => .error (misplaced v wanted)

def serverFields : List (Field ServerSection) := [
  field "host" text fun s x => { s with host := x },
  field "port" port fun s x => { s with port := x },
  field "backlog" backlog fun s x => { s with backlog := x },
  field "runtime" runtime fun s x => { s with runtime := x },
  field "max_connections" size fun s x => { s with maxConnections := x }]

def relayFields : List (Field RelaySection) := [
  field "chunk_size" size fun s x => { s with chunkSize := x }]

def loggingFields : List (Field LoggingSection) := [
  field "level" text fun s x => { s with level := x }]

def sections : List (Field FileSettings) := [
  field "server" (sectionOf .server serverFields {}) fun s x => { s with server := x },
  field "relay" (sectionOf .relay relayFields {}) fun s x => { s with relay := x },
  field "logging" (sectionOf .logging loggingFields {}) fun s x => { s with logging := x }]

def decode (root : Entries) : Except Misfit FileSettings := setEntries sections root {}

end Schema

inductive FileFault where
  | syntaxError
  | misfit (m : Misfit)
deriving DecidableEq, Repr

namespace FileFault

def stage : FileFault → String
  | .syntaxError => "syntax"
  | .misfit _ => "schema"

def message : FileFault → String
  | .syntaxError => "syntax error"
  | .misfit m => m.message

end FileFault

def FileSettings.parse (s : String) : Except FileFault FileSettings :=
  match Toml.parse? s with
  | none => .error .syntaxError
  | some root => (Schema.decode root).mapError .misfit

end TcpEcho
