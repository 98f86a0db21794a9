import TcpEcho.CommandLine.Usage
import TcpEcho.Text.Utf8
/- The values of options: which words each option takes and what they mean. -/
namespace TcpEcho.CommandLine

open Decimal (isDigit digitValue)

/-- Adds up digits with a bound; the first character that is no digit or leads past the
bound decides. -/
def boundedValue (bound : Nat) : Nat → List Char → Except NumberFault Nat
  | n, [] => .ok n
  | n, c :: cs =>
    if !isDigit c then .error .invalidDigit
    else
      let m := 10 * n + digitValue c
      if bound < m then .error .tooLarge else boundedValue bound m cs

def unsigned (bound : Nat) : List Char → Except NumberFault Nat
  | [] => .error .empty
  | ['+'] => .error .invalidDigit
  | '+' :: cs => boundedValue bound 0 cs
  | cs => boundedValue bound 0 cs

/-- Below zero the bound lies one further out. -/
def signed (bound : Nat) : List Char → Except NumberFault Int
  | ['-'] => .error .invalidDigit
  | '-' :: cs =>
    match boundedValue (bound + 1) 0 cs with
    | .ok n => .ok (-(n : Int))
    | .error .tooLarge => .error .tooSmall
    | .error e => .error e
  | cs => (unsigned bound cs).map Int.ofNat

/-- A whole number of 64 bits that also lies in the range of the option. -/
def ranged (low high : Int) (cs : List Char) : Except NumberFault Int :=
  match signed 0x7FFFFFFFFFFFFFFF cs with
  | .error e => .error e
  | .ok n => if low ≤ n ∧ n ≤ high then .ok n else .error (.outside n low high)

def portValue (cs : List Char) : Except NumberFault UInt16 :=
  (ranged 0 65535 cs).map fun n => UInt16.ofNat n.toNat

def backlogValue (cs : List Char) : Except NumberFault Int32 :=
  (ranged (-2147483648) 2147483647 cs).map Int32.ofInt

def sizeValue (cs : List Char) : Except NumberFault UInt64 :=
  (unsigned 0xFFFFFFFFFFFFFFFF cs).map UInt64.ofNat

def textValue (w : Word) : Except UsageError String :=
  match Utf8.decode? w with
  | some s => .ok s
  | none => .error .notText

def numberValue {α : Type} (o : OptionName) (read : List Char → Except NumberFault α) (w : Word) :
    Except UsageError α :=
  match textValue w with
  | .error e => .error e
  | .ok s => (read s.toList).mapError (.badNumber o s)

def runtimeValue (w : Word) : Except UsageError Runtime :=
  match (Utf8.decode? w).bind Runtime.ofWord? with
  | some r => .ok r
  | none => .error (if w = [] then .missingValue .runtime else .unknownRuntime (Utf8.lossy w))

def pathValue (w : Word) : Except UsageError Word :=
  if w = [] then .error (.missingValue .config) else .ok w

structure Draft where
  config : Option Word := none
  host : Option String := none
  port : Option UInt16 := none
  chunkSize : Option UInt64 := none
  backlog : Option Int32 := none
  runtime : Option Runtime := none
  maxConnections : Option UInt64 := none
  logLevel : Option String := none
  target : Option String := none
  message : Option String := none
deriving DecidableEq, Repr

namespace Draft

def has (d : Draft) : OptionName → Bool
  | .config => d.config.isSome
  | .host => d.host.isSome
  | .port => d.port.isSome
  | .chunkSize => d.chunkSize.isSome
  | .backlog => d.backlog.isSome
  | .runtime => d.runtime.isSome
  | .maxConnections => d.maxConnections.isSome
  | .logLevel => d.logLevel.isSome
  | .target => d.target.isSome
  | .message => d.message.isSome

def put (d : Draft) (o : OptionName) (w : Word) : Except UsageError Draft :=
  match o with
  | .config => (pathValue w).map fun x => { d with config := some x }
  | .host => (textValue w).map fun x => { d with host := some x }
  | .port => (numberValue o portValue w).map fun x => { d with port := some x }
  | .chunkSize => (numberValue o sizeValue w).map fun x => { d with chunkSize := some x }
  | .backlog => (numberValue o backlogValue w).map fun x => { d with backlog := some x }
  | .runtime => (runtimeValue w).map fun x => { d with runtime := some x }
  | .maxConnections => (numberValue o sizeValue w).map fun x => { d with maxConnections := some x }
  | .logLevel => (textValue w).map fun x => { d with logLevel := some x }
  | .target => (textValue w).map fun x => { d with target := some x }
  | .message => (textValue w).map fun x => { d with message := some x }

/-- An option is given once at most. -/
def give (d : Draft) (o : OptionName) (w : Word) : Except UsageError Draft :=
  if d.has o then .error (.repeated o) else d.put o w

def probe (d : Draft) : Probe :=
  let usual : Probe := {}
  ⟨d.target.getD usual.target, d.message.getD usual.message⟩

def options (d : Draft) (probe : Option Probe) : Options where
  config := d.config
  host := d.host
  port := d.port
  chunkSize := d.chunkSize
  backlog := d.backlog
  runtime := d.runtime
  maxConnections := d.maxConnections
  logLevel := d.logLevel
  probe := probe

end Draft
end TcpEcho.CommandLine
