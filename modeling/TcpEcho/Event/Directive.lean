import TcpEcho.Event.Basic
import TcpEcho.Text.Classes
/- Directives say which events are shown. In full a directive has the form
   `target[span{field=value}]=level`; nearly all of it can be left out. -/
namespace TcpEcho

/-- A directive is about the events of the sources that begin with its target and that have
its field, or all events where it names none. It shows the most urgent ones, up to so many
levels. -/
structure Directive where
  target : Option String := none
  span : Option String := none
  field : Option String := none
  hasValue : Bool := false
  levels : Nat := 5
deriving DecidableEq, Repr

inductive DirectiveError where
  | malformed
  | unknownLevel
deriving DecidableEq, Repr

def DirectiveError.text : DirectiveError → String
  | .malformed => "invalid filter directive"
  | .unknownLevel =>
    "error parsing level filter: expected one of \"off\", \"error\", \"warn\", \"info\", " ++
      "\"debug\", \"trace\", or a number 0-5"

namespace Directive

def levelWords : List (String × Nat) :=
  [("off", 0), ("error", 1), ("warn", 2), ("info", 3), ("debug", 4), ("trace", 5)]

/-- Levels are words in either case, or numbers with a plus sign in front or without. -/
def levels? (cs : List Char) : Option Nat :=
  let digits := match cs with
    | '+' :: ds => ds
    | ds => ds
  match Decimal.value? digits with
  | some n => if n ≤ 5 then some n else none
  | none => (levelWords.find? fun w => w.1.toList = cs.map Char.toLower).map Prod.snd

inductive Place where
  | start
  | word (begin : Nat)
  | span (begin : Nat)
  | field (begin : Nat)
  | behindFields
  | behindSpan
  | level (begin : Nat)
deriving DecidableEq, Repr

def slice (piece : List Char) (first last : Nat) : List Char := (piece.take last).drop first

def readField (d : Directive) (cs : List Char) : Except DirectiveError Directive :=
  if cs = [] then .error .malformed
  else
    let name := cs.takeWhile (· ≠ '=')
    .ok { d with field := some (String.ofList name), hasValue := name.length < cs.length }

def step (piece : List Char) (i : Nat) (c : Char) (p : Place) (d : Directive) :
    Except DirectiveError (Place × Directive) :=
  match p with
  | .start =>
    if c = '[' then .ok (.span (i + 1), d)
    else if c = '-' ∨ c = ':' ∨ c = '_' ∨ Classes.isAlphanumeric c then .ok (.word i, d)
    else .error .malformed
  | .word b =>
    let target := some (String.ofList (slice piece b i))
    if c = '=' then .ok (.level (i + 1), { d with target })
    else if c = '[' then .ok (.span (i + 1), { d with target })
    else .ok (.word b, d)
  | .span b =>
    let name := slice piece b i
    if c = ']' then .ok (.behindSpan, { d with span := some (String.ofList name) })
    else if c = '\x7b' then
      .ok (.field (i + 1), if name = [] then d else { d with span := some (String.ofList name) })
    else .ok (.span b, d)
  | .field b =>
    if c = '\x7d' then (readField d (slice piece b i)).map fun d => (.behindFields, d)
    else .ok (.field b, d)
  | .behindFields => if c = ']' then .ok (.behindSpan, d) else .error .malformed
  | .behindSpan => if c = '=' then .ok (.level (i + 1), d) else .error .malformed
  | .level b => .ok (.level b, d)

/-- The directive when the piece is at its end. A word alone is a level, or else a target of
which everything is shown. -/
def conclude (piece : List Char) (p : Place) (d : Directive) : Except DirectiveError Directive :=
  match p with
  | .word b =>
    match levels? (piece.drop b) with
    | some n => .ok { d with levels := n }
    | none => .ok { d with target := some (String.ofList (piece.drop b)) }
  | .level b =>
    if piece.drop b = [] then .ok d
    else
      match levels? (piece.drop b) with
      | some n => .ok { d with levels := n }
      | none => .error .unknownLevel
  | .behindSpan => .ok d
  | _ => .error .malformed

def scan (piece : List Char) : Nat → Place → Directive → List Char → Except DirectiveError Directive
  | _, p, d, [] => conclude piece p d
  | i, p, d, c :: cs =>
    match step piece i c p d with
    | .error e => .error e
    | .ok (p, d) => scan piece (i + 1) p d cs

/-- White space around a piece is skipped, but places count from the first character that is
none and are looked up in the whole piece. -/
def parse (piece : List Char) : Except DirectiveError Directive :=
  let inner := (piece.dropWhile Classes.isSpace).reverse.dropWhile Classes.isSpace
  scan piece 0 .start {} inner.reverse

/-- Directives with a span or the value of a field are about spans only. -/
def isAboutEvents (d : Directive) : Bool := d.span.isNone && !d.hasValue

def covers (d : Directive) (source : String) (e : Event) : Bool :=
  d.target.all (fun t => t.toList.isPrefixOf source.toList) &&
    d.field.all fun f => f = "message" || e.fields.any fun p => p.1 = f

def detail (d : Directive) : Nat × Nat × List Char :=
  (d.target.elim 0 fun t => t.length + 1, d.field.elim 0 fun _ => 1, d.field.elim [] String.toList)

def isAsDetailedAs (a b : Directive) : Bool :=
  let (at₁, af, an) := a.detail
  let (bt, bf, bn) := b.detail
  bt < at₁ || (bt = at₁ && (bf < af || (bf = af && !decide (an < bn))))

end Directive
end TcpEcho
