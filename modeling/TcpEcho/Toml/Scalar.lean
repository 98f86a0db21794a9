import TcpEcho.Toml.Value
import TcpEcho.Toml.Text
/- The values of TOML that are written as one word: truth values, whole numbers,
   floating-point numbers, dates and times. -/
namespace TcpEcho.Toml

open Decimal (isDigit)

/-- Digits in a row, single underscores allowed between two of them. -/
def spaced (digit : Char → Bool) : List Char → Bool
  | [] => false
  | [c] => digit c
  | c :: '_' :: cs => digit c && spaced digit cs
  | c :: cs => digit c && spaced digit cs

def withoutUnderscores (cs : List Char) : List Char := cs.filter (· ≠ '_')

def valueInBase (base : Nat) (cs : List Char) : Nat :=
  cs.foldl (fun n c => base * n + (hexValue c).getD 0) 0

def wholePart (cs : List Char) : Bool := spaced isDigit cs && (cs.head? ≠ some '0' || cs = ['0'])

def signed : List Char → Bool × List Char
  | '+' :: cs => (false, cs)
  | '-' :: cs => (true, cs)
  | cs => (false, cs)

def negated (negative : Bool) (n : Int) : Int := if negative then -n else n

/-- Whole numbers have 64 bits and a sign. -/
def inRange (n : Int) : Option Int :=
  if -0x8000000000000000 ≤ n ∧ n < 0x8000000000000000 then some n else none

def inBase (base : Nat) (digit : Char → Bool) (cs : List Char) : Option Int :=
  if spaced digit cs then inRange (valueInBase base (withoutUnderscores cs)) else none

def integer? : List Char → Option Int
  | '0' :: 'x' :: cs => inBase 16 (fun c => (hexValue c).isSome) cs
  | '0' :: 'o' :: cs => inBase 8 (fun c => '0' ≤ c && c ≤ '7') cs
  | '0' :: 'b' :: cs => inBase 2 (fun c => c = '0' || c = '1') cs
  | cs =>
    let (negative, ds) := signed cs
    if wholePart ds then inRange (negated negative (Decimal.value (withoutUnderscores ds)))
    else none

def exponent? (cs : List Char) : Option Int :=
  let (negative, ds) := signed cs
  if spaced isDigit ds then some (negated negative (Decimal.value (withoutUnderscores ds)))
  else none

def isExponentLetter (c : Char) : Bool := c = 'e' || c = 'E'

/-- Digits with a point, an exponent or both, as digits and a power of ten. -/
def fraction? (cs : List Char) : Option (Nat × Int) :=
  let (mantissa, rest) := cs.span fun c => !isExponentLetter c
  let (whole, places) := mantissa.span (· ≠ '.')
  if !wholePart whole then none
  else
    let exponent := match rest with
      | [] => some 0
      | _ :: ds => exponent? ds
    match places, rest with
    | [], [] => none
    | [], _ => exponent.map fun e => (Decimal.value (withoutUnderscores whole), e)
    | _ :: ds, _ =>
      if spaced isDigit ds then
        let ds := withoutUnderscores ds
        exponent.map fun e => (Decimal.value (withoutUnderscores whole ++ ds), e - ds.length)
      else none

/-- A floating-point number. One too great to be held is refused, but not one too small. -/
def float? (cs : List Char) : Option Binary64 :=
  let (negative, cs) := signed cs
  if cs = ['i', 'n', 'f'] then some ⟨negative, .infinite⟩
  else if cs = ['n', 'a', 'n'] then some ⟨negative, .undefined⟩
  else
    match fraction? cs with
    | none => none
    | some (n, e) =>
      let x : Binary64 := ⟨negative, Binary64.ofDecimal n e⟩
      if x = ⟨false, .infinite⟩ then none else some x

def isLeapYear (y : Nat) : Bool := y % 4 = 0 && (y % 100 ≠ 0 || y % 400 = 0)

def daysIn (year month : Nat) : Nat :=
  if month = 2 then (if isLeapYear year then 29 else 28)
  else if month = 4 ∨ month = 6 ∨ month = 9 ∨ month = 11 then 30
  else 31

def between (low high : Nat) (cs : List Char) : Bool :=
  match Decimal.value? cs with
  | some n => low ≤ n && n ≤ high
  | none => false

def isDate : List Char → Bool
  | [y₁, y₂, y₃, y₄, '-', m₁, m₂, '-', d₁, d₂] =>
    match Decimal.value? [y₁, y₂, y₃, y₄], Decimal.value? [m₁, m₂] with
    | some year, some month =>
      1 ≤ month && month ≤ 12 && between 1 (daysIn year month) [d₁, d₂]
    | _, _ => false
  | _ => false

def isHourMinute (h₁ h₂ m₁ m₂ : Char) : Bool := between 0 23 [h₁, h₂] && between 0 59 [m₁, m₂]

/-- What may follow the minute of a time: the second with any digits behind a point, and
where it is allowed a distance from universal time. -/
def isSecondPart (offset : List Char → Bool) : List Char → Bool
  | ':' :: s₁ :: s₂ :: rest =>
    between 0 60 [s₁, s₂] &&
      match rest with
      | '.' :: ds => (ds.takeWhile isDigit ≠ []) && offset (ds.dropWhile isDigit)
      | _ => offset rest
  | _ => false

def isTime (offset : List Char → Bool) : List Char → Bool
  | h₁ :: h₂ :: ':' :: m₁ :: m₂ :: rest => isHourMinute h₁ h₂ m₁ m₂ && isSecondPart offset rest
  | _ => false

def isOffset : List Char → Bool
  | [] => true
  | ['Z'] => true
  | ['z'] => true
  | [sign, h₁, h₂, ':', m₁, m₂] => (sign = '+' || sign = '-') && isHourMinute h₁ h₂ m₁ m₂
  | _ => false

def isMoment (cs : List Char) : Bool :=
  isDate cs || isTime (· = []) cs ||
    match cs.splitAt 10 with
    | (date, delimiter :: time) =>
      (delimiter = 'T' || delimiter = 't') && isDate date && isTime isOffset time
    | _ => false

def ofWord (w : List Char) : Option Value :=
  if w = ['t', 'r', 'u', 'e'] then some (.boolean true)
  else if w = ['f', 'a', 'l', 's', 'e'] then some (.boolean false)
  else if isMoment w then some (.moment (String.ofList w))
  else
    match float? w with
    | some x => some (.float x)
    | none => (integer? w).map .integer

def isWordChar (c : Char) : Bool :=
  c.isAlphanum || c = '+' || c = '-' || c = '_' || c = '.' || c = ':'

def startsTime : List Char → Bool
  | h₁ :: h₂ :: ':' :: _ => between 0 23 [h₁, h₂]
  | _ => false

/-- A value of one word; a date and its time may also stand a space apart. -/
def scalar (cs : List Char) : Option (Value × List Char) :=
  let (w, rest) := cs.span isWordChar
  match isDate w, rest with
  | true, ' ' :: later =>
    let (t, after) := later.span isWordChar
    if startsTime t then
      if isTime isOffset t then some (.moment (String.ofList (w ++ ' ' :: t)), after) else none
    else some (.moment (String.ofList w), rest)
  | _, _ => (ofWord w).map (·, rest)

end TcpEcho.Toml
