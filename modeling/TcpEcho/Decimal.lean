/- Numbers in decimal digits: whole numbers, and floating-point numbers of 64 bits, held as a
   sign and an exact magnitude, each as the fewest digits that read back as it. -/
namespace TcpEcho.Decimal

def digitValue (c : Char) : Nat := c.toNat - '0'.toNat

def isDigit (c : Char) : Bool := '0' ≤ c && c ≤ '9'

def value (cs : List Char) : Nat := cs.foldl (fun n c => 10 * n + digitValue c) 0

def value? (cs : List Char) : Option Nat :=
  if cs ≠ [] ∧ cs.all isDigit then some (value cs) else none

def digits (n : Nat) : List Char := Nat.toDigits 10 n

def text (n : Nat) : String := String.ofList (digits n)

def signedDigits (n : Int) : List Char :=
  if n < 0 then '-' :: digits n.natAbs else digits n.natAbs

def signedText (n : Int) : String := String.ofList (signedDigits n)

end TcpEcho.Decimal

namespace TcpEcho

/-- The magnitude `significand * 2 ^ exponent`, infinity, or no number at all. -/
inductive Magnitude where
  | finite (significand : Nat) (exponent : Int)
  | infinite
  | undefined
deriving DecidableEq, Repr

structure Binary64 where
  negative : Bool
  magnitude : Magnitude
deriving DecidableEq, Repr

namespace Binary64

structure Ratio where
  num : Nat
  den : Nat
deriving DecidableEq, Repr

namespace Ratio

def scaled (n base : Nat) (e : Int) : Ratio :=
  if e < 0 then ⟨n, base.pow e.natAbs⟩ else ⟨n * base.pow e.natAbs, 1⟩

def inUnits (r : Ratio) (base : Nat) (e : Int) : Ratio :=
  if e < 0 then ⟨r.num * base.pow e.natAbs, r.den⟩ else ⟨r.num, r.den * base.pow e.natAbs⟩

def floor (r : Ratio) : Nat := r.num / r.den

def nearest (r : Ratio) : Nat :=
  let whole := r.num / r.den
  let twice := 2 * (r.num % r.den)
  if twice < r.den then whole
  else if r.den < twice then whole + 1
  else whole + whole % 2

def le (a b : Ratio) : Bool := a.num * b.den ≤ b.num * a.den

def lt (a b : Ratio) : Bool := a.num * b.den < b.num * a.den

end Ratio

def leastExponent : Int := -1074
def greatestExponent : Int := 971
def significandBound : Nat := 0x20000000000000

/-- The magnitude nearest to a positive fraction: the exponent is the least at which the
whole part stays below the bound. -/
def ofRatio (r : Ratio) : Magnitude :=
  let guess : Int := Int.ofNat r.num.log2 - Int.ofNat r.den.log2 - 54
  let exponents := [guess, guess + 1, guess + 2, guess + 3].map (max leastExponent ·)
  let exponent := (exponents.find? fun e => (r.inUnits 2 e).floor < significandBound).getD
    (guess + 3)
  let significand := (r.inUnits 2 exponent).nearest
  let (significand, exponent) :=
    if significand = significandBound then (significandBound / 2, exponent + 1)
    else (significand, exponent)
  if greatestExponent < exponent then .infinite else .finite significand exponent

/-- The magnitude nearest to `n * 10 ^ e`. Powers of ten far outside the range are told
by the number of digits alone. -/
def ofDecimal (n : Nat) (e : Int) : Magnitude :=
  if n = 0 then .finite 0 leastExponent
  else
    let size : Int := (Decimal.digits n).length + e
    if 400 < size then .infinite
    else if size < -400 then .finite 0 leastExponent
    else ofRatio (Ratio.scaled n 10 e)

end Binary64
end TcpEcho

namespace TcpEcho.Decimal

open Binary64 (Ratio)

/-- The fractions that round to a magnitude; the ends belong iff the significand is even. -/
structure Interval where
  low : Ratio
  high : Ratio
  closed : Bool
deriving DecidableEq, Repr

def interval (significand : Nat) (exponent : Int) : Interval :=
  let narrow := significand = Binary64.significandBound / 2 ∧ Binary64.leastExponent < exponent
  { low :=
      if narrow then Ratio.scaled (4 * significand - 1) 2 (exponent - 2)
      else Ratio.scaled (2 * significand - 1) 2 (exponent - 1)
    high := Ratio.scaled (2 * significand + 1) 2 (exponent - 1)
    closed := significand % 2 = 0 }

def Interval.holds (i : Interval) (r : Ratio) : Bool :=
  if i.closed then i.low.le r && r.le i.high else i.low.lt r && r.lt i.high

def leading (r : Ratio) : Int :=
  let guess : Int := (Int.ofNat r.num.log2 - Int.ofNat r.den.log2) * 30103 / 100000
  (([guess + 2, guess + 1, guess, guess - 1].find? fun e =>
    (Ratio.scaled 1 10 e).le r).getD (guess - 2))

/-- Of the two neighbours of `r` among the multiples of `10 ^ e` the nearest one inside the
interval, the greater of two equally near. -/
def neighbour (i : Interval) (r : Ratio) (e : Int) : Option Nat :=
  let scaled := r.inUnits 10 e
  let below := scaled.floor
  let inside (n : Nat) := i.holds (Ratio.scaled n 10 e)
  let twice := 2 * (scaled.num % scaled.den)
  if twice < scaled.den then
    if inside below then some below else if inside (below + 1) then some (below + 1) else none
  else
    if inside (below + 1) then some (below + 1) else if inside below then some below else none

/-- The shortest decimal `n * 10 ^ e` in the interval; seventeen digits always suffice.
A single digit rounded up to ten is the next power of ten. -/
def shortest (significand : Nat) (exponent : Int) : Nat × Int :=
  let r := Ratio.scaled significand 2 exponent
  let i := interval significand exponent
  let top := leading r
  let grids := (List.range 17).map fun k => top - Int.ofNat k
  let (n, e) := (grids.findSome? fun e => (neighbour i r e).map (·, e)).getD (0, 0)
  if n = 10 then (1, e + 1) else (n, e)

/-- Digits with a point placed by the power of ten, and at least one digit on either side. -/
def positional (n : Nat) (e : Int) : List Char :=
  let ds := digits n
  if 0 ≤ e then ds ++ List.replicate e.natAbs '0' ++ ['.', '0']
  else
    let places := e.natAbs
    let ds := List.replicate (places + 1 - ds.length) '0' ++ ds
    ds.take (ds.length - places) ++ '.' :: ds.drop (ds.length - places)

def floatText (x : Binary64) : String :=
  let sign := if x.negative then ['-'] else []
  match x.magnitude with
  | .undefined => "NaN"
  | .infinite => String.ofList (sign ++ ['i', 'n', 'f'])
  | .finite 0 _ => String.ofList (sign ++ ['0', '.', '0'])
  | .finite significand exponent =>
    let (n, e) := shortest significand exponent
    String.ofList (sign ++ positional n e)

end TcpEcho.Decimal
