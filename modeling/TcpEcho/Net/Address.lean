import TcpEcho.Decimal
/- Internet addresses of both families: how their texts are read and written. -/
namespace TcpEcho

structure IPv4 where
  a : UInt8
  b : UInt8
  c : UInt8
  d : UInt8
deriving DecidableEq, Repr

structure IPv6 where
  groups : List UInt16
  eight : groups.length = 8
deriving DecidableEq, Repr

inductive Address where
  | v4 (a : IPv4)
  | v6 (a : IPv6)
deriving DecidableEq, Repr

structure Endpoint where
  address : Address
  port : UInt16
deriving DecidableEq, Repr

namespace Address

open Decimal (isDigit)

def hexDigitValue (c : Char) : Option Nat :=
  if '0' ≤ c ∧ c ≤ '9' then some (c.toNat - 48)
  else if 'a' ≤ c ∧ c ≤ 'f' then some (c.toNat - 87)
  else if 'A' ≤ c ∧ c ≤ 'F' then some (c.toNat - 55)
  else none

def isHexDigit (c : Char) : Bool := (hexDigitValue c).isSome

def octet (cs : List Char) : Option (UInt8 × List Char) :=
  let (ds, rest) := cs.span isDigit
  if ds = [] ∨ 3 < ds.length ∨ (ds.head? = some '0' ∧ ds ≠ ['0']) ∨ 255 < Decimal.value ds then none
  else some (UInt8.ofNat (Decimal.value ds), rest)

def pointOctet : List Char → Option (UInt8 × List Char)
  | '.' :: cs => octet cs
  | _ => none

def dotted (cs : List Char) : Option (IPv4 × List Char) :=
  match octet cs with
  | none => none
  | some (a, cs) =>
    match pointOctet cs with
    | none => none
    | some (b, cs) =>
      match pointOctet cs with
      | none => none
      | some (c, cs) => (pointOctet cs).map fun p => (⟨a, b, c, p.1⟩, p.2)

def group (cs : List Char) : Option (UInt16 × List Char) :=
  let (ds, rest) := cs.span isHexDigit
  if ds = [] ∨ 4 < ds.length then none
  else some (UInt16.ofNat (ds.foldl (fun n c => 16 * n + (hexDigitValue c).getD 0) 0), rest)

def pair (high low : UInt8) : UInt16 := UInt16.ofNat (high.toNat * 256 + low.toNat)

structure Run where
  groups : List UInt16
  dottedTail : Bool
  rest : List Char
deriving DecidableEq, Repr

def behindColon (first : Bool) (cs : List Char) : Option (List Char) :=
  if first then some cs
  else
    match cs with
    | ':' :: cs => some cs
    | _ => none

/-- As many groups as there are, but no more than the limit; the last two may be written as
four octets, which ends the run. -/
def run : Nat → Bool → List Char → Run
  | 0, _, cs => ⟨[], false, cs⟩
  | limit + 1, first, cs =>
    match behindColon first cs with
    | none => ⟨[], false, cs⟩
    | some body =>
      match if limit = 0 then none else dotted body with
      | some (q, rest) => ⟨[pair q.a q.b, pair q.c q.d], true, rest⟩
      | none =>
        match group body with
        | none => ⟨[], false, cs⟩
        | some (g, rest) =>
          let more := run limit false rest
          { more with groups := g :: more.groups }

/-- Eight groups, or fewer with a double colon in place of at least one zero group. -/
def colons (cs : List Char) : Option (List UInt16 × List Char) :=
  let head := run 8 true cs
  if head.groups.length = 8 then some (head.groups, head.rest)
  else if head.dottedTail then none
  else
    match head.rest with
    | ':' :: ':' :: rest =>
      let tail := run (7 - head.groups.length) true rest
      let zeros := 8 - head.groups.length - tail.groups.length
      some (head.groups ++ List.replicate zeros 0 ++ tail.groups, tail.rest)
    | _ => none

def v6? (cs : List Char) : Option (IPv6 × List Char) :=
  match colons cs with
  | none => none
  | some (gs, rest) => if h : gs.length = 8 then some (⟨gs, h⟩, rest) else none

def parse? (s : String) : Option Address :=
  match dotted s.toList with
  | some (a, []) => some (.v4 a)
  | some (_, _ :: _) => none
  | none =>
    match v6? s.toList with
    | some (a, []) => some (.v6 a)
    | _ => none

def octetChars (n : UInt8) : List Char := Decimal.digits n.toNat

def dottedChars (a : IPv4) : List Char :=
  octetChars a.a ++ '.' :: octetChars a.b ++ '.' :: octetChars a.c ++ '.' :: octetChars a.d

def groupChars (g : UInt16) : List Char := Nat.toDigits 16 g.toNat

def groupsChars : List UInt16 → List Char
  | [] => []
  | [g] => groupChars g
  | g :: gs => groupChars g ++ ':' :: groupsChars gs

def high (g : UInt16) : UInt8 := UInt8.ofNat (g.toNat / 256)
def low (g : UInt16) : UInt8 := UInt8.ofNat (g.toNat % 256)

/-- The four octets of an address that carries one of the other family. -/
def mapped? : List UInt16 → Option IPv4
  | [0, 0, 0, 0, 0, 0xFFFF, g, h] => some ⟨high g, low g, high h, low h⟩
  | _ => none

def zeroRun (gs : List UInt16) : Nat := (gs.takeWhile (· = 0)).length

/-- The place and length of the first of the longest runs of zero groups. -/
def longestZeros : List UInt16 → Nat × Nat
  | [] => (0, 0)
  | g :: gs =>
    let here := zeroRun (g :: gs)
    let later := longestZeros gs
    if here = 0 ∨ here < later.2 then (later.1 + 1, later.2) else (0, here)

/-- The longest run of two or more zero groups is written as a double colon. -/
def colonChars (gs : List UInt16) : List Char :=
  match mapped? gs with
  | some a => [':', ':', 'f', 'f', 'f', 'f', ':'] ++ dottedChars a
  | none =>
    let (start, length) := longestZeros gs
    if 2 ≤ length then
      groupsChars (gs.take start) ++ ':' :: ':' :: groupsChars (gs.drop (start + length))
    else groupsChars gs

def chars : Address → List Char
  | .v4 a => dottedChars a
  | .v6 a => colonChars a.groups

def text (a : Address) : String := String.ofList a.chars

def family : Address → Nat
  | .v4 _ => 4
  | .v6 _ => 6

end Address

namespace Endpoint

def chars (e : Endpoint) : List Char :=
  let port := ':' :: Decimal.digits e.port.toNat
  match e.address with
  | .v4 _ => e.address.chars ++ port
  | .v6 _ => '[' :: e.address.chars ++ ']' :: port

def text (e : Endpoint) : String := String.ofList e.chars

end Endpoint
end TcpEcho
