import TcpEcho.Text.Utf8
/- Text without the commands that a terminal would obey: escape sequences are taken out
   whole, and of the control characters only white space stays. -/
namespace TcpEcho.Plain

/-- Where a sequence stands that a terminal does not print. -/
inductive Sequence where
  | escape
  | escapeMore
  | control
  | system
  | text
deriving DecidableEq, Repr

def isSpace (b : UInt8) : Bool := b = 0x20 || b = 0x09 || b = 0x0A || b = 0x0C || b = 0x0D

def isContinuation (b : UInt8) : Bool := 0x80 ≤ b && b < 0xC0

def isPrinted (b : UInt8) : Bool :=
  isSpace b || (0x20 ≤ b && b < 0x7F) || (0xC2 ≤ b && b < 0xF5)

/-- What an octet does to a sequence: it goes on as some sequence, or the text goes on,
with this octet or behind it. -/
inductive Effect where
  | on (s : Sequence)
  | done
  | printed
deriving DecidableEq, Repr

def Sequence.step (s : Sequence) (b : UInt8) : Effect :=
  if b = 0x1B then .on .escape
  else if b = 0x18 ∨ b = 0x1A then .done
  else
    match s with
    | .escape =>
      if b < 0x20 then (if isSpace b then .printed else .on .escape)
      else if b < 0x30 then .on .escapeMore
      else if b = 0x5B then .on .control
      else if b = 0x5D then .on .system
      else if b = 0x50 ∨ b = 0x58 ∨ b = 0x5E ∨ b = 0x5F then .on .text
      else if b < 0x7F then .done
      else .on .escape
    | .escapeMore =>
      if b < 0x20 then (if isSpace b then .printed else .on .escapeMore)
      else if 0x30 ≤ b ∧ b < 0x7F then .done
      else .on .escapeMore
    | .control =>
      if b < 0x20 then (if isSpace b then .printed else .on .control)
      else if 0x40 ≤ b ∧ b < 0x7F then .done
      else .on .control
    | .system => if b = 0x07 then .done else .on .system
    | .text => if b = 0x9C then .done else .on .text

/-- The octets that are printed; `inside` tells whether the octet before was one of them,
since only then may a character go on. -/
def printed (sequence : Option Sequence) (inside : Bool) : List UInt8 → List UInt8
  | [] => []
  | b :: bs =>
    match sequence with
    | some s =>
      match s.step b with
      | .on s => printed (some s) false bs
      | .done => printed none false bs
      | .printed => b :: printed none true bs
    | none =>
      if isPrinted b || (inside && isContinuation b) then b :: printed none true bs
      else if b = 0x1B then printed (some .escape) false bs
      else printed none false bs

def strip (s : String) : String := Utf8.lossy (printed none false (Utf8.encode s))

def firstLine (s : String) : String :=
  let cs := s.toList.takeWhile (· ≠ '\n')
  if cs.length < s.toList.length ∧ cs.getLast? = some '\r' then String.ofList cs.dropLast
  else String.ofList cs

end TcpEcho.Plain
