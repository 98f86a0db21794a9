import TcpEcho.Text.Utf8
import TcpEcho.Text.Classes
/- Text between double quotes with every character made visible: the form in which
   the program shows strings in messages and in log lines. -/
namespace TcpEcho.Quoted

def hex (n : Nat) : List Char := Nat.toDigits 16 n

def hexOctet (b : UInt8) : List Char :=
  [Nat.digitChar (b.toNat / 16), Nat.digitChar (b.toNat % 16)].map Char.toUpper

def mark (c : Char) : List Char :=
  if c = '"' then ['\\', '"']
  else if c = '\\' then ['\\', '\\']
  else if c = '\n' then ['\\', 'n']
  else if c = '\r' then ['\\', 'r']
  else if c = '\t' then ['\\', 't']
  else if c = '\x00' then ['\\', '0']
  else if Invisible.holds c then ['\\', 'u', '\x7b'] ++ hex c.toNat ++ ['\x7d']
  else [c]

def encode (s : String) : String :=
  String.ofList ('"' :: s.toList.flatMap mark ++ ['"'])

def markInPath (c : Char) : List Char := if c = '\'' then ['\\', '\''] else mark c

/-- The octets of a path: characters as in text, octets of faulty runs by their codes. -/
def encodePath (bs : List UInt8) : String :=
  String.ofList ('"' :: (go bs.length bs).flatten ++ ['"'])
where
  go : Nat → List UInt8 → List (List Char)
    | 0, _ => []
    | fuel + 1, bs =>
      match Utf8.validPart bs with
      | (cs, []) => [cs.flatMap markInPath]
      | (cs, b :: rest) => cs.flatMap markInPath :: (['\\', 'x'] ++ hexOctet b) :: go fuel rest

end TcpEcho.Quoted
