/- UTF-8: characters as octets, and octets read back one at a time.
   A run of octets that begins a character without finishing it counts as one fault,
   so a text can be read strictly (no fault allowed) or leniently (U+FFFD for each). -/
namespace TcpEcho.Utf8

def encode (s : String) : List UInt8 := s.toList.flatMap String.utf8EncodeChar

/-- What has been read of the character under way: the bounds of the next octet,
how many more follow that one, and the bits gathered so far. -/
structure Partial where
  low : UInt8
  high : UInt8
  more : Nat
  bits : Nat
deriving DecidableEq, Repr

inductive Opening where
  | char (c : Char)
  | lead (p : Partial)
  | stray
deriving DecidableEq, Repr

/-- The bounds of the second octet rule out overlong forms, surrogates and codes past U+10FFFF. -/
def opening (b : UInt8) : Opening :=
  if b < 0x80 then .char (Char.ofNat b.toNat)
  else if b < 0xC2 then .stray
  else if b < 0xE0 then .lead ⟨0x80, 0xBF, 0, b.toNat % 32⟩
  else if b = 0xE0 then .lead ⟨0xA0, 0xBF, 1, 0⟩
  else if b = 0xED then .lead ⟨0x80, 0x9F, 1, 13⟩
  else if b < 0xF0 then .lead ⟨0x80, 0xBF, 1, b.toNat % 16⟩
  else if b = 0xF0 then .lead ⟨0x90, 0xBF, 2, 0⟩
  else if b < 0xF4 then .lead ⟨0x80, 0xBF, 2, b.toNat % 8⟩
  else if b = 0xF4 then .lead ⟨0x80, 0x8F, 2, 4⟩
  else .stray

/-- The characters of the octets in order; `none` stands for a maximal faulty run. -/
def scan : Option Partial → List UInt8 → List (Option Char)
  | none, [] => []
  | some _, [] => [none]
  | none, b :: bs =>
    match opening b with
    | .char c => some c :: scan none bs
    | .lead p => scan (some p) bs
    | .stray => none :: scan none bs
  | some p, b :: bs =>
    if p.low ≤ b ∧ b ≤ p.high then
      let bits := p.bits * 64 + b.toNat % 64
      match p.more with
      | 0 => some (Char.ofNat bits) :: scan none bs
      | more + 1 => scan (some ⟨0x80, 0xBF, more, bits⟩) bs
    else
      none :: match opening b with
        | .char c => some c :: scan none bs
        | .lead q => scan (some q) bs
        | .stray => none :: scan none bs

def replacement : Char := Char.ofNat 0xFFFD

/-- The text of the octets, each maximal faulty run shown as U+FFFD. -/
def lossy (bs : List UInt8) : String :=
  String.ofList ((scan none bs).map (·.getD replacement))

def sequence : List (Option Char) → Option (List Char)
  | [] => some []
  | none :: _ => none
  | some c :: cs => (sequence cs).map (c :: ·)

/-- The text of the octets if they are well formed throughout. -/
def decode? (bs : List UInt8) : Option String :=
  (sequence (scan none bs)).map String.ofList

/-- The longest well-formed beginning and the octets left after it. -/
def validPart (bs : List UInt8) : List Char × List UInt8 :=
  let cs := (scan none bs).takeWhile Option.isSome
  let cs := cs.filterMap id
  (cs, bs.drop (cs.flatMap String.utf8EncodeChar).length)

end TcpEcho.Utf8
