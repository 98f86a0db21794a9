/- The strings of TOML: what may stand between quotes and what it means. Line ends are
   line feeds here; carriage returns before them have been taken off. -/
namespace TcpEcho.Toml

def isBlank (c : Char) : Bool := c = ' ' || c = '\t'

/-- Characters that a comment or a string may hold as they are: no control character but
the tab. -/
def isVisible (c : Char) : Bool := c = '\t' || (0x20 ≤ c.toNat && c.toNat ≠ 0x7F)

def push (out : List Char) : Option (List Char × List Char) → Option (List Char × List Char) :=
  Option.map fun p => (out ++ p.1, p.2)

def escapeChar (c : Char) : Option Char :=
  if c = 'b' then some '\x08'
  else if c = 't' then some '\t'
  else if c = 'n' then some '\n'
  else if c = 'f' then some '\x0c'
  else if c = 'r' then some '\r'
  else if c = '"' then some '"'
  else if c = '\\' then some '\\'
  else none

def hexValue (c : Char) : Option Nat :=
  if '0' ≤ c ∧ c ≤ '9' then some (c.toNat - 48)
  else if 'a' ≤ c ∧ c ≤ 'f' then some (c.toNat - 87)
  else if 'A' ≤ c ∧ c ≤ 'F' then some (c.toNat - 55)
  else none

/-- Surrogates and codes past the last plane name no character. -/
def scalar? (n : Nat) : Option Char := if n.isValidChar then some (Char.ofNat n) else none

/-- Where a reader of string text stands: in plain text, behind a backslash, or inside the
digits of a character code with so many digits to come after the next. -/
inductive Escape where
  | plain
  | opened
  | code (left bits : Nat)
deriving DecidableEq, Repr

def Escape.step : Escape → Char → Option (List Char × Escape)
  | .plain, _ => none
  | .opened, c =>
    match escapeChar c with
    | some e => some ([e], .plain)
    | none =>
      if c = 'u' then some ([], .code 3 0) else if c = 'U' then some ([], .code 7 0) else none
  | .code left bits, c =>
    match hexValue c, left with
    | none, _ => none
    | some d, 0 => (scalar? (bits * 16 + d)).map fun e => ([e], .plain)
    | some d, left + 1 => some ([], .code left (bits * 16 + d))

def basicText : Escape → List Char → Option (List Char × List Char)
  | _, [] => none
  | .plain, c :: cs =>
    if c = '"' then some ([], cs)
    else if c = '\\' then basicText .opened cs
    else if isVisible c then push [c] (basicText .plain cs)
    else none
  | e, c :: cs =>
    match e.step c with
    | none => none
    | some (out, next) => push out (basicText next cs)

/-- The text of a string in single quotes: nothing is escaped. -/
def literalText : List Char → Option (List Char × List Char)
  | [] => none
  | c :: cs =>
    if c = '\'' then some ([], cs)
    else if isVisible c then push [c] (literalText cs)
    else none

/-- Where a reader of text between tripled quotes stands: besides the escapes, after a
backslash with blanks behind it, in the white space that such a backslash takes along, or
behind a run of quotes. -/
inductive Block where
  | escape (e : Escape)
  | toLineEnd
  | folding
  | quotes (n : Nat)
deriving DecidableEq, Repr

def Block.plain : Block := .escape .plain

def Block.stepPlain (quote c : Char) : Option (List Char × Block) :=
  if c = quote then some ([], .quotes 1)
  else if c = '\\' ∧ quote = '"' then some ([], .escape .opened)
  else if isVisible c ∨ c = '\n' then some ([c], .plain)
  else none

def Block.step (quote : Char) : Block → Char → Option (List Char × Block)
  | .escape .plain, c => stepPlain quote c
  | .escape .opened, c =>
    if c = '\n' then some ([], .folding)
    else if isBlank c then some ([], .toLineEnd)
    else (Escape.opened.step c).map fun p => (p.1, .escape p.2)
  | .escape e, c => (e.step c).map fun p => (p.1, .escape p.2)
  | .toLineEnd, c =>
    if c = '\n' then some ([], .folding) else if isBlank c then some ([], .toLineEnd) else none
  | .folding, c => if c = '\n' ∨ isBlank c then some ([], .folding) else stepPlain quote c
  | .quotes n, c =>
    if c = quote then some ([], .quotes (n + 1))
    else (stepPlain quote c).map fun p => (List.replicate n quote ++ p.1, p.2)

/-- A run of three to five quotes ends the text before the next character. -/
def Block.ended (quote : Char) : Block → Option Char → Bool
  | .quotes n, some c => 3 ≤ n && (c ≠ quote || n = 5)
  | .quotes n, none => 3 ≤ n
  | _, _ => false

/-- The quotes of the last run that belong to the text: all but three. -/
def Block.remaining (quote : Char) : Block → List Char
  | .quotes n => List.replicate (n - 3) quote
  | _ => []

def blockText (quote : Char) : Block → List Char → Option (List Char × List Char)
  | b, [] => if b.ended quote none then some (b.remaining quote, []) else none
  | b, c :: cs =>
    if b.ended quote (some c) then some (b.remaining quote, c :: cs)
    else
      match b.step quote c with
      | none => none
      | some (out, next) => push out (blockText quote next cs)

/-- A line end right behind the opening quotes does not count. -/
def dropLineEnd : List Char → List Char
  | '\n' :: cs => cs
  | cs => cs

def string : List Char → Option (List Char × List Char)
  | '"' :: '"' :: '"' :: cs => blockText '"' .plain (dropLineEnd cs)
  | '\'' :: '\'' :: '\'' :: cs => blockText '\'' .plain (dropLineEnd cs)
  | '"' :: cs => basicText .plain cs
  | '\'' :: cs => literalText cs
  | _ => none

end TcpEcho.Toml
