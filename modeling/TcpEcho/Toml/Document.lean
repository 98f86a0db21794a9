import TcpEcho.Toml.Scalar
/- TOML documents: a text is read as a sequence of statements, and the statements
   build the root table. -/
namespace TcpEcho.Toml

/-- Arrays, inline tables and keys nest at most this deep. -/
def depthLimit : Nat := 80

def isBareKeyChar (c : Char) : Bool := c.isAlphanum || c = '_' || c = '-'

def skipBlanks (cs : List Char) : List Char := cs.dropWhile isBlank

def keyPart : List Char → Option (List Char × List Char)
  | '"' :: cs => basicText .plain cs
  | '\'' :: cs => literalText cs
  | cs =>
    match cs.span isBareKeyChar with
    | ([], _) => none
    | (name, rest) => some (name, rest)

def keyParts (cs : List Char) : Option (List String × List Char) :=
  match keyPart (skipBlanks cs) with
  | none => none
  | some (name, rest) =>
    match skipBlanks rest with
    | '.' :: more =>
      if more.length < cs.length then
        (keyParts more).map fun p => (String.ofList name :: p.1, p.2)
      else none
    | rest => some ([String.ofList name], rest)
termination_by cs.length

structure Key where
  path : List String
  name : String
deriving DecidableEq, Repr

def Key.ofParts? (parts : List String) : Option Key :=
  match parts.getLast? with
  | some name => if parts.length < depthLimit then some ⟨parts.dropLast, name⟩ else none
  | none => none

def Key.parts (k : Key) : List String := k.path ++ [k.name]

def key (cs : List Char) : Option (Key × List Char) :=
  match keyParts cs with
  | none => none
  | some (parts, rest) => (Key.ofParts? parts).map (·, rest)

/-- Reads values; what it reads inside brackets is read by a reader of one level less. -/
abbrev Reader := List Char → Option (Value × List Char)

/-- Passes blanks, line ends and comments; a comment stops at a character it cannot hold. -/
def skipGap (inComment : Bool) : List Char → List Char
  | [] => []
  | c :: cs =>
    if c = '\n' then skipGap false cs
    else if inComment then (if isVisible c then skipGap true cs else c :: cs)
    else if isBlank c then skipGap false cs
    else if c = '#' then skipGap true cs
    else c :: cs

def items (element : Reader) (cs : List Char) : Option (List Value × List Char) :=
  match skipGap false cs with
  | ']' :: rest => some ([], rest)
  | start =>
    match element start with
    | none => none
    | some (v, rest) =>
      match skipGap false rest with
      | ']' :: rest => some ([v], rest)
      | ',' :: rest =>
        if rest.length < cs.length then
          (items element rest).map fun p => (v :: p.1, p.2)
        else none
      | _ => none
termination_by cs.length

def keyValue (element : Reader) (cs : List Char) : Option ((Key × Value) × List Char) :=
  match key cs with
  | some (k, '=' :: rest) => (element (skipBlanks rest)).map fun p => ((k, p.1), p.2)
  | _ => none

/-- The entries of an inline table, at least one, up to the closing brace. -/
def pairs (element : Reader) (cs : List Char) : Option (List (Key × Value) × List Char) :=
  match keyValue element cs with
  | none => none
  | some (kv, rest) =>
    match skipBlanks rest with
    | '\x7d' :: rest => some ([kv], rest)
    | ',' :: rest =>
      if rest.length < cs.length then
        (pairs element rest).map fun p => (kv :: p.1, p.2)
      else none
    | _ => none
termination_by cs.length

def inlineTable (element : Reader) (cs : List Char) : Option (Value × List Char) :=
  match skipBlanks cs with
  | '\x7d' :: rest => some (.table .inline [], rest)
  | cs =>
    match pairs element cs with
    | none => none
    | some (kvs, rest) =>
      (kvs.foldlM (fun es kv => assign kv.1.name kv.2 kv.1.path es) []).map fun es =>
        (.table .inline es, rest)

/-- A value with so many levels of brackets at most. -/
def value : Nat → Reader
  | _, '"' :: cs => (string ('"' :: cs)).map fun p => (.text (String.ofList p.1), p.2)
  | _, '\'' :: cs => (string ('\'' :: cs)).map fun p => (.text (String.ofList p.1), p.2)
  | levels + 1, '[' :: cs => (items (value levels) cs).map fun p => (.array .listed p.1, p.2)
  | levels + 1, '\x7b' :: cs => inlineTable (value levels) cs
  | _, cs => scalar cs

def skipComment : List Char → List Char
  | '#' :: cs => cs.dropWhile isVisible
  | cs => cs

/-- Blanks, a comment if there is one, and the end of the line or of the text. -/
def lineEnd (cs : List Char) : Option (List Char) :=
  match skipComment (skipBlanks cs) with
  | [] => some []
  | '\n' :: rest => some rest
  | _ => none

inductive Statement where
  | assignment (k : Key) (v : Value)
  | header (k : Key)
  | element (k : Key)
deriving Repr

def statement (cs : List Char) : Option (Option Statement × List Char) :=
  match skipBlanks cs with
  | [] => some (none, [])
  | '\n' :: rest => some (none, rest)
  | '#' :: rest => (lineEnd ('#' :: rest)).map (none, ·)
  | '[' :: '[' :: rest =>
    match key rest with
    | some (k, ']' :: ']' :: rest) => (lineEnd rest).map (some (.element k), ·)
    | _ => none
  | '[' :: rest =>
    match key rest with
    | some (k, ']' :: rest) => (lineEnd rest).map (some (.header k), ·)
    | _ => none
  | cs =>
    match keyValue (value (depthLimit - 1)) cs with
    | some ((k, v), rest) => (lineEnd rest).map (some (.assignment k v), ·)
    | none => none

def statements (cs : List Char) : Option (List Statement) :=
  match statement cs with
  | none => none
  | some (s, []) => some s.toList
  | some (s, rest) =>
    if rest.length < cs.length then (statements rest).map (s.toList ++ ·) else none
termination_by cs.length

/-- A document under way: the root table and the path of the section that is open. -/
structure Draft where
  root : Entries
  path : List String
deriving Repr

def Draft.add (d : Draft) : Statement → Option Draft
  | .assignment k v =>
    (inSection (assign k.name v k.path) d.path d.root).map fun root => ⟨root, d.path⟩
  | .header k => (openSection k.parts d.root).map fun root => ⟨root, k.parts⟩
  | .element k => (openElement k.parts d.root).map fun root => ⟨root, k.parts⟩

/-- Carriage returns before line feeds are dropped. -/
def unixLines : List Char → List Char
  | '\r' :: '\n' :: cs => '\n' :: unixLines cs
  | c :: cs => c :: unixLines cs
  | [] => []

def byteOrderMark : Char := Char.ofNat 0xFEFF

def dropMark : List Char → List Char
  | c :: cs => if c = byteOrderMark then cs else c :: cs
  | [] => []

/-- The root table of a text, or nothing if the text is no TOML document. -/
def parse? (s : String) : Option Entries :=
  match statements (unixLines (dropMark s.toList)) with
  | none => none
  | some ss => (ss.foldlM Draft.add ⟨[], []⟩).map Draft.root

end TcpEcho.Toml
