import TcpEcho.Decimal
/- The values of a TOML document. A table is the list of its entries in the order in
   which they were made; how it came to be decides what may be added to it later. -/
namespace TcpEcho.Toml

/-- Inline tables are closed; tables of a header are open to other headers; tables implied
by a longer header still wait for their own; tables of dotted keys take further dotted keys. -/
inductive TableForm where
  | inline
  | header
  | implied
  | dotted
deriving DecidableEq, Repr

/-- An array is listed between brackets or grows by one table at each `[[header]]`. -/
inductive ArrayForm where
  | listed
  | tables
deriving DecidableEq, Repr

inductive Value where
  | text (s : String)
  | integer (n : Int)
  | float (x : Binary64)
  | boolean (b : Bool)
  | moment (written : String)
  | array (form : ArrayForm) (items : List Value)
  | table (form : TableForm) (entries : List (String × Value))
deriving Repr

abbrev Entries := List (String × Value)

namespace Entries

def get? (key : String) (es : Entries) : Option Value := es.lookup key

def erase (key : String) (es : Entries) : Entries := es.filter fun e => e.1 ≠ key

def replace (key : String) (v : Value) (es : Entries) : Entries :=
  es.map fun e => if e.1 = key then (key, v) else e

/-- Adds an entry at the end unless the key is taken. -/
def insert? (key : String) (v : Value) (es : Entries) : Option Entries :=
  match es.get? key with
  | none => some (es ++ [(key, v)])
  | some _ => none

end Entries

def splitLast (items : List Value) : Option (List Value × Value) :=
  items.getLast?.map fun v => (items.dropLast, v)

/-- Entries changed inside the last table of an array of tables. -/
def inLast (f : Entries → Option Entries) (items : List Value) : Option (List Value) :=
  match splitLast items with
  | some (init, .table form es) => (f es).map fun es => init ++ [.table form es]
  | _ => none

/-- Assigns a value to a dotted key. The tables on the way are made if absent; they may not
be closed or have a header of their own, and the innermost one must be made of dotted keys. -/
def assign (key : String) (v : Value) : List String → Entries → Option Entries
  | [], es => es.insert? key v
  | k :: ks, es =>
    match es.get? k with
    | none => (assign key v ks []).map fun inner => es ++ [(k, .table .dotted inner)]
    | some (.table form inner) =>
      if form = .dotted ∨ form = .implied ∧ ks ≠ [] then
        (assign key v ks inner).map fun inner => es.replace k (.table form inner)
      else none
    | some (.array .tables items) =>
      if ks = [] then none
      else (inLast (assign key v ks) items).map fun items => es.replace k (.array .tables items)
    | some _ => none

/-- Opens the table of a header `[path]`. A table that so far was only implied moves to the
end of its parent and keeps what it holds. -/
def openSection : List String → Entries → Option Entries
  | [], _ => none
  | [k], es =>
    match es.get? k with
    | none => some (es ++ [(k, .table .header [])])
    | some (.table .implied inner) => some (es.erase k ++ [(k, .table .header inner)])
    | some _ => none
  | k :: ks, es =>
    match es.get? k with
    | none => (openSection ks []).map fun inner => es ++ [(k, .table .implied inner)]
    | some (.table form inner) =>
      if form = .inline then none
      else (openSection ks inner).map fun inner => es.replace k (.table form inner)
    | some (.array .tables items) =>
      (inLast (openSection ks) items).map fun items => es.replace k (.array .tables items)
    | some _ => none

/-- Adds an empty table to the array of a header `[[path]]`. -/
def openElement : List String → Entries → Option Entries
  | [], _ => none
  | [k], es =>
    match es.get? k with
    | none => some (es ++ [(k, .array .tables [.table .header []])])
    | some (.array .tables items) =>
      some (es.replace k (.array .tables (items ++ [.table .header []])))
    | some _ => none
  | k :: ks, es =>
    match es.get? k with
    | none => (openElement ks []).map fun inner => es ++ [(k, .table .implied inner)]
    | some (.table form inner) =>
      if form = .inline then none
      else (openElement ks inner).map fun inner => es.replace k (.table form inner)
    | some (.array .tables items) =>
      (inLast (openElement ks) items).map fun items => es.replace k (.array .tables items)
    | some _ => none

def inSection (f : Entries → Option Entries) : List String → Entries → Option Entries
  | [], es => f es
  | k :: ks, es =>
    match es.get? k with
    | some (.table form inner) =>
      (inSection f ks inner).map fun inner => es.replace k (.table form inner)
    | some (.array .tables items) =>
      (inLast (inSection f ks) items).map fun items => es.replace k (.array .tables items)
    | _ => none

end TcpEcho.Toml
