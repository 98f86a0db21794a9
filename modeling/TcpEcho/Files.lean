import TcpEcho.Fault.Basic
/- The files that the program can read. -/
namespace TcpEcho

/-- The octets of the file at each path, or why they cannot be read. -/
abbrev FileReader := List UInt8 → Except Fault (List UInt8)

/-- What comes of work with files, and the paths at which files were opened for it. -/
structure Opening (α : Type) where
  opened : List (List UInt8) := []
  result : α

def Opening.map {α β : Type} (f : α → β) (x : Opening α) : Opening β := ⟨x.opened, f x.result⟩

def FileReader.open (read : FileReader) (path : List UInt8) :
    Opening (Except Fault (List UInt8)) := ⟨[path], read path⟩

inductive FileNode where
  | file (data : List UInt8)
  | directory
deriving DecidableEq, Repr

/-- Files and directories by the names on the way to them from the current directory;
directories on the way to an entry exist as well. -/
structure Files where
  entries : List (List (List UInt8) × FileNode) := []
deriving DecidableEq, Repr

namespace Files

def slash : UInt8 := 0x2F

/-- The names in a path; empty ones and single points lead nowhere. -/
def names (path : List UInt8) : List (List UInt8) :=
  (path.splitOnP (· = slash)).filter fun n => n ≠ [] ∧ n ≠ [0x2E]

/-- A path that ends like this can only name a directory. -/
def endsInDirectory (path : List UInt8) : Bool :=
  match (path.splitOnP (· = slash)).getLast? with
  | some n => n = [] || n = [0x2E]
  | none => false

def lookup (files : Files) (place : List (List UInt8)) : Option FileNode :=
  match files.entries.find? fun e => e.1 = place with
  | some e => some e.2
  | none =>
    if place = [] ∨ files.entries.any fun e => place.isPrefixOf e.1 then some .directory else none

/-- What every host has outside the current directory. -/
def host : Files := ⟨[([[0x64, 0x65, 0x76], [0x6E, 0x75, 0x6C, 0x6C]], .file []),
  ([[0x65, 0x74, 0x63]], .directory), ([[0x74, 0x6D, 0x70]], .directory)]⟩

/-- Follows names from a place inside; above the current directory nothing is known. -/
def follow (files : Files) (place : List (List UInt8)) : List (List UInt8) → Except Fault FileNode
  | [] => (files.lookup place).elim (.error .noSuchFile) .ok
  | n :: ns =>
    if n = [0x2E, 0x2E] then
      if place = [] then (if ns = [] then .ok .directory else .error .noSuchFile)
      else follow files place.dropLast ns
    else if 255 < n.length then .error .fileNameTooLong
    else
      match files.lookup (place ++ [n]) with
      | none => .error .noSuchFile
      | some .directory => follow files (place ++ [n]) ns
      | some (.file data) => if ns = [] then .ok (.file data) else .error .notADirectory

def read (files : Files) : FileReader := fun path =>
  if path.contains 0 then
    .error .nulByte
  else if 4096 ≤ path.length then .error .fileNameTooLong
  else
    let root := if path.head? = some slash then host else files
    match root.follow [] (names path) with
    | .error f => .error f
    | .ok .directory => .error .isADirectory
    | .ok (.file data) => if endsInDirectory path then .error .notADirectory else .ok data

end Files
end TcpEcho
