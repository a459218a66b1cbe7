/-
# File trees

A tree has a file or a directory at each of finitely many locations. Paths are followed from the root or
from the working directory; every step needs a directory to start from.

Key definitions: `Location`, `Content`, `Entry`, `Tree`, `Tree.resolve`, `Tree.entry`, `Tree.readText`,
`Tree.names`, `Tree.write`, `Tree.createDirectories`.
-/
import TraefikUpgrade.FileSystem.Path

namespace TraefikUpgrade.FileSystem

/-- The names on the way from the root. -/
abbrev Location := List String

/-- The content of a file: a text, or bytes that are none. -/
inductive Content where
  | text (s : String)
  | binary (bytes : List UInt8)
deriving DecidableEq, Repr

/-- What is at a location. -/
inductive Entry where
  | directory
  | file (content : Content)
deriving DecidableEq, Repr

/-- Why an operation is refused. -/
inductive Refusal where
  | notFound
  | notDirectory
  | nameTooLong
  | isDirectory
  | notText
deriving DecidableEq, Repr

/-- A file tree with a working directory. -/
structure Tree where
  /-- What is at the locations other than the root. -/
  entries : List (Location × Entry) := []
  workingDirectory : Location := []
deriving DecidableEq, Repr

/-- The bytes that the name of a file may take. -/
def maxNameLength : Nat := 255

/-- The parts of a path that are followed one by one. At the end of a path a slash is like a dot. -/
def steps (p : Path) : List String :=
  let parts := (Text.splitAll '/' p.text.toList).map String.ofList
  match parts.getLast? with
  | some "" => parts.filter (· != "") ++ ["."]
  | _ => parts.filter (· != "")

namespace Tree

/-- What is at a location. -/
def lookup (t : Tree) (l : Location) : Option Entry :=
  if l = [] then some .directory else t.entries.lookup l

/-- Puts an entry at a location. -/
def put (t : Tree) (l : Location) (e : Entry) : Tree :=
  { t with entries := (l, e) :: t.entries.filter (·.1 != l) }

/-- Where a step from a location leads, which must be a directory. -/
def step (t : Tree) (l : Location) (part : String) : Except Refusal Location :=
  match t.lookup l with
  | none => .error .notFound
  | some (.file _) => .error .notDirectory
  | some .directory =>
    if part = "." then .ok l
    else if part = ".." then .ok l.dropLast
    else if maxNameLength < Text.utf8Length part.toList then .error .nameTooLong
    else .ok (l ++ [part])

/-- Where a path starts. -/
def start (t : Tree) (p : Path) : Location := if p.isAbsolute then [] else t.workingDirectory

/-- The location of a path, at which there need not be anything. -/
def resolve (t : Tree) (p : Path) : Except Refusal Location :=
  if p.text = "" then .error .notFound else (steps p).foldlM t.step (t.start p)

/-- What is at a path. -/
def entry (t : Tree) (p : Path) : Except Refusal Entry := do
  match t.lookup (← t.resolve p) with
  | some e => return e
  | none => throw .notFound

def doesExist (t : Tree) (p : Path) : Bool := (t.entry p).isOk

def isFile (t : Tree) (p : Path) : Bool :=
  match t.entry p with
  | .ok (.file _) => true
  | _ => false

def isDirectory (t : Tree) (p : Path) : Bool :=
  match t.entry p with
  | .ok .directory => true
  | _ => false

/-- Reads the text of a file. -/
def readText (t : Tree) (p : Path) : Except Refusal String := do
  match ← t.entry p with
  | .directory => throw .isDirectory
  | .file (.text s) => return s
  | .file (.binary _) => throw .notText

/-- The name of a location in a directory. -/
def nameIn? (directory l : Location) : Option String :=
  if l.dropLast = directory then l.getLast? else none

/-- The names in a directory, in their order by code point. -/
def names (t : Tree) (p : Path) : Except Refusal (List String) := do
  let l ← t.resolve p
  match t.lookup l with
  | none => throw .notFound
  | some (.file _) => throw .notDirectory
  | some .directory =>
    return (t.entries.filterMap fun e => nameIn? l e.1).mergeSort fun a b => decide (a ≤ b)

/-- Writes a file, which may be there. Its directory must be. -/
def write (t : Tree) (p : Path) (content : Content) : Except Refusal Tree := do
  let l ← t.resolve p
  match t.lookup l with
  | some .directory => throw .isDirectory
  | _ => return t.put l (.file content)

/-- A step that creates the directory to which it leads, if there is nothing. -/
def stepCreating (state : Tree × Location) (part : String) : Except Refusal (Tree × Location) := do
  let (t, l) := state
  let next ← t.step l part
  match t.lookup next with
  | none => return (t.put next .directory, next)
  | some .directory => return (t, next)
  | some (.file _) => throw .notDirectory

/-- Creates a directory and those on the way to it. -/
def createDirectories (t : Tree) (p : Path) : Except Refusal Tree := do
  let (t, _) ← (steps p).foldlM stepCreating (t, t.start p)
  return t

end Tree

end TraefikUpgrade.FileSystem
