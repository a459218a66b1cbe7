/-
# Paths

A path is kept as the text that was given, which is also how it is shown. It consists of names, of steps
up, and of a root or a dot where it begins with one; further dots and repeated slashes do not count.

Key definitions: `Path`, `Path.components`, `Path.join`, `Path.ancestors`, `Path.fileName?`,
`Path.extension?`, `Path.same`.
-/
import TraefikUpgrade.Text.Cut

namespace TraefikUpgrade.FileSystem

/-- A part of a path. -/
inductive Component where
  | root
  | here
  | up
  | name (s : String)
deriving DecidableEq, Repr

/-- A path. -/
structure Path where
  text : String
deriving DecidableEq, Repr

namespace Path

/-- The components of the parts between slashes, each with the length of the text up to its end.
`start` is the length of the text before the first part. -/
def spansFrom (start : Nat) (first : Bool) : List (List Char) → List (Component × Nat)
  | [] => []
  | part :: parts =>
    let stop := start + part.length
    let following := spansFrom (stop + 1) false parts
    match part with
    | [] => if first && !parts.isEmpty then (.root, 1) :: following else following
    | ['.'] => if first then (.here, stop) :: following else following
    | ['.', '.'] => (.up, stop) :: following
    | part => (.name (String.ofList part), stop) :: following

/-- The components, each with the length of the text up to its end. -/
def spans (p : Path) : List (Component × Nat) := spansFrom 0 true (Text.splitAll '/' p.text.toList)

def components (p : Path) : List Component := p.spans.map Prod.fst

/-- Whether a path counts from the root. -/
def isAbsolute (p : Path) : Bool := p.text.toList.head? == some '/'

/-- Whether two paths have the same components. -/
def same (p q : Path) : Bool := p.components == q.components

/-- A path below another one; one that counts from the root stays as it is. -/
def join (p : Path) (q : String) : Path :=
  if Path.isAbsolute ⟨q⟩ then ⟨q⟩
  else match p.text.toList.getLast? with
    | none => ⟨q⟩
    | some c => if c = '/' then ⟨p.text ++ q⟩ else ⟨p.text ++ "/" ++ q⟩

/-- The paths without the last component, the last two and so on, the longest one first. -/
def parents (p : Path) : List Path :=
  let cut (span : Component × Nat) : Path := ⟨String.ofList (p.text.toList.take span.2)⟩
  let above := p.spans.dropLast.reverse.map cut
  if p.isAbsolute || p.spans.isEmpty then above else above ++ [⟨""⟩]

/-- The path without its last component. -/
def parent? (p : Path) : Option Path := p.parents.head?

/-- The path and its parents. -/
def ancestors (p : Path) : List Path := p :: p.parents

/-- The last component, if it is a name. -/
def fileName? (p : Path) : Option String :=
  match p.components.getLast? with
  | some (.name s) => some s
  | _ => none

end Path

/-- What follows the last dot of a file's name, if there is something before it. -/
def extension? (name : String) : Option String :=
  let tail := name.toList.reverse.takeWhile (· != '.')
  match name.toList.reverse.drop tail.length with
  | _ :: _ :: _ => some (String.ofList tail.reverse)
  | _ => none

end TraefikUpgrade.FileSystem
