/-
# Stores in a directory

A store keeps every resource in a file of its own, below directories for the group, the kind and the
namespace. A resource that is there is never overwritten.

Key definitions: `Directory`, `Directory.path`, `Directory.get`, `Directory.list`, `Directory.create`,
`Fault`.
-/
import TraefikUpgrade.FileSystem.Tree
import TraefikUpgrade.Resource.Stream
import TraefikUpgrade.Store.Name
import TraefikUpgrade.Text.Quoted

namespace TraefikUpgrade.Store

open FileSystem (Path Tree)
open Resource (GroupKind Manifest Registry)

/-- The part of a resource's identity that is no valid name. -/
inductive NameField where
  | «namespace»
  | name
deriving DecidableEq, Repr

def NameField.display : NameField → String
  | .namespace => "namespace"
  | .name => "name"

/-- Why a request to a store fails. -/
inductive Fault where
  | notFound (kind : GroupKind) («namespace» name : String)
  | badName (field : NameField) (value : String)
  | unregistered (apiVersion kind : String)
  | read (path : Path)
  | write (path : Path)
  | decode (path : Path) (fault : Manifest.Fault)
  | encode
deriving DecidableEq, Repr

def Fault.message : Fault → String
  | .notFound kind ns name => kind.display ++ " " ++ ns ++ "/" ++ name ++ " not found in store"
  | .badName field value =>
    "Invalid object " ++ field.display ++ " " ++ Text.quoted value ++
      ": expected a lowercase RFC 1123 name"
  | .unregistered apiVersion kind =>
    "Cannot store object of unregistered kind " ++ kind ++ " (" ++ apiVersion ++ ")"
  | .read path => "Failed to read from store: " ++ path.text
  | .write path => "Failed to write to store: " ++ path.text
  | .decode path fault => "Failed to decode stored object: " ++ path.text ++ ": " ++ fault.message
  | .encode => "Failed to encode manifest"

/-- A store below a directory. The resources of the registered kinds are taken apart. -/
structure Directory where
  root : Path
  registry : Registry

/-- What became of a request to create a resource. -/
inductive Outcome where
  | created
  | alreadyExists
deriving DecidableEq, Repr

namespace Directory

/-- The directory of a kind. -/
def kindPath (d : Directory) (kind : GroupKind) : Path :=
  (d.root.join kind.group.name).join kind.type.name

/-- The directory of a namespace. -/
def namespacePath (d : Directory) (kind : GroupKind) (ns : String) : Except Fault Path :=
  if isNamespace ns then .ok ((d.kindPath kind).join ns) else .error (.badName .namespace ns)

/-- The file of a resource. -/
def path (d : Directory) (kind : GroupKind) (ns name : String) : Except Fault Path :=
  if isName name then (d.namespacePath kind ns).map (·.join (name ++ ".yaml"))
  else .error (.badName .name name)

/-- The resource in a file: the first one, if there are several. -/
def read (d : Directory) (t : Tree) (p : Path) : Except Fault Manifest :=
  match t.readText p with
  | .error _ => .error (.read p)
  | .ok text =>
    match Resource.decode d.registry text with
    | .error fault => .error (.decode p fault)
    | .ok [] => .error (.decode p .empty)
    | .ok (m :: _) => .ok m

/-- The resource of a name. -/
def get (d : Directory) (t : Tree) (kind : GroupKind) (ns name : String) : Except Fault Manifest := do
  let p ← d.path kind ns name
  if t.isFile p then d.read t p else throw (.notFound kind ns name)

/-- The paths in a directory, in the order of their names. A directory that is not there has none. -/
def pathsIn (t : Tree) (p : Path) : Except Fault (List Path) :=
  match t.names p with
  | .ok names => .ok (names.map p.join)
  | .error .notFound => .ok []
  | .error _ => .error (.read p)

/-- Whether a path is taken for the file of a resource. -/
def isObjectPath (p : Path) : Bool := p.fileName?.bind FileSystem.extension? == some "yaml"

/-- The resources in a directory. -/
def readAll (d : Directory) (t : Tree) (p : Path) : Except Fault (List Manifest) := do
  ((← pathsIn t p).filter isObjectPath).mapM (d.read t)

/-- The resources of a kind, in one namespace or in all. -/
def list (d : Directory) (t : Tree) (kind : GroupKind) (ns : Option String) :
    Except Fault (List Manifest) := do
  let directories ← match ns with
    | some ns => (d.namespacePath kind ns).map ([·])
    | none => (pathsIn t (d.kindPath kind)).map (·.filter t.isDirectory)
  return (← directories.mapM (d.readAll t)).flatten

/-- Writes the file of a resource, and creates the directories on the way to it. -/
def write (t : Tree) (p : Path) (content : String) : Except Fault Tree := do
  let above := p.parent?.getD p
  match t.createDirectories above with
  | .error _ => throw (.write above)
  | .ok t =>
    match t.write p (.text content) with
    | .error _ => throw (.write p)
    | .ok t => return t

/-- Creates a resource, unless it is there. In a dry run nothing is written. -/
def create (d : Directory) (t : Tree) (m : Manifest) (dryRun : Bool) :
    Except Fault (Outcome × Tree) := do
  match m.groupKind? with
  | none => throw (.unregistered m.apiVersion m.kind)
  | some kind =>
    let p ← d.path kind m.namespace m.name
    if t.doesExist p then return (.alreadyExists, t)
    else if dryRun then return (.created, t)
    else
      match Resource.encodeOne? m with
      | none => throw .encode
      | some content => return (.created, ← write t p content)

end Directory

end TraefikUpgrade.Store
