/-
# Layers of settings

Settings are looked up in the working directory and all directories above it, up to the first file that
says it is the root of a project. The user's own file comes last, unless a variable that one of the other
files names turns it off. If none does, it must be known which directory is the user's.

Key definitions: `Environment`, `Layer`, `layers`, `Effective`, `Effective.ofLayers`.
-/
import TraefikUpgrade.Config.Settings
import TraefikUpgrade.FileSystem.Tree

namespace TraefikUpgrade.Config

open FileSystem (Path Tree)

/-- The environment of the program. -/
structure Environment where
  /-- The directory of the user, if it is known. -/
  home : Option Path
  assignments : List (String × String) := []
deriving DecidableEq, Repr

namespace Environment

/-- Whether a variable is set, to something else than a spelling of no. -/
def isTruthy (e : Environment) (name : String) : Bool :=
  match e.assignments.lookup name with
  | none => false
  | some value => value != "" && !(["0", "false", "no"].contains value.toLower)

end Environment

/-- A file of settings that was read. -/
structure Layer where
  path : Path
  settings : Settings
deriving DecidableEq, Repr

/-- The name of a settings file. -/
def fileName : String := ".traefik-migrate.toml"

/-- Reads a settings file. -/
def readLayer (t : Tree) (path : Path) : Except Fault Layer :=
  match t.readText path with
  | .error _ => .error (.read path)
  | .ok text => (parse path text).map (⟨path, ·⟩)

/-- Reads the files in a list of directories, up to the first one that is a root. Directories without a
file are passed over. -/
def layersUpwards (t : Tree) : List Path → Except Fault (List Layer)
  | [] => .ok []
  | directory :: above =>
    let path := directory.join fileName
    if t.isFile path then do
      let layer ← readLayer t path
      if layer.settings.root then return [layer]
      return layer :: (← layersUpwards t above)
    else layersUpwards t above

/-- The path of the user's own file, if the directory of the user is known. -/
def userPath? (e : Environment) : Option Path := e.home.map (·.join fileName)

/-- Whether one of the layers names a variable that turns off the user's own file. -/
def isOptedOut (e : Environment) (layers : List Layer) : Bool :=
  layers.any fun l => l.settings.optOutVariable.any e.isTruthy

/-- Reads the user's own file, if it is not turned off, is there and does not belong to the layers read
already. -/
def userLayer (t : Tree) (e : Environment) (layers : List Layer) : Except Fault (Option Layer) :=
  if isOptedOut e layers then .ok none
  else
    match userPath? e with
    | none => .error .homeUnknown
    | some path =>
      if layers.any (·.path.same path) || !t.doesExist path then .ok none
      else (readLayer t path).map some

/-- Reads all files that count for a directory, the most specific one first. -/
def layers (t : Tree) (e : Environment) (directory : Path) : Except Fault (List Layer) := do
  let project ← layersUpwards t directory.ancestors
  return project ++ (← userLayer t e project).toList

/-- The settings that count. -/
structure Effective where
  skipAnnotations : List String := []
  keepSyntax : Bool := false
  skipDeprecated : Bool := false
  /-- The files from which the settings are. -/
  sources : List Path := []
deriving DecidableEq, Repr

/-- Adds to a list the items that it does not have. -/
def addMissing (known : List String) (items : List String) : List String :=
  items.foldl (fun known item => if known.contains item then known else known ++ [item]) known

/-- Puts layers together. A list takes the items of all layers; of a switch the first layer that sets it
decides. -/
def Effective.ofLayers (layers : List Layer) : Effective where
  skipAnnotations := layers.foldl (fun known l => addMissing known l.settings.skipAnnotations) []
  keepSyntax := (layers.findSome? (·.settings.keepSyntax)).getD false
  skipDeprecated := (layers.findSome? (·.settings.skipDeprecated)).getD false
  sources := layers.map (·.path)

end TraefikUpgrade.Config
