/-
# Settings

A settings file may give each of five settings. Reading it fails if it is no document, if a key or the
type of a value is not known, or if a value makes no sense.

Key definitions: `Settings`, `Settings.ofDocument?`, `Settings.invalid?`, `parse`, `Fault`.
-/
import TraefikUpgrade.FileSystem.Path
import TraefikUpgrade.Text.Quoted
import TraefikUpgrade.Toml.Document
import TraefikUpgrade.Unicode.WhiteSpace

namespace TraefikUpgrade.Config

open FileSystem (Path)

/-- The settings of a file. -/
structure Settings where
  /-- Whether the files in the directories above do not count. -/
  root : Bool := false
  /-- The environment variable that can turn off the user's own file. -/
  optOutVariable : Option String := none
  skipAnnotations : List String := []
  keepSyntax : Option Bool := none
  skipDeprecated : Option Bool := none
deriving DecidableEq, Repr

/-- Why settings cannot be loaded: a file of them cannot be used, or it is not known where the user's own
file would be. -/
inductive Fault where
  | read (path : Path)
  | parse (path : Path)
  | invalid (path : Path) (key value : String)
  | homeUnknown
deriving DecidableEq, Repr

def Fault.message : Fault → String
  | .read path => "Failed to read config file: " ++ path.text
  | .parse path => "Failed to parse config file: " ++ path.text
  | .invalid path key value =>
    "Invalid value for `" ++ key ++ "` in config file " ++ path.text ++ ": " ++ Text.quoted value
  | .homeUnknown => "Failed to resolve home directory"

namespace Settings

/-- Takes over a setting. -/
def set? (s : Settings) (key : String) (value : Toml.Value) : Option Settings :=
  match key, value with
  | "root", .bool b => some { s with root := b }
  | "root-config-lookup-disable-env-var", .text v => some { s with optOutVariable := some v }
  | "skip-annotations", .texts keys => some { s with skipAnnotations := keys }
  | "keep-syntax", .bool b => some { s with keepSyntax := some b }
  | "skip-deprecated", .bool b => some { s with skipDeprecated := some b }
  | _, _ => none

/-- The settings of a document. -/
def ofDocument? (d : Toml.Document) : Option Settings :=
  d.foldlM (fun s entry => s.set? entry.1 entry.2) {}

/-- Whether a text cannot be the name of an environment variable. -/
def isBadVariable (name : String) : Bool := name.isEmpty || name.contains '='

/-- The first setting that makes no sense, with its value. -/
def invalid? (s : Settings) : Option (String × String) :=
  match s.skipAnnotations.find? Unicode.isBlank with
  | some key => some ("skip-annotations", key)
  | none => (s.optOutVariable.filter isBadVariable).map ("root-config-lookup-disable-env-var", ·)

end Settings

/-- Reads the text of a settings file. -/
def parse (path : Path) (text : String) : Except Fault Settings :=
  match (Toml.read? text).bind Settings.ofDocument? with
  | none => .error (.parse path)
  | some s =>
    match s.invalid? with
    | some (key, value) => .error (.invalid path key value)
    | none => .ok s

end TraefikUpgrade.Config
