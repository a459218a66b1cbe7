/-
# What a command looks at

The files and directories that a command may read or write, known before it runs. All others can be
left out of the file tree on which it works.

Key definition: `footprint`.
-/
import TraefikUpgrade.CommandLine.Run

namespace TraefikUpgrade.CommandLine

open FileSystem (Path)
open Config (Environment)
open Resource (Group GroupKind)

/-- The settings files that may count in a directory. -/
def settingsPaths (e : Environment) (directory : Path) : List Path :=
  directory.ancestors.map (·.join Config.fileName) ++ (Config.userPath? e).toList

/-- The directories in which a store keeps the resources of a type, of either version. -/
def storePaths (store : Path) (type : Resource.ResourceType) : List Path :=
  [Group.v2, Group.v3].map fun group =>
    Store.Directory.kindPath ⟨store, GroupKind.all⟩ ⟨group, type⟩

/-- The paths at which a command looks when it runs in a directory. With a directory goes all that is in
it. -/
def footprint (e : Environment) (directory : Path) : Command → List Path
  | .convert file output _ =>
    settingsPaths e directory ++ [file, output] ++ (file.fileName?.map output.join).toList
  | .migrate type _ _ store _ _ => settingsPaths e directory ++ storePaths store type
  | .showConfig | .validateConfig => settingsPaths e directory
  | .version | .programVersion => []

end TraefikUpgrade.CommandLine
