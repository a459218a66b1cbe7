/-
# The program

Collects the part of the file system that the command looks at, runs the command on it, and writes what
the command changed.

Key definition: `main`.
-/
import TraefikUpgrade.CommandLine.Footprint

namespace TraefikUpgrade.CommandLine

open FileSystem (Content Entry Location Path Tree)

/-- The path of a location on the disk. -/
def diskPath (l : Location) : String := "/" ++ String.intercalate "/" l

/-- The content of bytes. -/
def contentOf (bytes : ByteArray) : Content :=
  match String.fromUTF8? bytes with
  | some s => .text s
  | none => .binary bytes.toList

/-- The names in a directory on the disk, if there is one. -/
def diskNames (l : Location) : IO (Option (List String)) :=
  try
    let entries ← (← IO.FS.realPath (diskPath l)).readDir
    return some (entries.toList.map (·.fileName))
  catch _ => return none

/-- What is at a location on the disk. -/
def diskEntry (l : Location) : IO (Option Entry) := do
  if (← diskNames l).isSome then return some .directory
  try return some (.file (contentOf (← IO.FS.readBinFile (diskPath l))))
  catch _ => return none

/-- Collects what is at a location, and for a directory all that is in it. -/
partial def collect (t : Tree) (l : Location) : IO Tree := do
  match ← diskEntry l with
  | none => return t
  | some (.file content) => return t.put l (.file content)
  | some .directory =>
    let mut tree := t.put l .directory
    for name in (← diskNames l).getD [] do
      tree ← collect tree (l ++ [name])
    return tree

/-- Collects what is on the way to a path, and at the path itself. -/
def collectPath (whole : Bool) (t : Tree) (p : Path) : IO Tree := do
  let mut tree := t
  let mut l := tree.start p
  for part in FileSystem.steps p do
    match tree.step l part with
    | .error _ => return tree
    | .ok next =>
      l := next
      if (tree.lookup l).isNone then
        match ← diskEntry l with
        | none => return tree
        | some entry => tree := tree.put l entry
  if whole then collect tree l else return tree

/-- Whether all that is in the directories of a command's footprint counts. -/
def readsDirectories : Command → Bool
  | .migrate .. => true
  | _ => false

/-- Collects the working directory and what a command looks at. -/
def collectFor (e : Config.Environment) (directory : Path) (command : Command) : IO Tree := do
  let home ← collectPath false {} directory
  let location := (home.resolve directory).toOption.getD []
  let mut tree := { home with workingDirectory := location }
  for p in footprint e directory command do
    tree ← collectPath (readsDirectories command) tree p
  return tree

/-- Writes the files that differ between two trees. -/
def writeChanges (before after : Tree) : IO Unit := do
  for (l, entry) in after.entries do
    match entry with
    | .directory => pure ()
    | .file content =>
      if before.lookup l != some entry then
        IO.FS.createDirAll (diskPath l.dropLast)
        match content with
        | .text s => IO.FS.writeFile (diskPath l) s
        | .binary bytes => IO.FS.writeBinFile (diskPath l) ⟨bytes.toArray⟩

/-- The number of the user, from the status of the running process. -/
def userNumber? (status : String) : Option String :=
  (status.splitOn "\n").findSome? fun line =>
    match line.splitOn "\t" with
    | "Uid:" :: number :: _ => some number
    | _ => none

/-- The directory of a user in the user database. -/
def homeInDatabase? (database number : String) : Option Path :=
  (database.splitOn "\n").findSome? fun line =>
    match line.splitOn ":" with
    | [_, _, number', _, _, home, _] => if number' = number && home != "" then some ⟨home⟩ else none
    | _ => none

/-- The directory of the user: the one that a variable names, or else the one of the user database. -/
def homeDirectory? : IO (Option Path) := do
  let named := ((← IO.getEnv "HOME").filter (· != "")).map FileSystem.Path.mk
  try
    let status ← IO.FS.readFile "/proc/self/status"
    let database ← IO.FS.readFile "/etc/passwd"
    return named <|> (userNumber? status).bind (homeInDatabase? database)
  catch _ => return named

/-- The environment, with the variables of the given names. -/
def environment (names : List String) : IO Config.Environment := do
  let assignments ← names.filterMapM fun name => do
    return (← IO.getEnv name).map (name, ·)
  return ⟨← homeDirectory?, assignments⟩

/-- The names of the variables that settings files in a tree ask for. -/
def variableNames (t : Tree) : List String :=
  t.entries.filterMap fun e =>
    match e.2 with
    | .file (.text s) => ((Toml.read? s).bind Config.Settings.ofDocument?).bind (·.optOutVariable)
    | _ => none

/-- Runs a command on what is on the disk. -/
def runOnDisk (args : List String) : IO UInt32 := do
  let directory : Path := ⟨(← IO.FS.realPath ".").toString⟩
  let bare ← environment []
  match Command.ofArguments args with
  | .error stop =>
    IO.eprintln "usage: traefik-migrate convert | migrate | version | config show | config validate"
    return if stop = .help then 0 else 2
  | .ok command =>
    let tree ← collectFor bare directory command
    let e ← environment (variableNames tree)
    let input ← match command with
      | .convert file _ _ =>
        if file = stdio then contentOf <$> (← IO.getStdin).readBinToEnd else pure (.text "")
      | _ => pure (.text "")
    let outcome := run ⟨tree, e, input⟩ command
    try writeChanges tree outcome.tree
    catch e =>
      IO.eprintln ("error: Failed to write: " ++ toString e)
      return 1
    IO.print outcome.output
    IO.eprint outcome.errors
    return outcome.code.toUInt32

end TraefikUpgrade.CommandLine

def main (args : List String) : IO UInt32 := TraefikUpgrade.CommandLine.runOnDisk args
