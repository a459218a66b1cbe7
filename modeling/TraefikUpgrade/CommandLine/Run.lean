/-
# Running a command

A command reads the settings, does its work on the file tree, and leaves a code, what it printed and the
new tree. An error that ends it is printed with what was being done, and nothing else is printed then.

Key definitions: `World`, `Outcome`, `run`.
-/
import TraefikUpgrade.CommandLine.Arguments
import TraefikUpgrade.Config.Layers
import TraefikUpgrade.Store.Migration

namespace TraefikUpgrade.CommandLine

open FileSystem (Content Path Tree)
open Config (Effective Environment)

variable [Regex.Limits]

/-- What a command finds. -/
structure World where
  tree : Tree
  environment : Environment
  input : Content := .text ""
deriving DecidableEq, Repr

/-- What a command leaves. -/
structure Outcome where
  code : Nat
  output : String := ""
  errors : String := ""
  tree : Tree
deriving DecidableEq, Repr

/-- An error that ends a command: what was being done, and the cause if there is one. -/
structure Fatal where
  doing : String
  cause : Option String := none
deriving DecidableEq, Repr

def Fatal.text (f : Fatal) : String :=
  "error: " ++ f.doing ++ "\n" ++
    match f.cause with
    | some cause => "\nCaused by:\n    " ++ cause ++ "\n"
    | none => ""

/-- The code of a command that did all its work, and of one that did not. -/
def exitCode (success : Bool) : Nat := if success then 0 else 1

/-- The working directory as a path. -/
def workingPath (t : Tree) : Path := ⟨"/" ++ String.intercalate "/" t.workingDirectory⟩

/-- The settings that count in the working directory. -/
def settings (w : World) : Except Fatal Effective :=
  match Config.layers w.tree w.environment (workingPath w.tree) with
  | .ok layers => .ok (.ofLayers layers)
  | .error fault => .error ⟨"Failed to load configuration", some fault.message⟩

/-- The options of a conversion under settings. -/
def conversionOptions (s : Effective) (keepSyntax : Bool) : Conversion.Options :=
  ⟨s.keepSyntax || keepSyntax, s.skipAnnotations⟩

/-- The text of the manifests to convert. -/
def readManifests (w : World) (file : Path) : Except Fatal String :=
  if file = stdio then
    match w.input with
    | .text s => .ok s
    | .binary _ => .error { doing := "Failed to read manifests from stdin" }
  else match w.tree.readText file with
    | .ok s => .ok s
    | .error _ => .error { doing := "Failed to read " ++ file.text }

/-- The file to write. In a directory it gets the name of the input. -/
def target (t : Tree) (file output : Path) : Except Fatal Path :=
  if t.isDirectory output then
    match file.fileName? with
    | some name =>
      if file = stdio then .error (isDirectory output) else .ok (output.join name)
    | none => .error (isDirectory output)
  else .ok output
where
  isDirectory (output : Path) : Fatal :=
    { doing := "Output " ++ output.text ++ " is a directory, which requires an input file" }

/-- Delivers a text to the standard output or to a file. -/
def deliver (t : Tree) (file output : Path) (text : String) : Except Fatal (String × Tree) :=
  if output = stdio then .ok (text, t)
  else do
    let p ← target t file output
    match t.write p (.text text) with
    | .ok t => return ("", t)
    | .error _ => throw { doing := "Failed to write " ++ p.text }

/-- Converts manifests. -/
def convert (w : World) (file output : Path) (keepSyntax : Bool) : Except Fatal Outcome := do
  let settings ← settings w
  let text ← readManifests w file
  match Resource.decode Resource.GroupKind.all text with
  | .error fault => throw ⟨"Failed to parse manifests", some fault.message⟩
  | .ok manifests =>
    let report := Conversion.convertAll (conversionOptions settings keepSyntax) manifests
    match Resource.encode? report.converted with
    | none => throw { doing := "Failed to encode manifests" }
    | some encoded =>
      let (printed, tree) ← deliver w.tree file output encoded
      let summary := toString report.failures.length ++ " of " ++ toString manifests.length ++
        " resources failed to convert\n"
      return {
        code := exitCode report.isSuccess
        output := printed
        errors := if report.isSuccess then "" else summary
        tree }

/-- The line that tells what became of the resources of a migration. -/
def migrationSummary (r : Store.Report) (dryRun : Bool) : String :=
  toString r.created.length ++ " created, " ++ toString r.alreadyExists.length ++
    " already existed, " ++ toString r.skipped.length ++ " skipped, " ++
    toString r.failures.length ++ " failed" ++ (if dryRun then " (dry run)" else "") ++ "\n"

/-- Migrates the resources in a store. -/
def migrate (w : World) (store : Path) (request : Effective → Store.Request) : Outcome :=
  match settings w with
  | .error fatal => { code := 1, errors := fatal.text, tree := w.tree }
  | .ok settings =>
    let request := request settings
    match Store.migrate ⟨store, Resource.GroupKind.all⟩ (conversionOptions settings false) request
        w.tree with
    | (.ok report, tree) =>
      { code := exitCode report.isSuccess
        output := migrationSummary report request.dryRun
        tree }
    | (.error fault, tree) =>
      let fatal : Fatal :=
        ⟨"Failed to migrate " ++ Store.typeName request.type ++ " resources", some fault.message⟩
      { code := 1, errors := fatal.text, tree }

/-- Lines of text. -/
def lines (ls : List String) : String := String.join (ls.map (· ++ "\n"))

/-- The lines that tell where the user's own file is looked for, if that is known. -/
def userLines (w : World) : List String :=
  match Config.userPath? w.environment with
  | none => []
  | some path =>
    ["User config path: " ++ path.text,
      if w.tree.doesExist path then "  (exists)" else "  (not found)"]

/-- Shows the settings and where they are from. -/
def showConfig (w : World) : Except Fatal Outcome := do
  let settings ← settings w
  let sources := if settings.sources.isEmpty then ["No configuration files found."]
    else "Configuration files (most specific first):" :: settings.sources.map ("  " ++ ·.text)
  let skipped := if settings.skipAnnotations.isEmpty then ["  skip-annotations: (none)"]
    else "  skip-annotations:" :: settings.skipAnnotations.map ("    " ++ ·)
  return {
    code := 0
    output := lines (sources ++ ["", "Effective configuration:",
      "  keep-syntax: " ++ toString settings.keepSyntax,
      "  skip-deprecated: " ++ toString settings.skipDeprecated] ++ skipped ++
      "" :: userLines w)
    tree := w.tree }

/-- Checks all files of settings that count. -/
def validateConfig (w : World) : Outcome :=
  match Config.layers w.tree w.environment (workingPath w.tree) with
  | .error fault => { code := 1, errors := "Configuration error: " ++ fault.message ++ "\n", tree := w.tree }
  | .ok [] => { code := 0, output := "No configuration files found.\n", tree := w.tree }
  | .ok layers =>
    { code := 0
      output := lines ("All configuration files are valid:" :: layers.map ("  " ++ ·.path.text))
      tree := w.tree }

/-- The outcome of a command that may be ended by an error. -/
def conclude (w : World) : Except Fatal Outcome → Outcome
  | .ok outcome => outcome
  | .error fatal => { code := 1, errors := fatal.text, tree := w.tree }

/-- The version of the program. -/
def version : String := "0.1.0"

/-- Runs a command. -/
def run (w : World) : Command → Outcome
  | .convert file output keepSyntax => conclude w (convert w file output keepSyntax)
  | .migrate type name ns store dryRun skipDeprecated =>
    migrate w store fun settings =>
      ⟨type, name, ns, dryRun, skipDeprecated || settings.skipDeprecated⟩
  | .version => { code := 0, output := version ++ "\n", tree := w.tree }
  | .programVersion => { code := 0, output := "traefik-migrate " ++ version ++ "\n", tree := w.tree }
  | .showConfig => conclude w (showConfig w)
  | .validateConfig => validateConfig w

/-- Runs the command that arguments ask for. -/
def runArguments (w : World) (args : List String) : Outcome :=
  match Command.ofArguments args with
  | .ok command => run w command
  | .error .usage => { code := 2, tree := w.tree }
  | .error .help => { code := 0, tree := w.tree }

end TraefikUpgrade.CommandLine
