/-
# Arguments of the command line

The first argument names a command, which takes options. The value of an option follows it, either as
the next argument or in the same one; it cannot begin with a hyphen if it is an argument of its own,
unless it is nothing but a hyphen. No option may be given twice, and nothing but options is accepted.

Key definitions: `OptionName`, `readOptions`, `Command`, `Command.ofArguments`.
-/
import TraefikUpgrade.FileSystem.Path
import TraefikUpgrade.Resource.GroupKind

namespace TraefikUpgrade.CommandLine

open FileSystem (Path)
open Resource (ResourceType)

/-- Why arguments do not lead to a command. -/
inductive Stop where
  | usage
  | help
deriving DecidableEq, Repr

/-- An option that a command knows. -/
structure OptionName where
  long : String
  short : Option Char := none
  takesValue : Bool := true
deriving DecidableEq, Repr

/-- The form of an argument. -/
inductive Form where
  /-- Two hyphens, a name and perhaps an equals sign and a value. -/
  | long (name : String) (value : Option String)
  /-- A hyphen, a letter and what follows it. -/
  | short (letter : Char) (rest : String)
  | separator
  | plain
deriving DecidableEq, Repr

/-- The form of an argument. -/
def formOf (arg : String) : Form :=
  match arg.toList with
  | ['-', '-'] => .separator
  | '-' :: '-' :: name =>
    match Text.cutAt '=' name with
    | some (name, value) => .long (String.ofList name) (some (String.ofList value))
    | none => .long (String.ofList name) none
  | '-' :: letter :: rest => .short letter (String.ofList rest)
  | _ => .plain

/-- Whether an argument can be the value of the option before it. -/
def isValue (arg : String) : Bool := formOf arg = .plain

/-- The value in the argument of a short option. -/
def attached? (rest : String) : Option String :=
  match rest.toList with
  | [] => none
  | '=' :: value => some (String.ofList value)
  | value => some (String.ofList value)

/-- The options that are given, with their values. -/
abbrev Given := List (String × String)

/-- The option of an argument, and the value in it. -/
def readOption (known : List OptionName) (arg : String) :
    Except Stop (OptionName × Option String) :=
  match formOf arg with
  | .separator | .plain => .error .usage
  | .long name value =>
    if name = "help" then .error (if value.isSome then .usage else .help)
    else match known.find? (·.long == name) with
      | none => .error .usage
      | some option => .ok (option, value)
  | .short letter rest =>
    if letter = 'h' then .error .help
    else match known.find? (·.short == some letter) with
      | none => .error .usage
      | some option => .ok (option, attached? rest)

/-- Reads options. Two hyphens end them, after which nothing may follow. -/
def readOptions (known : List OptionName) : List String → Except Stop Given
  | [] => .ok []
  | ["--"] => .ok []
  | [arg] => do
    let (option, value) ← readOption known arg
    match option.takesValue, value with
    | true, some value => return [(option.long, value)]
    | false, none => return [(option.long, "")]
    | _, _ => throw .usage
  | arg :: next :: rest => do
    let (option, value) ← readOption known arg
    match option.takesValue, value with
    | true, some value => return (option.long, value) :: (← readOptions known (next :: rest))
    | true, none =>
      if isValue next then return (option.long, next) :: (← readOptions known rest)
      else throw .usage
    | false, none => return (option.long, "") :: (← readOptions known (next :: rest))
    | false, some _ => throw .usage

/-- The value of an option that names a path, which must not be empty. -/
def pathValue (text : String) : Except Stop Path :=
  if text.isEmpty then .error .usage else .ok ⟨text⟩

/-- The type of resources of a name. Case does not count. -/
def resourceType (text : String) : Except Stop ResourceType :=
  match text.toLower with
  | "ingressroute" | "ingress-route" => .ok .ingressRoute
  | "middleware" => .ok .middleware
  | _ => .error .usage

/-- The path that stands for the standard input or output. -/
def stdio : Path := ⟨"-"⟩

/-- What the program is asked to do. -/
inductive Command where
  | convert (file output : Path) (keepSyntax : Bool)
  | migrate (type : ResourceType) (name «namespace» : Option String) (store : Path)
      (dryRun skipDeprecated : Bool)
  | version
  | programVersion
  | showConfig
  | validateConfig
deriving DecidableEq, Repr

def convertOptions : List OptionName :=
  [{ long := "file", short := some 'f' }, { long := "output", short := some 'o' },
    { long := "keep-syntax", takesValue := false }]

def migrateOptions : List OptionName :=
  [{ long := "resource-type", short := some 't' }, { long := "resource-name", short := some 'r' },
    { long := "namespace", short := some 'n' }, { long := "store" },
    { long := "dry-run", takesValue := false }, { long := "skip-deprecated", takesValue := false }]

/-- Reads the options of a command, none of which may be given twice. -/
def readDistinct (known : List OptionName) (args : List String) : Except Stop Given := do
  let given ← readOptions known args
  if (given.map Prod.fst).Nodup then return given else throw .usage

/-- A command without options. -/
def alone (command : Command) (args : List String) : Except Stop Command := do
  let _ ← readDistinct [] args
  return command

/-- The commands, with the names of their actions. -/
def topics : List (List String) :=
  [["convert"], ["migrate"], ["version"], ["config"], ["config", "show"], ["config", "validate"],
    ["config", "help"], ["help"]]

/-- Whether there is help on a topic. Without a topic it is on the whole program. -/
def hasHelp (topic : List String) : Bool := topic.isEmpty || topics.contains topic

namespace Command

def ofConvert (args : List String) : Except Stop Command := do
  let given ← readDistinct convertOptions args
  let file ← pathValue ((given.lookup "file").getD stdio.text)
  let output ← pathValue ((given.lookup "output").getD stdio.text)
  return .convert file output (given.lookup "keep-syntax").isSome

def ofMigrate (args : List String) : Except Stop Command := do
  let given ← readDistinct migrateOptions args
  match given.lookup "resource-type", given.lookup "store" with
  | some type, some store =>
    return .migrate (← resourceType type) (given.lookup "resource-name") (given.lookup "namespace")
      (← pathValue store) (given.lookup "dry-run").isSome (given.lookup "skip-deprecated").isSome
  | _, _ => throw .usage

/-- The command that arguments ask for. -/
def ofArguments (args : List String) : Except Stop Command :=
  match args with
  | "convert" :: args => ofConvert args
  | "migrate" :: args => ofMigrate args
  | "version" :: args => alone .version args
  | "config" :: "show" :: args => alone .showConfig args
  | "config" :: "validate" :: args => alone .validateConfig args
  | "config" :: "help" :: topic => .error (if hasHelp ("config" :: topic) then .help else .usage)
  | ["config", "--help"] | ["config", "-h"] => .error .help
  | "help" :: topic => .error (if hasHelp topic then .help else .usage)
  | arg :: _ =>
    match formOf arg with
    | .long "version" none => .ok .programVersion
    | .long "help" none => .error .help
    | .short 'V' _ => .ok .programVersion
    | .short 'h' _ => .error .help
    | _ => .error .usage
  | [] => .error .usage

end Command

end TraefikUpgrade.CommandLine
