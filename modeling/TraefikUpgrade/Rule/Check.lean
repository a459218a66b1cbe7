/-
# Checking a rule under a dialect

Each dialect has a table of matchers with the number and the form of their arguments. A rule is accepted
under a dialect if it can be parsed and each of its calls is in order; the first call that is not decides
the refusal.

Key definitions: `checkCall`, `Route`, `validate`.
-/
import TraefikUpgrade.Net.Address
import TraefikUpgrade.Regex.Limits
import TraefikUpgrade.Rule.Dialect
import TraefikUpgrade.Rule.Parser

namespace TraefikUpgrade.Rule

variable [Regex.Limits]

/-- The outcome of checking arguments. -/
abbrev Verdict := Except ArgumentFault Unit

/-- There must be `expected` arguments. -/
def checkCount (expected : Nat) (args : List String) : Verdict :=
  if args.length = expected then .ok () else .error (.count expected args.length)

/-- There must be an argument, and each must pass the check. -/
def checkEach (check : String → Verdict) (args : List String) : Verdict :=
  if args.isEmpty then .error .none else args.forM check

/-- The argument must hold more than blanks. -/
def checkFilled (arg : String) : Verdict :=
  if Unicode.isBlank arg then .error .blank else .ok ()

/-- The argument must be a template. -/
def checkTemplate (arg : String) : Verdict :=
  match Template.parse arg with
  | .ok _ => .ok ()
  | .error fault => .error (.template fault)

/-- The argument must be a regular expression. -/
def checkRegex (arg : String) : Verdict :=
  if Regex.isValid arg then .ok () else .error (.regexp arg)

/-- The argument must be an address or a network. -/
def checkAddress (arg : String) : Verdict :=
  if Net.isAddressOrNetwork arg then .ok () else .error (.address arg)

/-- The argument must be a key, an equals sign and a template. -/
def checkKeyValue (arg : String) : Verdict :=
  match Text.cutAt '=' arg.toList with
  | some (_ :: _, value) => checkTemplate (String.ofList value)
  | _ => .error (.notKeyValue arg)

/-- The argument must be a host name of ASCII characters. -/
def checkHost (arg : String) : Verdict :=
  if arg.isEmpty || !arg.toList.all (·.val < 0x80) then .error (.host arg) else .ok ()

/-- The argument must be an absolute path. -/
def checkPath (arg : String) : Verdict :=
  if arg.toList.head? = some '/' then .ok () else .error (.relativePath arg)

/-- There must be one argument, and it must pass the check. -/
def checkOne (check : String → Verdict) (args : List String) : Verdict := do
  checkCount 1 args
  args.forM check

/-- There must be two arguments, and the second must be a regular expression. -/
def checkKeyRegex (args : List String) : Verdict := do
  checkCount 2 args
  (args.drop 1).forM checkRegex

/-- There must be one argument or two, and the first must hold more than blanks. -/
def checkQuery (args : List String) : Verdict :=
  match args with
  | [key] | [key, _] => checkFilled key
  | args => .error (.notOneOrTwo args.length)

/-- The check of a matcher's arguments in version 2, if it is a matcher there. -/
def checkV2? (name : String) : Option (List String → Verdict) :=
  match name with
  | "Host" | "HostHeader" | "Method" => some (checkEach checkFilled)
  | "HostRegexp" | "Path" | "PathPrefix" => some (checkEach checkTemplate)
  | "Headers" => some (checkCount 2)
  | "HeadersRegexp" => some checkKeyRegex
  | "Query" => some (checkEach checkKeyValue)
  | "ClientIP" => some (checkEach checkAddress)
  | _ => none

/-- The check of a matcher's arguments in version 3, if it is a matcher there. -/
def checkV3? (name : String) : Option (List String → Verdict) :=
  match name with
  | "Host" => some (checkOne checkHost)
  | "HostRegexp" | "PathRegexp" => some (checkOne checkRegex)
  | "Path" | "PathPrefix" => some (checkOne checkPath)
  | "Method" => some (checkOne checkFilled)
  | "Header" => some (checkCount 2)
  | "HeaderRegexp" | "QueryRegexp" => some checkKeyRegex
  | "Query" => some checkQuery
  | "ClientIP" => some (checkOne checkAddress)
  | _ => none

/-- The check of a matcher's arguments in a dialect. -/
def Dialect.check? : Dialect → String → Option (List String → Verdict)
  | .v2 => checkV2?
  | .v3 => checkV3?

/-- Checks a call against the table of a dialect. -/
def checkCall (dialect : Dialect) (call : Call) : Except Refusal Unit :=
  match dialect.check? call.name with
  | none => .error ⟨call.offset, .unsupported call.name⟩
  | some check =>
    match check call.args with
    | .ok () => .ok ()
    | .error fault => .error ⟨call.offset, .argument call.name fault⟩

/-- An accepted rule with the priority that it gets. -/
structure Route where
  expr : Expr
  dialect : Dialect
  priority : Int
deriving DecidableEq, Repr

/-- Reads a rule and checks its calls. A priority of zero stands for the length of the rule. -/
def validate (rule : String) (dialect : Dialect) (priority : Int) : Except Refusal Route :=
  if maxPriority < priority then .error ⟨0, .priority priority⟩
  else do
    let expr ← parse rule
    expr.calls.forM (checkCall dialect)
    return ⟨expr, dialect, if priority = 0 then Text.utf8Length rule.toList else priority⟩

end TraefikUpgrade.Rule
