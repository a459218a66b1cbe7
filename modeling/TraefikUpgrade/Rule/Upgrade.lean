/-
# Upgrading a rule

Every call of a version 2 matcher is replaced by its version 3 form; the text around the calls stays as
it is. The result must be a rule of version 3.

Key definitions: `Failure`, `upgradeFragment`, `upgrade`.
-/
import TraefikUpgrade.Rule.CallSite
import TraefikUpgrade.Rule.Check
import TraefikUpgrade.Rule.Matcher

namespace TraefikUpgrade.Rule

variable [Regex.Limits]

/-- Why a rule cannot be taken over: a template of it, or the rule itself under a dialect. -/
inductive Failure where
  | pattern (fault : Pattern.Fault)
  | rejected (rule : String) (dialect : Dialect) (refusal : Refusal)
deriving DecidableEq, Repr

/-- The cause in full. -/
def Failure.message : Failure → String
  | .pattern fault => fault.message
  | .rejected rule dialect refusal =>
    "Rule rejected under " ++ dialect.name ++ " syntax: " ++ rule ++ ": " ++ refusal.message

/-- Whether a failure shows a defect of the compilation of templates, and not of the rule. -/
def Failure.isInvariantViolation : Failure → Bool
  | .pattern (.groupCount ..) => true
  | _ => false

/-- Whether a failure is due to a rule or template that is not well formed. -/
def Failure.isRuleFault : Failure → Bool
  | .pattern (.template _) | .pattern (.invalid _) | .rejected .. => true
  | .pattern (.groupCount ..) => false

/-- The new text of a piece of a rule. -/
def upgradeFragment : Fragment → Except Pattern.Fault (List Char)
  | .other c => .ok [c]
  | .call site source => do
    let upgraded ← (Matcher.ofName (String.ofList site.name)).upgrade (site.args.map String.ofList)
    return (upgraded.map String.toList).getD source

/-- The new text of a rule. -/
def upgradeText (rule : String) : Except Pattern.Fault String := do
  let pieces ← (fragments rule.toList).mapM upgradeFragment
  return String.ofList pieces.flatten

/-- A rule in its version 3 form, which is checked with the priority of the route. -/
def upgrade (rule : String) (priority : Int) : Except Failure String :=
  match upgradeText rule with
  | .error fault => .error (.pattern fault)
  | .ok upgraded =>
    match validate upgraded .v3 priority with
    | .error refusal => .error (.rejected upgraded .v3 refusal)
    | .ok _ => .ok upgraded

end TraefikUpgrade.Rule
