/-
# Match rules as expressions

A rule is a matcher call, or is built from smaller rules by negation, conjunction and disjunction.

Key definitions: `Call`, `Expr`, `Expr.calls`.
-/
namespace TraefikUpgrade.Rule

/-- A matcher with its arguments, and the byte offset of its name in the rule. -/
structure Call where
  name : String
  args : List String
  offset : Nat
deriving DecidableEq, Repr

/-- A parsed rule. Parentheses leave no trace. -/
inductive Expr where
  | call (call : Call)
  | not (operand : Expr)
  | and (left right : Expr)
  | or (left right : Expr)
deriving DecidableEq, Repr

/-- The matcher calls of a rule, from left to right. -/
def Expr.calls : Expr → List Call
  | .call c => [c]
  | .not operand => operand.calls
  | .and left right => left.calls ++ right.calls
  | .or left right => left.calls ++ right.calls

end TraefikUpgrade.Rule
