/-
# Tokens of a match rule

A rule is written with matcher names, string arguments, parentheses, commas and the three operators.
`Located` is a token with the byte offset where it starts.

Key definitions: `Token`, `Located`, `Token.describe`.
-/
import TraefikUpgrade.Text.Quoted

namespace TraefikUpgrade.Rule

/-- A token of a match rule. -/
inductive Token where
  | identifier (name : String)
  | text (value : String)
  | openParen
  | closeParen
  | comma
  | conjunction
  | disjunction
  | negation
deriving DecidableEq, Repr

/-- A token as messages name it. -/
def Token.describe : Token → String
  | .identifier name => "identifier `" ++ name ++ "`"
  | .text value => "string " ++ Text.quoted value
  | .openParen => "'('"
  | .closeParen => "')'"
  | .comma => "','"
  | .conjunction => "'&&'"
  | .disjunction => "'||'"
  | .negation => "'!'"

/-- A token and the byte offset of its first character in the rule. -/
structure Located where
  offset : Nat
  token : Token
deriving DecidableEq, Repr

end TraefikUpgrade.Rule
