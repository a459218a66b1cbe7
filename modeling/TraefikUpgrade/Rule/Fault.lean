/-
# What can be wrong with a match rule

`Fault` lists the causes for which a rule is refused, those of its text and those of a matcher call, and
`Refusal` joins a cause with the byte offset that it concerns. The wording is in the `message` functions.

Key definitions: `Fault`, `Refusal`, `Fault.message`.
-/
import TraefikUpgrade.Rule.Token
import TraefikUpgrade.Rule.Template

namespace TraefikUpgrade.Rule

/-- The highest priority that a route may have; the numbers above it belong to the proxy itself. -/
def maxPriority : Int := 9223372036854774807

/-- What the parser was looking for. -/
inductive Wanted where
  | matcher
  | argument
  | token (token : Token)
deriving DecidableEq, Repr

def Wanted.describe : Wanted → String
  | .matcher => "a matcher"
  | .argument => "a string argument"
  | .token t => t.describe

/-- Why the arguments of a matcher are refused. -/
inductive ArgumentFault where
  | count (expected found : Nat)
  | none
  | notOneOrTwo (found : Nat)
  | blank
  | template (fault : Template.Fault)
  | notKeyValue (arg : String)
  | regexp (pattern : String)
  | host (value : String)
  | relativePath (path : String)
  | address (value : String)
deriving DecidableEq, Repr

/-- What is told about the arguments. What a regular expression lacks is for the library to say that
compiles it, and is left out. -/
def ArgumentFault.message : ArgumentFault → String
  | .count expected found =>
    "expected " ++ toString expected ++ " argument(s), got " ++ toString found
  | .none => "expected at least one argument"
  | .notOneOrTwo found => "expected 1 or 2 arguments, got " ++ toString found
  | .blank => "empty argument"
  | .template fault => fault.message
  | .notKeyValue arg => "query " ++ Text.quoted arg ++ " is not a key=value pair"
  | .regexp pattern => "invalid regexp " ++ Text.quoted pattern
  | .host value =>
    "invalid value " ++ Text.quoted value ++ " for Host matcher, only non-empty ASCII is allowed"
  | .relativePath path => "path " ++ Text.quoted path ++ " does not start with a '/'"
  | .address value => Text.quoted value ++ " is not an IP address or CIDR"

/-- Why a rule is refused. -/
inductive Fault where
  | empty
  | single (operator : Char)
  | unterminatedString
  | character (c : Char)
  | expected (wanted : Wanted) (found : Option Token)
  | unexpected (token : Token)
  | priority (value : Int)
  | unsupported (name : String)
  | argument (name : String) (fault : ArgumentFault)
deriving DecidableEq, Repr

def Fault.message : Fault → String
  | .empty => "empty rule"
  | .single operator => "expected '" ++ String.ofList [operator, operator] ++ "'"
  | .unterminatedString => "unterminated string"
  | .character c => "unexpected character " ++ Text.quotedChar c
  | .expected wanted (some found) =>
    "expected " ++ wanted.describe ++ ", found " ++ found.describe
  | .expected wanted none => "expected " ++ wanted.describe ++ ", found end of rule"
  | .unexpected token => "unexpected " ++ token.describe
  | .priority value =>
    "priority " ++ toString value ++ " exceeds the maximum priority " ++ toString maxPriority
  | .unsupported name => "unsupported matcher " ++ name
  | .argument name fault => name ++ ": " ++ fault.message

/-- A cause and the byte offset in the rule that it concerns. -/
structure Refusal where
  offset : Nat
  fault : Fault
deriving DecidableEq, Repr

/-- The cause with its place, as it stands in a longer message. -/
def Refusal.message (r : Refusal) : String :=
  r.fault.message ++ " (at offset " ++ toString r.offset ++ ")"

end TraefikUpgrade.Rule
