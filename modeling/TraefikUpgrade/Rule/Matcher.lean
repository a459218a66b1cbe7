/-
# Upgrading a matcher call

The matchers of version 2 take several values, and templates as values. In version 3 a call has one
value, and a regular expression has a matcher of its own; alternatives are joined by `||`, in
parentheses if there are several.

Key definitions: `Matcher`, `Matcher.ofName`, `Matcher.upgrade`.
-/
import TraefikUpgrade.Rule.Pattern

namespace TraefikUpgrade.Rule

variable [Regex.Limits]

/-- The matchers that have another form in version 3; any other one is opaque. -/
inductive Matcher where
  | path
  | pathPrefix
  | host
  | clientIP
  | method
  | headers
  | headersRegexp
  | query
  | opaqueCall
deriving DecidableEq, Repr

namespace Matcher

/-- The matcher of a name. A host has three names. -/
def ofName (name : String) : Matcher :=
  match name with
  | "Path" => .path
  | "PathPrefix" => .pathPrefix
  | "Host" | "HostHeader" | "HostRegexp" => .host
  | "ClientIP" => .clientIP
  | "Method" => .method
  | "Headers" => .headers
  | "HeadersRegexp" => .headersRegexp
  | "Query" => .query
  | _ => .opaqueCall

end Matcher

/-- A call of a matcher with arguments in backticks. -/
def callText (name : String) (args : List String) : String :=
  name ++ "(" ++ String.intercalate ", " (args.map fun arg => "`" ++ arg ++ "`") ++ ")"

/-- Alternatives as one rule. -/
def anyOf : List String → String
  | [call] => call
  | calls => if calls.isEmpty then "" else "(" ++ String.intercalate " || " calls ++ ")"

/-- The call for a value: the matcher itself for a text, its counterpart for expressions for a
template. -/
def templatedCall (name regexpName : String) (kind : MatchKind) (arg : String) :
    Except Pattern.Fault String :=
  if hasMetacharacter arg then do
    let pattern ← compile arg kind
    return callText regexpName [pattern.source]
  else .ok (callText name [arg])

/-- The call for a key, or a key and a value joined by an equals sign. A value must be a template even
if it is taken as it is. -/
def queryCall (arg : String) : Except Pattern.Fault String :=
  match Text.cutAt '=' arg.toList with
  | none => .ok (callText "Query" [arg])
  | some (key, []) => .ok (callText "Query" [String.ofList key])
  | some (key, value) => do
    let pattern ← compile (String.ofList value) .query
    if hasMetacharacter (String.ofList value) then
      return callText "QueryRegexp" [String.ofList key, pattern.source]
    else return callText "Query" [String.ofList key, String.ofList value]

/-- The call for a header name and value, if both are there. Further arguments do not count. -/
def headerCall? (name : String) : List String → Option String
  | key :: value :: _ => some (callText name [key, value])
  | _ => none

/-- The rule that stands for a call in version 3, if the call must change. -/
def Matcher.upgrade (m : Matcher) (args : List String) : Except Pattern.Fault (Option String) :=
  if args.isEmpty then .ok none
  else match m with
    | .path =>
      return some (anyOf (← args.mapM (templatedCall "Path" "PathRegexp" .path)))
    | .pathPrefix =>
      return some (anyOf (← args.mapM (templatedCall "PathPrefix" "PathRegexp" .pathPrefix)))
    | .host =>
      return some (anyOf (← args.mapM (templatedCall "Host" "HostRegexp" .host)))
    | .clientIP => .ok (some (anyOf (args.map fun arg => callText "ClientIP" [arg])))
    | .method => .ok (some (anyOf (args.map fun arg => callText "Method" [arg])))
    | .headers => .ok (headerCall? "Header" args)
    | .headersRegexp => .ok (headerCall? "HeaderRegexp" args)
    | .query => return some (anyOf (← args.mapM queryCall))
    | .opaqueCall => .ok none

end TraefikUpgrade.Rule
