/-
# Regular expressions of templates

A template becomes a regular expression in which its text is escaped and each placeholder is one named
group, with its own pattern or the default one of the matcher. The result must be a regular expression
with just these groups.

Key definitions: `MatchKind`, `escapeMeta`, `regexOf`, `compile`.
-/
import TraefikUpgrade.Regex.Limits
import TraefikUpgrade.Rule.Template

namespace TraefikUpgrade.Rule

/-- What a template is matched against. -/
inductive MatchKind where
  | path
  | pathPrefix
  | host
  | query
deriving DecidableEq, Repr

namespace MatchKind

/-- The pattern of a placeholder without one: a path segment, a label of a host name, or any text. -/
def defaultPattern : MatchKind → String
  | .path | .pathPrefix => "[^/]+"
  | .host => "[^.]+"
  | .query => ".*"

/-- Whether the expression must match up to the end. -/
def anchorsEnd : MatchKind → Bool
  | .pathPrefix => false
  | .path | .host | .query => true

end MatchKind

/-- The characters that are escaped in the text of a template. -/
def escapedChars : List Char :=
  ['\\', '.', '+', '*', '?', '(', ')', '|', '[', ']', '{', '}', '^', '$']

/-- A text as a pattern that matches it alone. -/
def escapeMeta (text : List Char) : List Char :=
  text.flatMap fun c => if escapedChars.contains c then ['\\', c] else [c]

/-- The group of a placeholder. -/
def groupName (name : String) : String :=
  String.ofList (name.toList.map fun c => if c = '-' then '_' else c)

/-- The part of the expression for a segment. -/
def segmentPattern (kind : MatchKind) : Template.Segment → List Char
  | .literal text => escapeMeta text.toList
  | .placeholder p =>
    "(?P<".toList ++ (groupName p.name).toList ++ '>' ::
      (p.pattern.getD kind.defaultPattern).toList ++ [')']

/-- Whether a text ends with its first equals sign, as a query without a value does. -/
def endsAtFirstEquals (cs : List Char) : Bool :=
  match Text.cutAt '=' cs with
  | some (_, value) => value.isEmpty
  | none => false

/-- The expression of a template. A query that ends with its first equals sign takes any value. -/
def regexOf (kind : MatchKind) (t : Template) : String :=
  let body := t.segments.flatMap (segmentPattern kind)
  let anyValue := if kind = .query && endsAtFirstEquals t.source.toList then
    kind.defaultPattern.toList else []
  String.ofList ('^' :: body ++ anyValue ++ if kind.anchorsEnd then ['$'] else [])

/-- A regular expression with the number of its groups. -/
structure Pattern where
  source : String
  groupCount : Nat
  kind : MatchKind
deriving DecidableEq, Repr

namespace Pattern

/-- Why a template gives no regular expression. -/
inductive Fault where
  | template (fault : Template.Fault)
  | invalid (pattern : String)
  | groupCount (template : String) (expected found : Nat)
deriving DecidableEq, Repr

def Fault.message : Fault → String
  | .template f => f.message
  | .invalid pattern => "Invalid regex pattern compiled from template: " ++ pattern
  | .groupCount source expected found =>
    "Template " ++ Text.quoted source ++ " compiled to " ++ toString found ++
      " capture groups but has " ++ toString expected ++ " placeholders; only non-capturing " ++
      "groups are accepted, e.g. (?:pattern) instead of (pattern)"

end Pattern

/-- The regular expression of a template, with as many groups as the template has placeholders. -/
def compile [Regex.Limits] (template : String) (kind : MatchKind) : Except Pattern.Fault Pattern :=
  match Template.parse template with
  | .error fault => .error (.template fault)
  | .ok t =>
    let source := regexOf kind t
    match Regex.parse source with
    | none => .error (.invalid source)
    | some ast =>
      let found := ast.captures.length
      let expected := t.placeholders.length
      if found = expected then .ok ⟨source, found, kind⟩
      else .error (.groupCount template expected found)

end TraefikUpgrade.Rule
