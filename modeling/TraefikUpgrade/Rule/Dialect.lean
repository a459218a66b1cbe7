/-
# Dialects of match rules

A rule is read under the matchers of version 2 (several values in a call, templates with placeholders)
or of version 3 (one value in a call, separate matchers for regular expressions).

Key definitions: `Dialect`, `Dialect.ofName?`.
-/
namespace TraefikUpgrade.Rule

/-- The matcher table under which a rule is read. -/
inductive Dialect where
  | v2
  | v3
deriving DecidableEq, Repr

/-- The version tag that routes carry. -/
def Dialect.name : Dialect → String
  | .v2 => "v2"
  | .v3 => "v3"

/-- The dialect of a version tag; each has an older second name. -/
def Dialect.ofName? : String → Option Dialect
  | "v2" | "old" => some .v2
  | "v3" | "new" => some .v3
  | _ => none

end TraefikUpgrade.Rule
