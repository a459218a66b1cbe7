/-
# Kinds of resources

A kind belongs to an API group: the proxy's resources moved from one group to another with version 3,
under the same names. A registry holds the kinds whose resources are taken apart; those of all other
kinds are kept as they are.

Key definitions: `Group`, `ResourceType`, `GroupKind`, `Registry`, `Registry.lookup`.
-/
import TraefikUpgrade.Text.Cut

namespace TraefikUpgrade.Resource

/-- The API group of version 2 and that of version 3. -/
inductive Group where
  | v2
  | v3
deriving DecidableEq, Repr

def Group.name : Group → String
  | .v2 => "traefik.containo.us"
  | .v3 => "traefik.io"

/-- The types of resources that differ between the versions. -/
inductive ResourceType where
  | ingressRoute
  | middleware
deriving DecidableEq, Repr

def ResourceType.name : ResourceType → String
  | .ingressRoute => "IngressRoute"
  | .middleware => "Middleware"

/-- A type of resources in an API group. -/
structure GroupKind where
  group : Group
  type : ResourceType
deriving DecidableEq, Repr

namespace GroupKind

/-- The kind, a dot and the group. -/
def display (k : GroupKind) : String := k.type.name ++ "." ++ k.group.name

/-- The group with the version in which its resources are written. -/
def apiVersion (k : GroupKind) : String := k.group.name ++ "/v1alpha1"

def all : List GroupKind :=
  [⟨.v2, .ingressRoute⟩, ⟨.v2, .middleware⟩, ⟨.v3, .ingressRoute⟩,
    ⟨.v3, .middleware⟩]

end GroupKind

/-- The group in an API version: what stands before the slash. -/
def groupOf (apiVersion : String) : String :=
  match Text.cutAt '/' apiVersion.toList with
  | some (group, _) => String.ofList group
  | none => ""

/-- The kinds whose resources are taken apart. -/
abbrev Registry := List GroupKind

namespace Registry

/-- The registered kind of a document with the given API version and kind. The version within the group
does not count. -/
def lookup (r : Registry) (apiVersion kind : String) : Option GroupKind :=
  r.find? fun k => k.group.name == groupOf apiVersion && k.type.name == kind

end Registry

end TraefikUpgrade.Resource
