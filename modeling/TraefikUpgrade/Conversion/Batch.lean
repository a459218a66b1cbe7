/-
# Converting manifests

The resources of version 2 are converted; all other manifests are left as they are. In a batch a
resource that cannot be converted does not stop the others.

Key definitions: `convertAs`, `convert`, `Failure`, `Report`, `convertAll`.
-/
import TraefikUpgrade.Conversion.IngressRoute
import TraefikUpgrade.Conversion.Middleware
import TraefikUpgrade.Resource.Manifest

namespace TraefikUpgrade.Conversion

open Resource

variable [Regex.Limits]

/-- Why a manifest cannot be converted as one of a given type. -/
inductive Fault where
  | mismatch (expected : GroupKind) (found : String)
  | rule (failure : Rule.Failure)
deriving DecidableEq, Repr

def Fault.message : Fault → String
  | .mismatch expected found =>
    "Converter for " ++ expected.display ++ " received a " ++ found ++ " document"
  | .rule failure => failure.message

/-- Converts a manifest that must be a resource of version 2 of the given type. -/
def convertAs (type : ResourceType) (options : Options) (m : Manifest) : Except Fault Manifest :=
  match type, m with
  | .ingressRoute, .ingressRouteV2 r =>
    match ingressRoute options r with
    | .ok r => .ok (.ingressRouteV3 r)
    | .error failure => .error (.rule failure)
  | .middleware, .middlewareV2 r => .ok (.middlewareV3 (middleware options.skipAnnotations r))
  | _, m => .error (.mismatch ⟨.v2, type⟩ m.kind)

/-- A resource that cannot be converted, and why. -/
structure Failure where
  kind : String
  «namespace» : String
  name : String
  cause : Rule.Failure
deriving DecidableEq, Repr

def Failure.message (f : Failure) : String :=
  "Failed to convert " ++ f.kind ++ " " ++ f.namespace ++ "/" ++ f.name ++ ": " ++ f.cause.message

/-- Whether resources of a kind are converted. -/
def handles (k : GroupKind) : Bool := k.group == .v2

/-- Converts a manifest if it is a resource of version 2. -/
def convert (options : Options) (m : Manifest) : Except Failure Manifest :=
  match m with
  | .ingressRouteV2 r =>
    match ingressRoute options r with
    | .ok r => .ok (.ingressRouteV3 r)
    | .error cause => .error ⟨m.kind, m.namespace, m.name, cause⟩
  | .middlewareV2 r => .ok (.middlewareV3 (middleware options.skipAnnotations r))
  | m => .ok m

/-- What became of a batch. -/
structure Report where
  /-- The manifests that were converted, and those that needed no conversion. -/
  converted : List Manifest := []
  failures : List Failure := []

namespace Report

def isSuccess (r : Report) : Bool := r.failures.isEmpty

/-- Puts the outcome for a manifest in front. -/
def cons (outcome : Except Failure Manifest) (r : Report) : Report :=
  match outcome with
  | .ok m => { r with converted := m :: r.converted }
  | .error f => { r with failures := f :: r.failures }

end Report

/-- Converts manifests, in their order. -/
def convertAll (options : Options) (ms : List Manifest) : Report :=
  ms.foldr (fun m => Report.cons (convert options m)) {}

end TraefikUpgrade.Conversion
