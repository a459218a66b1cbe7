/-
# Manifests

A manifest is one document of a stream. If its kind is registered, it is taken apart; otherwise it is
kept as a value, of which only the timestamp of its creation is dropped when it is written.

Key definitions: `Manifest`, `Manifest.ofValue`, `Manifest.toValue`, `Manifest.Fault`.
-/
import TraefikUpgrade.Resource.GroupKind
import TraefikUpgrade.Resource.V2
import TraefikUpgrade.Resource.V3

namespace TraefikUpgrade.Resource

open Yaml

/-- A document. -/
inductive Manifest where
  | ingressRouteV2 (resource : V2.IngressRoute)
  | middlewareV2 (resource : V2.Middleware)
  | ingressRouteV3 (resource : V3.IngressRoute)
  | middlewareV3 (resource : V3.Middleware)
  | untyped (document : Value)

/-- The namespace of resources that have none. -/
def defaultNamespace : String := "default"

namespace Manifest

/-- Why a document is no manifest. -/
inductive Fault where
  | decode (document : Nat)
  | notMapping (document : Nat)
  | missingApiVersion (document : Nat)
  | missingKind (document : Nat)
  | empty
deriving DecidableEq, Repr

def Fault.message : Fault → String
  | .decode document => "Failed to decode manifest document #" ++ toString document
  | .notMapping document => invalid document "document is not a mapping"
  | .missingApiVersion document => invalid document "missing apiVersion"
  | .missingKind document => invalid document "missing kind"
  | .empty => invalid 0 "empty document"
where
  invalid (document : Nat) (reason : String) : String :=
    "Manifest document #" ++ toString document ++ " is invalid: " ++ reason

/-- The registered kind. -/
def groupKind? : Manifest → Option GroupKind
  | .ingressRouteV2 _ => some ⟨.v2, .ingressRoute⟩
  | .middlewareV2 _ => some ⟨.v2, .middleware⟩
  | .ingressRouteV3 _ => some ⟨.v3, .ingressRoute⟩
  | .middlewareV3 _ => some ⟨.v3, .middleware⟩
  | .untyped _ => none

/-- The text at a path of keys in a value, or else the empty text. -/
def textAt (v : Value) (path : List String) : String :=
  ((path.foldlM Value.get? v).bind Value.text?).getD ""

def apiVersion : Manifest → String
  | .ingressRouteV2 o => o.apiVersion
  | .middlewareV2 o => o.apiVersion
  | .ingressRouteV3 o => o.apiVersion
  | .middlewareV3 o => o.apiVersion
  | .untyped v => textAt v ["apiVersion"]

def kind : Manifest → String
  | .ingressRouteV2 o => o.kind
  | .middlewareV2 o => o.kind
  | .ingressRouteV3 o => o.kind
  | .middlewareV3 o => o.kind
  | .untyped v => textAt v ["kind"]

def name : Manifest → String
  | .ingressRouteV2 o => o.metadata.name
  | .middlewareV2 o => o.metadata.name
  | .ingressRouteV3 o => o.metadata.name
  | .middlewareV3 o => o.metadata.name
  | .untyped v => textAt v ["metadata", "name"]

/-- The namespace that is given, or else the empty text. -/
def givenNamespace : Manifest → String
  | .ingressRouteV2 o => o.metadata.namespace.getD ""
  | .middlewareV2 o => o.metadata.namespace.getD ""
  | .ingressRouteV3 o => o.metadata.namespace.getD ""
  | .middlewareV3 o => o.metadata.namespace.getD ""
  | .untyped v => textAt v ["metadata", "namespace"]

/-- The namespace in which the resource is. -/
def «namespace» (m : Manifest) : String :=
  if m.givenNamespace.isEmpty then defaultNamespace else m.givenNamespace

/-- Reads a resource of a registered kind. -/
def read? (k : GroupKind) (v : Value) : Option Manifest :=
  match k with
  | ⟨.v2, .ingressRoute⟩ =>
    (Object.read? (Routing.read? V2.Route.read?) v).map .ingressRouteV2
  | ⟨.v2, .middleware⟩ => (Object.read? V2.MiddlewareSpec.read? v).map .middlewareV2
  | ⟨.v3, .ingressRoute⟩ =>
    (Object.read? (Routing.read? V3.Route.read?) v).map .ingressRouteV3
  | ⟨.v3, .middleware⟩ => (Object.read? V3.MiddlewareSpec.read? v).map .middlewareV3

/-- The manifest of a document, whose number in the stream appears in a fault. -/
def ofValue (v : Value) (r : Registry) (document : Nat) : Except Fault Manifest :=
  if v.entries?.isNone then .error (.notMapping document)
  else match (v.get? "apiVersion").bind Value.text?, (v.get? "kind").bind Value.text? with
    | none, _ => .error (.missingApiVersion document)
    | some _, none => .error (.missingKind document)
    | some apiVersion, some kind =>
      match r.lookup apiVersion kind with
      | none => .ok (.untyped v)
      | some k =>
        match read? k v with
        | some m => .ok m
        | none => .error (.decode document)

/-- Removes an entry; the last one takes its place. -/
def swapRemove (name : String) (entries : Entries) : Entries :=
  match entries.span (!·.1.isKey name) with
  | (_, []) => entries
  | (before, _ :: after) =>
    match after.getLast? with
    | none => before
    | some last => before ++ last :: after.dropLast

/-- Changes the entries of a mapping. -/
def mapEntries (f : Entries → Entries) : Value → Value
  | .mapping entries => .mapping (f entries)
  | .tagged tag content => .tagged tag (mapEntries f content)
  | v => v

/-- Changes the value of a key. -/
def mapKey (name : String) (f : Value → Value) (entries : Entries) : Entries :=
  entries.map fun entry => if entry.1.isKey name then (entry.1, f entry.2) else entry

/-- A document without the timestamp of its creation. -/
def dropTimestamp (v : Value) : Value :=
  mapEntries (mapKey "metadata" (mapEntries (swapRemove "creationTimestamp"))) v

/-- The value as which a manifest is written. -/
def toValue : Manifest → Value
  | .ingressRouteV2 o => o.toValue (Routing.toValue V2.Route.toValue)
  | .middlewareV2 o => o.toValue V2.MiddlewareSpec.toValue
  | .ingressRouteV3 o => o.toValue (Routing.toValue V3.Route.toValue)
  | .middlewareV3 o => o.toValue V3.MiddlewareSpec.toValue
  | .untyped v => dropTimestamp v

end Manifest

end TraefikUpgrade.Resource
