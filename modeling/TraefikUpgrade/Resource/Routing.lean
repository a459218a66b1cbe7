/-
# What an ingress route specifies

An ingress route lists routes, the entry points at which they hold, and how connections are encrypted.
Only the routes differ between the versions.

Key definitions: `Reference`, `Domain`, `Tls`, `Routing`.
-/
import TraefikUpgrade.Yaml.Record

namespace TraefikUpgrade.Resource

open Yaml

/-- A reference to another resource. -/
structure Reference where
  name : String
  «namespace» : Option String := none
deriving DecidableEq, Repr

namespace Reference

def read? (v : Value) : Option Reference := do
  let f ← fields? v
  return {
    name := ← f.required? "name" Value.text?
    «namespace» := ← f.option? "namespace" Value.text? }

def toValue (r : Reference) : Value :=
  .mapping (field "name" (.text r.name) ++ optionField "namespace" .text r.namespace)

end Reference

/-- A name for which a certificate is asked, and further ones. -/
structure Domain where
  main : Option String := none
  sans : List String := []
deriving DecidableEq, Repr

namespace Domain

def read? (v : Value) : Option Domain := do
  let f ← fields? v
  return {
    main := ← f.option? "main" Value.text?
    sans := ← f.list? "sans" Value.text? }

def toValue (d : Domain) : Value :=
  .mapping (optionField "main" .text d.main ++ listField "sans" .text d.sans)

end Domain

/-- How connections are encrypted. -/
structure Tls where
  secretName : Option String := none
  options : Option Reference := none
  store : Option Reference := none
  certResolver : Option String := none
  domains : List Domain := []
deriving DecidableEq, Repr

namespace Tls

def read? (v : Value) : Option Tls := do
  let f ← fields? v
  return {
    secretName := ← f.option? "secretName" Value.text?
    options := ← f.option? "options" Reference.read?
    store := ← f.option? "store" Reference.read?
    certResolver := ← f.option? "certResolver" Value.text?
    domains := ← f.list? "domains" Domain.read? }

def toValue (t : Tls) : Value :=
  .mapping (optionField "secretName" .text t.secretName ++
    optionField "options" Reference.toValue t.options ++
    optionField "store" Reference.toValue t.store ++
    optionField "certResolver" .text t.certResolver ++ listField "domains" Domain.toValue t.domains)

end Tls

/-- The specification of an ingress route with routes of type `ρ`. -/
structure Routing (ρ : Type) where
  routes : List ρ := []
  entryPoints : List String := []
  tls : Option Tls := none
deriving DecidableEq, Repr

namespace Routing

variable {ρ : Type}

def read? (readRoute : Value → Option ρ) (v : Value) : Option (Routing ρ) := do
  let f ← fields? v
  return {
    routes := ← f.list? "routes" readRoute
    entryPoints := ← f.list? "entryPoints" Value.text?
    tls := ← f.option? "tls" Tls.read? }

def toValue (writeRoute : ρ → Value) (r : Routing ρ) : Value :=
  .mapping (field "routes" (.sequence (r.routes.map writeRoute)) ++
    listField "entryPoints" .text r.entryPoints ++ optionField "tls" Tls.toValue r.tls)

end Routing

end TraefikUpgrade.Resource
