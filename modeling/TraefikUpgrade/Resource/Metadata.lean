/-
# Resources and their metadata

A resource has a kind, metadata and a specification. Of the metadata only the name, the namespace, the
labels and the annotations are kept; what the cluster adds is dropped.

Key definitions: `Metadata`, `Object`.
-/
import TraefikUpgrade.Yaml.Record

namespace TraefikUpgrade.Resource

open Yaml Text

/-- The metadata of a resource. -/
structure Metadata where
  name : String := ""
  «namespace» : Option String := none
  labels : Dictionary String := .empty
  annotations : Dictionary String := .empty
deriving DecidableEq

namespace Metadata

def read? (v : Value) : Option Metadata := do
  let f ← fields? v
  return {
    name := ← f.orDefault? "name" "" Value.text?
    «namespace» := ← f.option? "namespace" Value.text?
    labels := ← f.orDefault? "labels" .empty (readDictionary? Value.text?)
    annotations := ← f.orDefault? "annotations" .empty (readDictionary? Value.text?) }

def toValue (m : Metadata) : Value :=
  .mapping (field "name" (.text m.name) ++ optionField "namespace" .text m.namespace ++
    dictionaryField "labels" .text m.labels ++ dictionaryField "annotations" .text m.annotations)

end Metadata

/-- A resource with a specification of type `σ`. -/
structure Object (σ : Type) where
  apiVersion : String
  kind : String
  metadata : Metadata
  spec : σ

namespace Object

variable {σ : Type}

/-- Reads a resource. A specification that is not given is read as an empty one. -/
def read? (readSpec : Value → Option σ) (v : Value) : Option (Object σ) := do
  let f ← fields? v
  return {
    apiVersion := ← f.required? "apiVersion" Value.text?
    kind := ← f.required? "kind" Value.text?
    metadata := ← f.orDefault? "metadata" {} Metadata.read?
    spec := ← readSpec ((← f.find? "spec").getD .null) }

def toValue (writeSpec : σ → Value) (o : Object σ) : Value :=
  .mapping (field "apiVersion" (.text o.apiVersion) ++ field "kind" (.text o.kind) ++
    field "metadata" o.metadata.toValue ++ field "spec" (writeSpec o.spec))

end Object

end TraefikUpgrade.Resource
