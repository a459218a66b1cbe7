/-
# Streams of manifests

A stream holds any number of documents. An empty one counts, but is no manifest. Manifests are written
with a line of three hyphens between them.

Key definitions: `decode`, `encodeOne?`, `encode?`.
-/
import TraefikUpgrade.Resource.Manifest
import TraefikUpgrade.Yaml.Document
import TraefikUpgrade.Yaml.Printer

namespace TraefikUpgrade.Resource

open Yaml

/-- The manifests of documents, the first of which has the given number. -/
def decodeFrom (r : Registry) (document : Nat) :
    List (Option Value) → Except Manifest.Fault (List Manifest)
  | [] => .ok []
  | none :: _ => .error (.decode document)
  | some v :: rest => do
    if v.isNull then decodeFrom r (document + 1) rest
    else
      let m ← Manifest.ofValue v r document
      return m :: (← decodeFrom r (document + 1) rest)

/-- The manifests of a stream. -/
def decode (r : Registry) (text : String) : Except Manifest.Fault (List Manifest) :=
  decodeFrom r 0 (readAll text)

/-- A manifest as a document. There are keys that cannot be written. -/
def encodeOne? (m : Manifest) : Option String := print? m.toValue

/-- Manifests as a stream. -/
def encode? (ms : List Manifest) : Option String :=
  (ms.mapM encodeOne?).map (String.intercalate "---\n")

end TraefikUpgrade.Resource
