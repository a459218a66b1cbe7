/-
# Services of a route

A route hands requests to services. The two versions have the same services, but for the cookie that ties
a client to a server.

Key definitions: `Port`, `ResponseForwarding`, `Sticky`, `Service`.
-/
import TraefikUpgrade.Yaml.Record

namespace TraefikUpgrade.Resource

open Yaml

/-- A port, by its number or its name. -/
inductive Port where
  | number (n : Int)
  | name (s : String)
deriving DecidableEq, Repr

namespace Port

/-- Reads a port, which must not have a tag. -/
def read? : Value → Option Port
  | .text s => some (.name s)
  | .int n => (readInt? (.int n)).map .number
  | _ => none

def toValue : Port → Value
  | .number n => .int n
  | .name s => .text s

end Port

/-- How responses are passed on. -/
structure ResponseForwarding where
  flushInterval : Option String := none
deriving DecidableEq, Repr

namespace ResponseForwarding

def read? (v : Value) : Option ResponseForwarding := do
  let f ← fields? v
  return { flushInterval := ← f.option? "flushInterval" Value.text? }

def toValue (r : ResponseForwarding) : Value :=
  .mapping (optionField "flushInterval" .text r.flushInterval)

end ResponseForwarding

/-- How a client is tied to a server, with a cookie of type `κ`. -/
structure Sticky (κ : Type) where
  cookie : Option κ := none
deriving DecidableEq, Repr

namespace Sticky

variable {κ : Type}

def read? (readCookie : Value → Option κ) (v : Value) : Option (Sticky κ) := do
  let f ← fields? v
  return { cookie := ← f.option? "cookie" readCookie }

def toValue (writeCookie : κ → Value) (s : Sticky κ) : Value :=
  .mapping (optionField "cookie" writeCookie s.cookie)

end Sticky

/-- A service, with cookies of type `κ`. -/
structure Service (κ : Type) where
  name : String
  «namespace» : Option String := none
  kind : Option String := none
  port : Option Port := none
  scheme : Option String := none
  strategy : Option String := none
  passHostHeader : Option Bool := none
  responseForwarding : Option ResponseForwarding := none
  serversTransport : Option String := none
  weight : Option Int := none
  nativeLB : Option Bool := none
  sticky : Option (Sticky κ) := none
deriving DecidableEq, Repr

namespace Service

variable {κ : Type}

def read? (readCookie : Value → Option κ) (v : Value) : Option (Service κ) := do
  let f ← fields? v
  return {
    name := ← f.required? "name" Value.text?
    «namespace» := ← f.option? "namespace" Value.text?
    kind := ← f.option? "kind" Value.text?
    port := ← f.option? "port" Port.read?
    scheme := ← f.option? "scheme" Value.text?
    strategy := ← f.option? "strategy" Value.text?
    passHostHeader := ← f.option? "passHostHeader" readBool?
    responseForwarding := ← f.option? "responseForwarding" ResponseForwarding.read?
    serversTransport := ← f.option? "serversTransport" Value.text?
    weight := ← f.option? "weight" readInt?
    nativeLB := ← f.option? "nativeLB" readBool?
    sticky := ← f.option? "sticky" (Sticky.read? readCookie) }

def toValue (writeCookie : κ → Value) (s : Service κ) : Value :=
  .mapping (field "name" (.text s.name) ++ optionField "namespace" .text s.namespace ++
    optionField "kind" .text s.kind ++ optionField "port" Port.toValue s.port ++
    optionField "scheme" .text s.scheme ++ optionField "strategy" .text s.strategy ++
    optionField "passHostHeader" .bool s.passHostHeader ++
    optionField "responseForwarding" ResponseForwarding.toValue s.responseForwarding ++
    optionField "serversTransport" .text s.serversTransport ++ optionField "weight" .int s.weight ++
    optionField "nativeLB" .bool s.nativeLB ++
    optionField "sticky" (Sticky.toValue writeCookie) s.sticky)

end Service

end TraefikUpgrade.Resource
