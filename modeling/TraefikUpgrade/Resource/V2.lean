/-
# Resources of version 2

Those blocks of a middleware that changed with version 3 are taken apart; all others are kept as they are
written.

Key definitions: `V2.Route`, `V2.MiddlewareSpec`, `V2.IngressRoute`, `V2.Middleware`.
-/
import TraefikUpgrade.Resource.Filtering
import TraefikUpgrade.Resource.Metadata
import TraefikUpgrade.Resource.Routing
import TraefikUpgrade.Resource.Service

namespace TraefikUpgrade.Resource.V2

open Yaml Text

/-- A cookie that ties a client to a server. -/
structure Cookie where
  name : Option String := none
  secure : Option Bool := none
  httpOnly : Option Bool := none
  sameSite : Option String := none
deriving DecidableEq, Repr

namespace Cookie

def read? (v : Value) : Option Cookie := do
  let f ← fields? v
  return {
    name := ← f.option? "name" Value.text?
    secure := ← f.option? "secure" readBool?
    httpOnly := ← f.option? "httpOnly" readBool?
    sameSite := ← f.option? "sameSite" Value.text? }

def toValue (c : Cookie) : Value :=
  .mapping (optionField "name" .text c.name ++ optionField "secure" .bool c.secure ++
    optionField "httpOnly" .bool c.httpOnly ++ optionField "sameSite" .text c.sameSite)

end Cookie

/-- A route. A priority of zero stands for none. -/
structure Route where
  rule : String
  kind : String := ""
  priority : Int := 0
  services : List (Service Cookie) := []
  middlewares : List Reference := []
deriving DecidableEq, Repr

namespace Route

def read? (v : Value) : Option Route := do
  let f ← fields? v
  return {
    rule := ← f.required? "match" Value.text?
    kind := ← f.orDefault? "kind" "" Value.text?
    priority := ← f.orDefault? "priority" 0 readInt?
    services := ← f.list? "services" (Service.read? Cookie.read?)
    middlewares := ← f.list? "middlewares" Reference.read? }

def toValue (r : Route) : Value :=
  .mapping (field "match" (.text r.rule) ++ field "kind" (.text r.kind) ++
    (if r.priority = 0 then [] else field "priority" (.int r.priority)) ++
    listField "services" (Service.toValue Cookie.toValue) r.services ++
    listField "middlewares" Reference.toValue r.middlewares)

end Route

/-- Headers set by a middleware. -/
structure Headers where
  sslRedirect : Option Bool := none
  sslTemporaryRedirect : Option Bool := none
  sslHost : Option String := none
  sslForceHost : Option Bool := none
  featurePolicy : Option String := none
  /-- The options that version 3 has too. -/
  settings : Dictionary Value := .empty

namespace Headers

def read? (v : Value) : Option Headers := do
  let f ← fields? v
  return {
    sslRedirect := ← f.option? "sslRedirect" readBool?
    sslTemporaryRedirect := ← f.option? "sslTemporaryRedirect" readBool?
    sslHost := ← f.option? "sslHost" Value.text?
    sslForceHost := ← f.option? "sslForceHost" readBool?
    featurePolicy := ← f.option? "featurePolicy" Value.text?
    settings := ← f.others?
      ["sslRedirect", "sslTemporaryRedirect", "sslHost", "sslForceHost", "featurePolicy"] }

def toValue (h : Headers) : Value :=
  .mapping (optionField "sslRedirect" .bool h.sslRedirect ++
    optionField "sslTemporaryRedirect" .bool h.sslTemporaryRedirect ++
    optionField "sslHost" .text h.sslHost ++ optionField "sslForceHost" .bool h.sslForceHost ++
    optionField "featurePolicy" .text h.featurePolicy ++ dictionaryEntries id h.settings)

end Headers

/-- The beginnings of paths that a middleware removes. -/
structure StripPrefix where
  prefixes : List String := []
  forceSlash : Option Bool := none
deriving DecidableEq, Repr

namespace StripPrefix

def read? (v : Value) : Option StripPrefix := do
  let f ← fields? v
  return {
    prefixes := ← f.list? "prefixes" Value.text?
    forceSlash := ← f.option? "forceSlash" readBool? }

def toValue (s : StripPrefix) : Value :=
  .mapping (listField "prefixes" .text s.prefixes ++ optionField "forceSlash" .bool s.forceSlash)

end StripPrefix

/-- Whether a middleware guesses the content type. -/
structure ContentType where
  autoDetect : Option Bool := none
  settings : Dictionary Value := .empty

namespace ContentType

def read? (v : Value) : Option ContentType := do
  let f ← fields? v
  return {
    autoDetect := ← f.option? "autoDetect" readBool?
    settings := ← f.others? ["autoDetect"] }

def toValue (c : ContentType) : Value :=
  .mapping (optionField "autoDetect" .bool c.autoDetect ++ dictionaryEntries id c.settings)

end ContentType

/-- The addresses that a middleware lets through. -/
structure IpWhiteList where
  sourceRange : List String := []
  ipStrategy : Option IpStrategy := none
deriving DecidableEq, Repr

namespace IpWhiteList

def read? (v : Value) : Option IpWhiteList := do
  let f ← fields? v
  return {
    sourceRange := ← f.list? "sourceRange" Value.text?
    ipStrategy := ← f.option? "ipStrategy" IpStrategy.read? }

def toValue (l : IpWhiteList) : Value :=
  .mapping (listField "sourceRange" .text l.sourceRange ++
    optionField "ipStrategy" IpStrategy.toValue l.ipStrategy)

end IpWhiteList

/-- The specification of a middleware. Late releases know the list of addresses by its new name too. -/
structure MiddlewareSpec where
  headers : Option Headers := none
  stripPrefix : Option StripPrefix := none
  contentType : Option ContentType := none
  ipWhiteList : Option IpWhiteList := none
  ipAllowList : Option IpWhiteList := none
  /-- The blocks that are kept as they are written. -/
  other : Dictionary Value := .empty

namespace MiddlewareSpec

def read? (v : Value) : Option MiddlewareSpec := do
  let f ← fields? v
  return {
    headers := ← f.option? "headers" Headers.read?
    stripPrefix := ← f.option? "stripPrefix" StripPrefix.read?
    contentType := ← f.option? "contentType" ContentType.read?
    ipWhiteList := ← f.option? "ipWhiteList" IpWhiteList.read?
    ipAllowList := ← f.option? "ipAllowList" IpWhiteList.read?
    other := ← f.others? ["headers", "stripPrefix", "contentType", "ipWhiteList", "ipAllowList"] }

def toValue (s : MiddlewareSpec) : Value :=
  .mapping (optionField "headers" Headers.toValue s.headers ++
    optionField "stripPrefix" StripPrefix.toValue s.stripPrefix ++
    optionField "contentType" ContentType.toValue s.contentType ++
    optionField "ipWhiteList" IpWhiteList.toValue s.ipWhiteList ++
    optionField "ipAllowList" IpWhiteList.toValue s.ipAllowList ++ dictionaryEntries id s.other)

end MiddlewareSpec

/-- An ingress route. -/
abbrev IngressRoute := Object (Routing Route)

/-- A middleware. -/
abbrev Middleware := Object MiddlewareSpec

end TraefikUpgrade.Resource.V2
