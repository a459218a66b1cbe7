/-
# Resources of version 3

Key definitions: `V3.Route`, `V3.MiddlewareSpec`, `V3.IngressRoute`,
`V3.Middleware`.
-/
import TraefikUpgrade.Resource.Filtering
import TraefikUpgrade.Resource.Metadata
import TraefikUpgrade.Resource.Routing
import TraefikUpgrade.Resource.Service

namespace TraefikUpgrade.Resource.V3

open Yaml Text

/-- A cookie that ties a client to a server. -/
structure Cookie where
  name : Option String := none
  secure : Option Bool := none
  httpOnly : Option Bool := none
  sameSite : Option String := none
  maxAge : Option Int := none
  path : Option String := none
deriving DecidableEq, Repr

namespace Cookie

def read? (v : Value) : Option Cookie := do
  let f ← fields? v
  return {
    name := ← f.option? "name" Value.text?
    secure := ← f.option? "secure" readBool?
    httpOnly := ← f.option? "httpOnly" readBool?
    sameSite := ← f.option? "sameSite" Value.text?
    maxAge := ← f.option? "maxAge" readInt?
    path := ← f.option? "path" Value.text? }

def toValue (c : Cookie) : Value :=
  .mapping (optionField "name" .text c.name ++ optionField "secure" .bool c.secure ++
    optionField "httpOnly" .bool c.httpOnly ++ optionField "sameSite" .text c.sameSite ++
    optionField "maxAge" .int c.maxAge ++ optionField "path" .text c.path)

end Cookie

/-- A route. A priority of zero stands for none. The dialect of the rule is that of version 3, unless
`ruleSyntax` names another one. -/
structure Route where
  rule : String
  kind : String := ""
  priority : Int := 0
  ruleSyntax : Option String := none
  services : List (Service Cookie) := []
  middlewares : List Reference := []
deriving DecidableEq, Repr

namespace Route

def read? (v : Value) : Option Route := do
  let f ← fields? v
  return {
    rule := ← f.required? "match" Value.text?
    kind := ← f.orDefault? "kind" "" Value.text?
    priority := ← f.orDefault? "priority" 0 readInt?
    ruleSyntax := ← f.option? "syntax" Value.text?
    services := ← f.list? "services" (Service.read? Cookie.read?)
    middlewares := ← f.list? "middlewares" Reference.read? }

def toValue (r : Route) : Value :=
  .mapping (field "match" (.text r.rule) ++ field "kind" (.text r.kind) ++
    (if r.priority = 0 then [] else field "priority" (.int r.priority)) ++
    optionField "syntax" .text r.ruleSyntax ++
    listField "services" (Service.toValue Cookie.toValue) r.services ++
    listField "middlewares" Reference.toValue r.middlewares)

end Route

/-- Options that are kept as they are written, of which none is known by name. -/
structure Settings where
  settings : Dictionary Value := .empty

namespace Settings

def read? (v : Value) : Option Settings := do
  let f ← fields? v
  return { settings := ← f.others? [] }

def toValue (s : Settings) : Value := .mapping (dictionaryEntries id s.settings)

end Settings

/-- The beginnings of paths that a middleware removes. -/
structure StripPrefix where
  prefixes : List String := []
deriving DecidableEq, Repr

namespace StripPrefix

def read? (v : Value) : Option StripPrefix := do
  let f ← fields? v
  return { prefixes := ← f.list? "prefixes" Value.text? }

def toValue (s : StripPrefix) : Value := .mapping (listField "prefixes" .text s.prefixes)

end StripPrefix

/-- The addresses that a middleware lets through, and the answer to the others. -/
structure IpAllowList where
  sourceRange : List String := []
  ipStrategy : Option IpStrategy := none
  rejectStatusCode : Option Int := none
deriving DecidableEq, Repr

namespace IpAllowList

def read? (v : Value) : Option IpAllowList := do
  let f ← fields? v
  return {
    sourceRange := ← f.list? "sourceRange" Value.text?
    ipStrategy := ← f.option? "ipStrategy" IpStrategy.read?
    rejectStatusCode := ← f.option? "rejectStatusCode" readInt? }

def toValue (l : IpAllowList) : Value :=
  .mapping (listField "sourceRange" .text l.sourceRange ++
    optionField "ipStrategy" IpStrategy.toValue l.ipStrategy ++
    optionField "rejectStatusCode" .int l.rejectStatusCode)

end IpAllowList

/-- The specification of a middleware. -/
structure MiddlewareSpec where
  headers : Option Settings := none
  stripPrefix : Option StripPrefix := none
  contentType : Option Settings := none
  ipAllowList : Option IpAllowList := none
  /-- The blocks that are kept as they are written. -/
  other : Dictionary Value := .empty

namespace MiddlewareSpec

def read? (v : Value) : Option MiddlewareSpec := do
  let f ← fields? v
  return {
    headers := ← f.option? "headers" Settings.read?
    stripPrefix := ← f.option? "stripPrefix" StripPrefix.read?
    contentType := ← f.option? "contentType" Settings.read?
    ipAllowList := ← f.option? "ipAllowList" IpAllowList.read?
    other := ← f.others? ["headers", "stripPrefix", "contentType", "ipAllowList"] }

def toValue (s : MiddlewareSpec) : Value :=
  .mapping (optionField "headers" Settings.toValue s.headers ++
    optionField "stripPrefix" StripPrefix.toValue s.stripPrefix ++
    optionField "contentType" Settings.toValue s.contentType ++
    optionField "ipAllowList" IpAllowList.toValue s.ipAllowList ++ dictionaryEntries id s.other)

end MiddlewareSpec

/-- An ingress route. -/
abbrev IngressRoute := Object (Routing Route)

/-- A middleware. -/
abbrev Middleware := Object MiddlewareSpec

end TraefikUpgrade.Resource.V3
