/-
# Converting middlewares

The options that were removed are dropped, and the list of addresses gets its new name. A block in which
nothing is left is left out.

Key definitions: `allowList`, `middlewareSpec`, `middleware`.
-/
import TraefikUpgrade.Conversion.Annotations
import TraefikUpgrade.Resource.GroupKind
import TraefikUpgrade.Resource.V2
import TraefikUpgrade.Resource.V3

namespace TraefikUpgrade.Conversion

open Resource Text Yaml

/-- The settings of a block, unless there are none. -/
def settings? (settings : Dictionary Value) : Option V3.Settings :=
  if settings.isEmpty then none else some ⟨settings⟩

/-- The beginnings of paths, unless there are none. -/
def stripPrefix? (prefixes : List String) : Option V3.StripPrefix :=
  if prefixes.isEmpty then none else some ⟨prefixes⟩

/-- The list of addresses. A strategy that says nothing is dropped. -/
def allowList (l : V2.IpWhiteList) : V3.IpAllowList where
  sourceRange := l.sourceRange
  ipStrategy := l.ipStrategy.filter fun s => !s.isUnset

/-- The specification of a middleware. Of two lists of addresses the one with the new name counts. -/
def middlewareSpec (spec : V2.MiddlewareSpec) : V3.MiddlewareSpec where
  headers := spec.headers.bind fun h => settings? h.settings
  stripPrefix := spec.stripPrefix.bind fun s => stripPrefix? s.prefixes
  contentType := spec.contentType.bind fun c => settings? c.settings
  ipAllowList := (spec.ipAllowList.or spec.ipWhiteList).map allowList
  other := spec.other

/-- A middleware without the annotations in `skipAnnotations`. -/
def middleware (skipAnnotations : List String) (m : V2.Middleware) : V3.Middleware where
  apiVersion := GroupKind.apiVersion ⟨.v3, .middleware⟩
  kind := m.kind
  metadata := keepMetadata skipAnnotations m.metadata
  spec := middlewareSpec m.spec

end TraefikUpgrade.Conversion
