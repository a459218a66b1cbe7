/-
# Converting ingress routes

Every rule is upgraded, or else kept and marked as one of version 2; either way it must be a rule of
version 2 first. Blocks in which nothing is set are left out.

Key definitions: `service`, `tls?`, `route`, `ingressRoute`.
-/
import TraefikUpgrade.Conversion.Annotations
import TraefikUpgrade.Resource.GroupKind
import TraefikUpgrade.Resource.V2
import TraefikUpgrade.Resource.V3
import TraefikUpgrade.Rule.Upgrade

namespace TraefikUpgrade.Conversion

open Resource

variable [Regex.Limits]

/-- A cookie with the settings that both versions have. -/
def cookie (c : V2.Cookie) : V3.Cookie where
  name := c.name
  secure := c.secure
  httpOnly := c.httpOnly
  sameSite := c.sameSite

/-- The tie to a server; a cookie that sets nothing is dropped. -/
def sticky (s : Sticky V2.Cookie) : Sticky V3.Cookie where
  cookie := (s.cookie.map cookie).filter fun c => !decide (c = {})

/-- A service; what sets nothing is dropped. -/
def service (s : Service V2.Cookie) : Service V3.Cookie where
  name := s.name
  «namespace» := s.namespace
  kind := s.kind
  port := s.port
  scheme := s.scheme
  strategy := s.strategy
  passHostHeader := s.passHostHeader
  responseForwarding := s.responseForwarding.filter fun r => r.flushInterval.isSome
  serversTransport := s.serversTransport
  weight := s.weight
  nativeLB := s.nativeLB
  sticky := (s.sticky.map sticky).filter fun s => s.cookie.isSome

/-- A text, unless it is empty. -/
def nonEmpty? (text : Option String) : Option String := text.filter fun s => !s.isEmpty

/-- How connections are encrypted, unless nothing is set. Empty texts do not count. -/
def tls? (t : Tls) : Option Tls :=
  let kept : Tls :=
    { t with secretName := nonEmpty? t.secretName, certResolver := nonEmpty? t.certResolver }
  if kept = {} then none else some kept

/-- How rules and metadata are taken over. -/
structure Options where
  /-- Whether rules are kept as they are and marked as rules of version 2. -/
  keepSyntax : Bool := false
  /-- The annotations that are dropped besides the usual one. -/
  skipAnnotations : List String := []
deriving DecidableEq, Repr

/-- The new rule of a route, and the name of its dialect if it is not that of version 3. -/
def rule (keepSyntax : Bool) (r : V2.Route) : Except Rule.Failure (String × Option String) :=
  match Rule.validate r.rule .v2 r.priority with
  | .error refusal => .error (.rejected r.rule .v2 refusal)
  | .ok _ =>
    if keepSyntax then .ok (r.rule, some Rule.Dialect.v2.name)
    else (Rule.upgrade r.rule r.priority).map (·, none)

/-- A route. -/
def route (keepSyntax : Bool) (r : V2.Route) : Except Rule.Failure V3.Route := do
  let (text, ruleSyntax) ← rule keepSyntax r
  return {
    rule := text
    kind := r.kind
    priority := r.priority
    ruleSyntax
    services := r.services.map service
    middlewares := r.middlewares }

/-- An ingress route. The first route that cannot be converted decides the failure. -/
def ingressRoute (options : Options) (r : V2.IngressRoute) :
    Except Rule.Failure V3.IngressRoute := do
  let routes ← r.spec.routes.mapM (route options.keepSyntax)
  return {
    apiVersion := GroupKind.apiVersion ⟨.v3, .ingressRoute⟩
    kind := r.kind
    metadata := keepMetadata options.skipAnnotations r.metadata
    spec := { routes, entryPoints := r.spec.entryPoints, tls := r.spec.tls.bind tls? } }

end TraefikUpgrade.Conversion
