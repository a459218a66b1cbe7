/-
# Kept and upgraded rules

The rules of an ingress route are upgraded, or else kept and marked as rules of version 2. In both ways
each of them must be a rule of version 2 first, so a resource whose rules can be upgraded can be converted
with its rules kept, too. The first route that is refused decides the failure of the whole resource. Where
the rules can be upgraded, what the two ways give differs in the rules and their marks alone
(`kept_differs_in_rules`).

Key definitions: `Refused`, `FirstRefused`, `UpgradedFrom`, `keepRules`.
Key theorems: `route_eq_error_iff`, `ingressRoute_eq_error_iff`, `ingressRoute_of_upgraded`,
`kept_differs_in_rules`.
-/
import TraefikUpgrade.Conversion.IngressRoute
import TraefikUpgrade.Proofs.Rule.Refinement
import TraefikUpgrade.Proofs.Traversal

namespace TraefikUpgrade.Conversion

open Resource

section
variable [Regex.Limits] {keepSyntax : Bool} {r : V2.Route} {failure : Rule.Failure}

/-! ### Routes -/

/-- Why a route is refused: its rule is none of version 2, or it cannot be upgraded and is not kept. -/
inductive Refused (keepSyntax : Bool) (r : V2.Route) : Rule.Failure → Prop
  | rejected {refusal : Rule.Refusal} (h : Rule.validate r.rule .v2 r.priority = .error refusal) :
    Refused keepSyntax r (.rejected r.rule .v2 refusal)
  | notUpgraded {accepted : Rule.Route} {failure : Rule.Failure}
    (hv : Rule.validate r.rule .v2 r.priority = .ok accepted) (hk : keepSyntax = false)
    (h : Rule.upgrade r.rule r.priority = .error failure) : Refused keepSyntax r failure

/-- A list of routes has a first one that is refused, and why it is. -/
def FirstRefused (keepSyntax : Bool) (routes : List V2.Route) (failure : Rule.Failure) : Prop :=
  ∃ before route after, routes = before ++ route :: after ∧
    (∀ r ∈ before, ¬ ∃ failure, Refused keepSyntax r failure) ∧ Refused keepSyntax route failure

/-- A route whose rule is the upgraded one of another, under which version 3 accepts it. -/
structure UpgradedFrom (r : V2.Route) (upgraded : V3.Route) : Prop where
  accepted : ∃ accepted, Rule.validate r.rule .v2 r.priority = .ok accepted
  rule : Rule.upgrade r.rule r.priority = .ok upgraded.rule
  acceptedV3 : ∃ accepted, Rule.validate upgraded.rule .v3 r.priority = .ok accepted
  ruleSyntax : upgraded.ruleSyntax = none

/-- A route with the rule of the old one, which is marked as a rule of version 2. -/
def keepRule (r : V2.Route) (upgraded : V3.Route) : V3.Route :=
  { upgraded with rule := r.rule, ruleSyntax := some "v2" }

theorem refused_iff_of_rejected {refusal : Rule.Refusal}
    (hv : Rule.validate r.rule .v2 r.priority = .error refusal) :
    Refused keepSyntax r failure ↔ failure = .rejected r.rule .v2 refusal := by
  constructor
  · rintro (⟨h⟩ | ⟨h, -, -⟩)
    · rw [hv] at h
      cases h
      rfl
    · rw [hv] at h
      cases h
  · rintro rfl
    exact .rejected hv

theorem refused_iff_of_accepted {accepted : Rule.Route}
    (hv : Rule.validate r.rule .v2 r.priority = .ok accepted) :
    Refused keepSyntax r failure ↔
      keepSyntax = false ∧ Rule.upgrade r.rule r.priority = .error failure := by
  constructor
  · rintro (⟨h⟩ | ⟨-, hk, h⟩)
    · rw [hv] at h
      cases h
    · exact ⟨hk, h⟩
  · exact fun ⟨hk, h⟩ => .notUpgraded hv hk h

theorem rule_eq_error_iff : rule keepSyntax r = .error failure ↔ Refused keepSyntax r failure := by
  cases hv : Rule.validate r.rule .v2 r.priority with
  | error refusal =>
    rw [refused_iff_of_rejected hv, rule, hv]
    simp [eq_comm]
  | ok accepted =>
    rw [refused_iff_of_accepted hv, rule, hv]
    cases keepSyntax with
    | true => simp
    | false => cases Rule.upgrade r.rule r.priority <;> simp [Except.map]

theorem route_eq_error_iff : route keepSyntax r = .error failure ↔ Refused keepSyntax r failure := by
  rw [← rule_eq_error_iff]
  exact bind_eq_error_iff fun _ => ⟨_, rfl⟩

theorem route_of_accepted {accepted : Rule.Route} {rule' : String}
    (hv : Rule.validate r.rule .v2 r.priority = .ok accepted)
    (hu : Rule.upgrade r.rule r.priority = .ok rule') :
    route false r = .ok ⟨rule', r.kind, r.priority, none, r.services.map service, r.middlewares⟩ := by
  have hrule : rule false r = .ok (rule', none) := by rw [rule, hv, hu]; rfl
  rw [route, hrule]
  rfl

/-- A route that is upgraded can be kept, and then differs in the rule alone. -/
theorem route_of_upgraded {upgraded : V3.Route} (h : route false r = .ok upgraded) :
    UpgradedFrom r upgraded ∧ route true r = .ok (keepRule r upgraded) := by
  cases hv : Rule.validate r.rule .v2 r.priority with
  | error refusal =>
    rw [route_eq_error_iff.2 (.rejected hv)] at h
    cases h
  | ok accepted =>
    cases hu : Rule.upgrade r.rule r.priority with
    | error failure =>
      rw [route_eq_error_iff.2 (.notUpgraded hv rfl hu)] at h
      cases h
    | ok rule' =>
      have hkept : rule true r = .ok (r.rule, some "v2") := by rw [rule, hv]; rfl
      rw [route_of_accepted hv hu] at h
      cases h
      refine ⟨⟨⟨accepted, hv⟩, hu, (Rule.upgrade_eq_ok_iff.1 hu).2, rfl⟩, ?_⟩
      rw [route, hkept]
      rfl

/-! ### Ingress routes -/

theorem exists_refused_iff : (∃ failure, Refused keepSyntax r failure) ↔
    (∃ refusal, Rule.validate r.rule .v2 r.priority = .error refusal) ∨
      keepSyntax = false ∧ ∃ failure, Rule.upgrade r.rule r.priority = .error failure := by
  cases hv : Rule.validate r.rule .v2 r.priority with
  | error refusal => simp [refused_iff_of_rejected hv]
  | ok accepted => simp [refused_iff_of_accepted hv]

theorem mapM_route_eq_error_iff {routes : List V2.Route} :
    routes.mapM (route keepSyntax) = .error failure ↔ FirstRefused keepSyntax routes failure := by
  have hok : ∀ r, (∃ r', route keepSyntax r = .ok r') ↔ ¬ ∃ failure, Refused keepSyntax r failure := by
    intro r
    simp only [← route_eq_error_iff]
    cases route keepSyntax r <;> simp
  simp only [mapM_eq_error_iff, hok, route_eq_error_iff]
  rfl

theorem ingressRoute_eq_error_iff {options : Options} {r : V2.IngressRoute} :
    ingressRoute options r = .error failure ↔
      FirstRefused options.keepSyntax r.spec.routes failure := by
  rw [← mapM_route_eq_error_iff]
  exact bind_eq_error_iff fun _ => ⟨_, rfl⟩

/-- An ingress route fails if and only if one of its routes does. -/
theorem exists_firstRefused_iff {routes : List V2.Route} :
    (∃ failure, FirstRefused keepSyntax routes failure) ↔
      ∃ r ∈ routes, ∃ failure, Refused keepSyntax r failure := by
  simp only [← mapM_route_eq_error_iff, ← route_eq_error_iff]
  exact exists_error_of_mapM_iff

/-- An ingress route with the rules of the old one, which are marked as rules of version 2. -/
def keepRules (r : V2.IngressRoute) (upgraded : V3.IngressRoute) : V3.IngressRoute :=
  { upgraded with
    spec := { upgraded.spec with routes := r.spec.routes.zipWith keepRule upgraded.spec.routes } }

theorem mapM_route_of_upgraded {routes : List V2.Route} {upgraded : List V3.Route}
    (h : routes.mapM (route false) = .ok upgraded) :
    List.Forall₂ UpgradedFrom routes upgraded ∧
      routes.mapM (route true) = .ok (routes.zipWith keepRule upgraded) := by
  rw [mapM_eq_ok_iff] at h ⊢
  induction h with
  | nil => exact ⟨.nil, .nil⟩
  | cons hr _ ih =>
    obtain ⟨hfrom, hkept⟩ := route_of_upgraded hr
    exact ⟨.cons hfrom ih.1, .cons hkept ih.2⟩

theorem ingressRoute_of_upgraded {skip : List String} {r : V2.IngressRoute}
    {upgraded : V3.IngressRoute} (h : ingressRoute ⟨false, skip⟩ r = .ok upgraded) :
    List.Forall₂ UpgradedFrom r.spec.routes upgraded.spec.routes ∧
      ingressRoute ⟨true, skip⟩ r = .ok (keepRules r upgraded) := by
  obtain ⟨routes, hroutes, h⟩ := bind_eq_ok h
  cases h
  obtain ⟨hfrom, hkept⟩ := mapM_route_of_upgraded hroutes
  refine ⟨hfrom, ?_⟩
  rw [ingressRoute, hkept]
  rfl

/-- With its rules upgraded, an ingress route fails if and only if a rule is none of version 2 or cannot
be upgraded; with its rules kept, if and only if a rule is none of version 2. The first route that is
refused decides the failure. If the rules can be upgraded, what comes out with the rules kept is the same
ingress route, but for the rules and their marks: route by route, and in order, the one has the old rule
and the mark of version 2, the other a rule that version 3 accepts, and no mark. -/
theorem kept_differs_in_rules (r : V2.IngressRoute) (skip : List String) :
    ((∃ failure, ingressRoute ⟨false, skip⟩ r = .error failure) ↔
      ∃ route ∈ r.spec.routes,
        (∃ refusal, Rule.validate route.rule .v2 route.priority = .error refusal) ∨
        ∃ failure, Rule.upgrade route.rule route.priority = .error failure) ∧
    ((∃ failure, ingressRoute ⟨true, skip⟩ r = .error failure) ↔
      ∃ route ∈ r.spec.routes,
        ∃ refusal, Rule.validate route.rule .v2 route.priority = .error refusal) ∧
    (∀ keepSyntax failure, ingressRoute ⟨keepSyntax, skip⟩ r = .error failure ↔
      FirstRefused keepSyntax r.spec.routes failure) ∧
    ∀ upgraded, ingressRoute ⟨false, skip⟩ r = .ok upgraded →
      List.Forall₂ UpgradedFrom r.spec.routes upgraded.spec.routes ∧
      ingressRoute ⟨true, skip⟩ r = .ok (keepRules r upgraded) := by
  refine ⟨?_, ?_, fun _ _ => ingressRoute_eq_error_iff, fun _ => ingressRoute_of_upgraded⟩
  · simp only [ingressRoute_eq_error_iff, exists_firstRefused_iff, exists_refused_iff, true_and]
  · simp [ingressRoute_eq_error_iff, exists_firstRefused_iff, exists_refused_iff]

end

/-- Two routes, one of which has a matcher that version 3 does not know. -/
def exampleRoutes : V2.IngressRoute where
  apiVersion := "traefik.containo.us/v1alpha1"
  kind := "IngressRoute"
  metadata := { name := "web" }
  spec :=
    { routes := [{ rule := "HostHeader(`a.b`)" }, { rule := "Path(`/c`)", kind := "Rule" }]
      entryPoints := ["websecure"] }

/-- The routes with their rules upgraded. -/
def upgradedRoutes : V3.IngressRoute where
  apiVersion := "traefik.io/v1alpha1"
  kind := "IngressRoute"
  metadata := { name := "web" }
  spec :=
    { routes := [{ rule := "Host(`a.b`)" }, { rule := "Path(`/c`)", kind := "Rule" }]
      entryPoints := ["websecure"] }

/-- A rule of a single matcher that is upgraded to one. -/
theorem route_of_calls [Regex.Limits] {old new kind : String} {c c' : Rule.Call}
    (hp : Rule.parse old = .ok (.call c))
    (ha : Rule.Accepts .v2 c) (hu : Rule.upgradeText old = .ok new)
    (hp' : Rule.parse new = .ok (.call c')) (ha' : Rule.Accepts .v3 c') :
    route false { rule := old, kind } = .ok { rule := new, kind } :=
  route_of_accepted (Rule.validate_of_call hp ha)
    (Rule.upgrade_eq_ok_iff.2 ⟨hu, _, Rule.validate_of_call hp' ha'⟩)

theorem route_exampleHost : route false { rule := "HostHeader(`a.b`)" } =
    .ok { rule := "Host(`a.b`)" } := by
  have hold : Rule.tokenize "HostHeader(`a.b`)" = .ok [⟨0, .identifier "HostHeader"⟩,
      ⟨10, .openParen⟩, ⟨11, .text "a.b"⟩, ⟨16, .closeParen⟩] :=
    Rule.eq_ok_of_toOption (by decide +kernel)
  have hnew : Rule.tokenize "Host(`a.b`)" = .ok [⟨0, .identifier "Host"⟩, ⟨4, .openParen⟩,
      ⟨5, .text "a.b"⟩, ⟨10, .closeParen⟩] := Rule.eq_ok_of_toOption (by decide +kernel)
  exact route_of_calls (Rule.parse_of_single hold) (Rule.eq_ok_of_toOption (by decide +kernel))
    (Rule.eq_ok_of_toOption (by decide +kernel)) (Rule.parse_of_single hnew)
    (Rule.eq_ok_of_toOption (by decide +kernel))

theorem route_examplePath : route false { rule := "Path(`/c`)", kind := "Rule" } =
    .ok { rule := "Path(`/c`)", kind := "Rule" } := by
  have hrule : Rule.tokenize "Path(`/c`)" = .ok [⟨0, .identifier "Path"⟩, ⟨4, .openParen⟩,
      ⟨5, .text "/c"⟩, ⟨9, .closeParen⟩] := Rule.eq_ok_of_toOption (by decide +kernel)
  exact route_of_calls (Rule.parse_of_single hrule) (Rule.eq_ok_of_toOption (by decide +kernel))
    (Rule.eq_ok_of_toOption (by decide +kernel)) (Rule.parse_of_single hrule)
    (Rule.eq_ok_of_toOption (by decide +kernel))

theorem kept_differs_in_rules_two_routes :
    ingressRoute ⟨false, []⟩ exampleRoutes = .ok upgradedRoutes ∧
    ingressRoute ⟨true, []⟩ exampleRoutes = .ok (keepRules exampleRoutes upgradedRoutes) ∧
    (keepRules exampleRoutes upgradedRoutes).spec.routes =
      [{ rule := "HostHeader(`a.b`)", ruleSyntax := some "v2" },
        { rule := "Path(`/c`)", kind := "Rule", ruleSyntax := some "v2" }] := by
  have hupgraded : ingressRoute ⟨false, []⟩ exampleRoutes = .ok upgradedRoutes := by
    have hroutes : exampleRoutes.spec.routes.mapM (route false) = .ok upgradedRoutes.spec.routes :=
      mapM_eq_ok_iff.2 (.cons route_exampleHost (.cons route_examplePath .nil))
    rw [ingressRoute, hroutes]
    rfl
  obtain ⟨-, -, -, hkept⟩ := kept_differs_in_rules exampleRoutes []
  exact ⟨hupgraded, (hkept _ hupgraded).2, rfl⟩

end TraefikUpgrade.Conversion
