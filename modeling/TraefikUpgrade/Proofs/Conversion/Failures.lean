/-
# Why a manifest is not converted

Converting a manifest is to look for the converter of its kind and to say of which resource an error is
(`dispatch`). What comes out of it is a rule that is refused, never a converter that was given a resource of
another type: only ingress routes fail, and they do so with the first route that is refused
(`convert_classified`). An error is either due to a rule that is not well formed or shows a defect of the
compilation of templates, and it is the latter if and only if the groups of a template were miscounted.

Key definitions: `Error`, `Error.innermost`, `converter?`, `dispatch`.
Key theorems: `Error.isRuleFault_eq`, `dispatch_eq`, `convert_classified`.
-/
import TraefikUpgrade.Conversion.Batch
import TraefikUpgrade.Proofs.Conversion.Modes

namespace TraefikUpgrade.Conversion

open Resource

variable {options : Options} {m : Manifest}

/-! ### Kinds of errors -/

/-- An error: a cause, or another error with the resource that it concerns. -/
inductive Error where
  | cause (fault : Fault)
  | resource (kind «namespace» name : String) (source : Error)

/-- The groups of a template were miscounted. -/
def Fault.IsMiscount (fault : Fault) : Prop :=
  ∃ template expected found, fault = .rule (.pattern (.groupCount template expected found))

/-- A resource was given to the converter of another type. -/
def Fault.IsMismatch (fault : Fault) : Prop := ∃ expected found, fault = .mismatch expected found

namespace Error

/-- Whether an error shows a defect of the compilation of templates, and not of a rule. -/
def isInvariantViolation : Error → Bool
  | .cause (.mismatch ..) => false
  | .cause (.rule failure) => failure.isInvariantViolation
  | .resource _ _ _ source => source.isInvariantViolation

/-- Whether an error is due to a rule or template that is not well formed. -/
def isRuleFault : Error → Bool
  | .cause (.mismatch ..) => false
  | .cause (.rule failure) => failure.isRuleFault
  | .resource _ _ _ source => source.isRuleFault

/-- What is at the bottom of an error. -/
def innermost : Error → Fault
  | .cause fault => fault
  | .resource _ _ _ source => source.innermost

theorem isInvariantViolation_iff (e : Error) :
    e.isInvariantViolation = true ↔ e.innermost.IsMiscount := by
  induction e with
  | cause fault =>
    unfold isInvariantViolation innermost Fault.IsMiscount
    cases fault with
    | mismatch expected found => simp
    | rule failure =>
      cases failure with
      | pattern fault => cases fault <;> simp [Rule.Failure.isInvariantViolation]
      | rejected rule dialect refusal => simp [Rule.Failure.isInvariantViolation]
  | resource _ _ _ source ih => exact ih

/-- Every error but a mismatch is of one kind and not of the other. -/
theorem isRuleFault_eq {e : Error} (h : ¬ e.innermost.IsMismatch) :
    e.isRuleFault = !e.isInvariantViolation := by
  induction e with
  | cause fault =>
    cases fault with
    | mismatch expected found => exact absurd ⟨expected, found, rfl⟩ h
    | rule failure =>
      cases failure with
      | pattern fault => cases fault <;> rfl
      | rejected rule dialect refusal => rfl
  | resource _ _ _ source ih => exact ih h

end Error

/-! ### Finding the converter -/

/-- The converter of a kind, if its resources are converted. -/
def converter? (k : GroupKind) : Option ResourceType := if handles k then some k.type else none

/-- Converts a manifest with the converter of its kind. An error tells the manifest. -/
def dispatch [Regex.Limits] (options : Options) (m : Manifest) : Except Error Manifest :=
  match m.groupKind?.bind converter? with
  | none => .ok m
  | some type =>
    match convertAs type options m with
    | .ok converted => .ok converted
    | .error fault => .error (.resource m.kind m.namespace m.name (.cause fault))

/-- A failure as an error. -/
def Failure.toError (f : Failure) : Error := .resource f.kind f.namespace f.name (.cause (.rule f.cause))

/-- Each resource is given to the converter of its own type. -/
theorem dispatch_eq [Regex.Limits] (options : Options) (m : Manifest) :
    dispatch options m = (convert options m).mapError Failure.toError := by
  cases m with
  | ingressRouteV2 r =>
    have hkind : (Manifest.ingressRouteV2 r).groupKind?.bind converter? = some .ingressRoute := rfl
    rw [dispatch, hkind, convert]
    dsimp only
    rw [convertAs]
    cases ingressRoute options r <;> rfl
  | middlewareV2 r => rfl
  | ingressRouteV3 r => rfl
  | middlewareV3 r => rfl
  | untyped v => rfl

/-- Only ingress routes fail, because of the first route that is refused. -/
theorem firstRefused_of_convert [Regex.Limits] {f : Failure} (h : convert options m = .error f) :
    ∃ r cause, m = .ingressRouteV2 r ∧ FirstRefused options.keepSyntax r.spec.routes cause ∧
      f = ⟨m.kind, m.namespace, m.name, cause⟩ := by
  cases m with
  | ingressRouteV2 r =>
    rw [convert] at h
    cases hr : ingressRoute options r with
    | error cause =>
      rw [hr] at h
      cases h
      exact ⟨r, cause, rfl, ingressRoute_eq_error_iff.1 hr, rfl⟩
    | ok r' =>
      rw [hr] at h
      cases h
  | middlewareV2 r => cases h
  | ingressRouteV3 r => cases h
  | middlewareV3 r => cases h
  | untyped v => cases h

theorem exists_convert_middleware [Regex.Limits] (h : m.groupKind? = some ⟨.v2, .middleware⟩) :
    ∃ m', convert options m = .ok m' := by
  cases m with
  | middlewareV2 r => exact ⟨_, rfl⟩
  | ingressRouteV2 r => cases h
  | ingressRouteV3 r => cases h
  | middlewareV3 r => cases h
  | untyped v => cases h

/-- Every manifest goes to the converter of its kind, and a middleware of version 2 is always converted. An
error names the manifest and holds why its first refused route is refused: no other resource and no mismatch.
It is due to a rule, or else shows a defect, and shows one if and only if groups were miscounted. -/
theorem convert_classified [Regex.Limits] (options : Options) (m : Manifest) :
    dispatch options m = (convert options m).mapError Failure.toError ∧
    (m.groupKind? = some ⟨.v2, .middleware⟩ → ∃ m', convert options m = .ok m') ∧
    ∀ e, dispatch options m = .error e →
      (∃ r cause, m = .ingressRouteV2 r ∧ FirstRefused options.keepSyntax r.spec.routes cause ∧
        e = .resource m.kind m.namespace m.name (.cause (.rule cause))) ∧
      e.isRuleFault = !e.isInvariantViolation ∧
      (e.isInvariantViolation = true ↔ e.innermost.IsMiscount) := by
  refine ⟨dispatch_eq options m, exists_convert_middleware, fun e h => ?_⟩
  rw [dispatch_eq] at h
  cases hf : convert options m with
  | ok m' =>
    rw [hf] at h
    cases h
  | error f =>
    rw [hf] at h
    cases h
    obtain ⟨r, cause, hm, hrefused, rfl⟩ := firstRefused_of_convert hf
    refine ⟨⟨r, cause, hm, hrefused, rfl⟩, Error.isRuleFault_eq ?_, Error.isInvariantViolation_iff _⟩
    rintro ⟨expected, found, hmismatch⟩
    cases hmismatch

/-- A route with a template whose pattern has a group of its own. -/
def exampleMiscount : V2.Route := { rule := "Path(`/{a:(b)}`)" }

/-- An ingress route that has the route. -/
def exampleMiscounted : Manifest := .ingressRouteV2
  { apiVersion := "traefik.containo.us/v1alpha1", kind := "IngressRoute"
    metadata := { name := "web", «namespace» := some "apps" }, spec := { routes := [exampleMiscount] } }

theorem refused_exampleMiscount :
    Refused false exampleMiscount (.pattern (.groupCount "/{a:(b)}" 1 2)) := by
  have htokens : Rule.tokenize "Path(`/{a:(b)}`)" = .ok [⟨0, .identifier "Path"⟩, ⟨4, .openParen⟩,
      ⟨5, .text "/{a:(b)}"⟩, ⟨15, .closeParen⟩] := Rule.eq_ok_of_toOption (by decide +kernel)
  have haccepts : Rule.Accepts .v2 ⟨"Path", ["/{a:(b)}"], 0⟩ :=
    Rule.eq_ok_of_toOption (by decide +kernel)
  have hmiscount : Rule.upgradeText "Path(`/{a:(b)}`)" = .error (.groupCount "/{a:(b)}" 1 2) := by
    decide +kernel
  refine .notUpgraded (Rule.validate_of_call (Rule.parse_of_single htokens) haccepts) rfl ?_
  rw [exampleMiscount, Rule.upgrade, hmiscount]

theorem convert_classified_miscount :
    dispatch {} exampleMiscounted = .error (.resource "IngressRoute" "apps" "web"
      (.cause (.rule (.pattern (.groupCount "/{a:(b)}" 1 2))))) ∧
    ∀ e, dispatch {} exampleMiscounted = .error e →
      e.isInvariantViolation = true ∧ e.isRuleFault = false := by
  have hfirst : FirstRefused false [exampleMiscount] (.pattern (.groupCount "/{a:(b)}" 1 2)) :=
    ⟨[], _, [], rfl, by simp, refused_exampleMiscount⟩
  have hfails : dispatch {} exampleMiscounted = .error (.resource "IngressRoute" "apps" "web"
      (.cause (.rule (.pattern (.groupCount "/{a:(b)}" 1 2))))) := by
    rw [dispatch_eq, exampleMiscounted, convert, ingressRoute_eq_error_iff.2 hfirst]
    rfl
  refine ⟨hfails, fun e he => ?_⟩
  obtain ⟨-, hrule, hinvariant⟩ := (convert_classified {} exampleMiscounted).2.2 e he
  have hviolation : e.isInvariantViolation = true := by
    cases hfails.symm.trans he
    exact hinvariant.2 ⟨_, _, _, rfl⟩
  rw [hrule, hviolation]
  exact ⟨rfl, rfl⟩

end TraefikUpgrade.Conversion
