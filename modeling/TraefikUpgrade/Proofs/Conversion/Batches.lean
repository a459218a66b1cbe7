/-
# Batches of manifests

Each manifest of a batch is converted on its own: it leads to one converted manifest or to one failure,
and these are in the order of the manifests (`convertAll_eq`). Resources of version 2 are the only ones that
are converted, and none comes out of a conversion, so nothing is left to do for what was converted before
(`convertAll_pointwise`).

Key definitions: `IsV2`, `converted?`, `failure?`.
Key theorems: `convert_of_not_isV2`, `not_isV2_of_convert`, `convertAll_eq`, `convertAll_pointwise`.
-/
import TraefikUpgrade.Conversion.Batch
import TraefikUpgrade.Proofs.Traversal

namespace TraefikUpgrade.Conversion

open Resource

section
variable [Regex.Limits] {options : Options} {m m' : Manifest}

/-! ### Single manifests -/

/-- A resource of a registered kind of version 2. A document that is kept as a value is none, whatever it
says of itself. -/
def IsV2 (m : Manifest) : Prop := ∃ type, m.groupKind? = some ⟨.v2, type⟩

theorem convert_of_not_isV2 (h : ¬ IsV2 m) : convert options m = .ok m := by
  cases m with
  | ingressRouteV2 r => exact absurd ⟨.ingressRoute, rfl⟩ h
  | middlewareV2 r => exact absurd ⟨.middleware, rfl⟩ h
  | ingressRouteV3 r => rfl
  | middlewareV3 r => rfl
  | untyped v => rfl

theorem not_isV2_of_convert (h : convert options m = .ok m') : ¬ IsV2 m' := by
  rintro ⟨type, htype⟩
  cases m with
  | ingressRouteV2 r =>
    rw [convert] at h
    cases hr : ingressRoute options r with
    | error cause => rw [hr] at h; cases h
    | ok r' => rw [hr] at h; cases h; cases htype
  | middlewareV2 r => cases h; cases htype
  | ingressRouteV3 r => cases h; cases htype
  | middlewareV3 r => cases h; cases htype
  | untyped v => cases h; cases htype

/-! ### Batches -/

/-- What a manifest is converted to, if that succeeds. -/
def converted? (options : Options) (m : Manifest) : Option Manifest := (convert options m).toOption

/-- Why a manifest cannot be converted, if that fails. -/
def failure? (options : Options) (m : Manifest) : Option Failure :=
  match convert options m with
  | .ok _ => none
  | .error failure => some failure

theorem converted?_eq_some_iff : converted? options m = some m' ↔ convert options m = .ok m' := by
  unfold converted?
  cases convert options m <;> simp [Except.toOption]

theorem failure?_eq_none_iff : failure? options m = none ↔ ∃ m', convert options m = .ok m' := by
  unfold failure?
  cases convert options m <;> simp

/-- Each manifest is converted on its own. -/
theorem convertAll_eq (options : Options) (ms : List Manifest) :
    convertAll options ms = ⟨ms.filterMap (converted? options), ms.filterMap (failure? options)⟩ := by
  induction ms with
  | nil => rfl
  | cons m ms ih =>
    show (convertAll options ms).cons (convert options m) = _
    rw [ih, List.filterMap_cons, List.filterMap_cons, converted?, failure?]
    cases convert options m <;> rfl

/-- Every manifest is converted or fails. -/
theorem length_converted_add_failures (options : Options) (ms : List Manifest) :
    (convertAll options ms).converted.length + (convertAll options ms).failures.length =
      ms.length := by
  rw [convertAll_eq]
  dsimp only
  induction ms with
  | nil => rfl
  | cons m ms ih =>
    rw [List.filterMap_cons, List.filterMap_cons, List.length_cons, ← ih, converted?, failure?]
    cases convert options m with
    | error failure => simp only [Except.toOption, List.length_cons]; omega
    | ok m' => simp only [Except.toOption, List.length_cons]; omega

theorem not_isV2_of_mem_converted {ms : List Manifest} (h : m ∈ (convertAll options ms).converted) :
    ¬ IsV2 m := by
  rw [convertAll_eq] at h
  obtain ⟨m₀, -, hconvert⟩ := List.mem_filterMap.1 h
  exact not_isV2_of_convert (converted?_eq_some_iff.1 hconvert)

/-- A batch without resources of version 2 is left as it is. -/
theorem convertAll_of_not_isV2 {ms : List Manifest} (h : ∀ m ∈ ms, ¬ IsV2 m) :
    convertAll options ms = { converted := ms } := by
  have hconverted : ms.filterMap (converted? options) = ms := by
    rw [List.filterMap_congr fun m hm => converted?_eq_some_iff.2 (convert_of_not_isV2 (h m hm)),
      List.filterMap_some]
  have hfailures : ms.filterMap (failure? options) = [] :=
    List.filterMap_eq_nil_iff.2 fun m hm => failure?_eq_none_iff.2 ⟨m, convert_of_not_isV2 (h m hm)⟩
  rw [convertAll_eq, hconverted, hfailures]

/-- What comes of two batches one after the other is what comes of each. Nothing is lost: every manifest
is converted or fails, and one that is no resource of version 2 comes out in its place and as it is. No
resource of version 2 comes out, so that converting what was converted before, with any options, changes
nothing and cannot fail. -/
theorem convertAll_pointwise (options : Options) :
    (∀ xs ys,
      (convertAll options (xs ++ ys)).converted =
        (convertAll options xs).converted ++ (convertAll options ys).converted ∧
      (convertAll options (xs ++ ys)).failures =
        (convertAll options xs).failures ++ (convertAll options ys).failures) ∧
    (∀ ms, (convertAll options ms).converted.length + (convertAll options ms).failures.length =
      ms.length) ∧
    (∀ m, ¬ IsV2 m → convert options m = .ok m ∧ ∀ xs ys,
      (convertAll options (xs ++ m :: ys)).converted =
        (convertAll options xs).converted ++ m :: (convertAll options ys).converted) ∧
    (∀ ms, ∀ m ∈ (convertAll options ms).converted, ¬ IsV2 m) ∧
    ∀ earlier ms, convertAll options (convertAll earlier ms).converted =
      { converted := (convertAll earlier ms).converted, failures := [] } := by
  have happend : ∀ xs ys,
      (convertAll options (xs ++ ys)).converted =
        (convertAll options xs).converted ++ (convertAll options ys).converted ∧
      (convertAll options (xs ++ ys)).failures =
        (convertAll options xs).failures ++ (convertAll options ys).failures := by
    intro xs ys
    simp only [convertAll_eq, List.filterMap_append, and_self]
  refine ⟨happend, length_converted_add_failures options, fun m hm => ?_,
    fun ms m => not_isV2_of_mem_converted,
    fun earlier ms => convertAll_of_not_isV2 fun m => not_isV2_of_mem_converted⟩
  refine ⟨convert_of_not_isV2 hm, fun xs ys => ?_⟩
  have hfirst : converted? options m = some m := converted?_eq_some_iff.2 (convert_of_not_isV2 hm)
  rw [(happend xs (m :: ys)).1]
  simp only [convertAll_eq, List.filterMap_cons, hfirst]

end

/-- A route whose priority is too large, and a middleware. -/
def exampleBatch : List Manifest :=
  [.ingressRouteV2
      { apiVersion := "traefik.containo.us/v1alpha1", kind := "IngressRoute", metadata := { name := "web" }
        spec := { routes := [{ rule := "Path(`/`)", priority := 9223372036854775807 }] } },
    .middlewareV2
      { apiVersion := "traefik.containo.us/v1alpha1", kind := "Middleware", metadata := { name := "list" }
        spec := { ipWhiteList := some { sourceRange := ["10.0.0.0/8"] } } }]

/-- A document that is kept as a value. -/
def exampleSecret : Manifest := .untyped (.mapping [(.text "kind", .text "Secret")])

theorem convertAll_pointwise_mixed_batch :
    (convertAll {} exampleBatch).failures.map Failure.name = ["web"] ∧
    (convertAll {} exampleBatch).converted.map Manifest.groupKind? = [some ⟨.v3, .middleware⟩] ∧
    ¬ IsV2 exampleSecret ∧
    (convertAll {} (exampleBatch ++ [exampleSecret])).converted =
      (convertAll {} exampleBatch).converted ++ [exampleSecret] ∧
    convertAll ⟨true, []⟩ (convertAll {} exampleBatch).converted =
      { converted := (convertAll {} exampleBatch).converted, failures := [] } := by
  have hsecret : ¬ IsV2 exampleSecret := fun ⟨_, h⟩ => nomatch h
  obtain ⟨-, -, hkept, -⟩ := convertAll_pointwise {}
  obtain ⟨-, -, -, -, hagain⟩ := convertAll_pointwise ⟨true, []⟩
  exact ⟨rfl, rfl, hsecret, (hkept _ hsecret).2 exampleBatch [], hagain {} exampleBatch⟩

end TraefikUpgrade.Conversion
