/-
# Manifests that are read back

A manifest that was decoded, or that a decoded one was converted to (`Manifest.Obtained`), has the kind
that its API version and its kind name among all kinds, and its specification can be read back
(`Manifest.Fits`). So a registry of all kinds takes what is written of it for the same manifest
(`Manifest.ofValue_toValue`).

Key definitions: `Manifest.Fits`, `Manifest.Obtained`.
Key theorems: `Manifest.ofValue_toValue`, `Manifest.fits_of_ofValue`, `Manifest.fits_of_convert`,
`Manifest.decode_of_readAll`.
-/
import TraefikUpgrade.Conversion.Batch
import TraefikUpgrade.Proofs.Resource.RoundTrip
import TraefikUpgrade.Resource.Stream

namespace TraefikUpgrade.Resource

open Yaml Text

/-! ### Kinds -/

/-- A kind is found by its names among all kinds. -/
theorem lookup_all {k : GroupKind} {apiVersion kind : String} (hg : k.group.name = groupOf apiVersion)
    (ht : k.type.name = kind) : Registry.lookup GroupKind.all apiVersion kind = some k := by
  unfold Registry.lookup
  rw [← hg, ← ht]
  obtain ⟨group, type⟩ := k
  cases group <;> cases type <;> decide

theorem names_of_lookup {r : Registry} {k : GroupKind} {apiVersion kind : String}
    (h : r.lookup apiVersion kind = some k) :
    k.group.name = groupOf apiVersion ∧ k.type.name = kind := by
  have hk := List.find?_some h
  rwa [Bool.and_eq_true, beq_iff_eq, beq_iff_eq] at hk

theorem groupOf_apiVersion (k : GroupKind) : k.group.name = groupOf k.apiVersion := by
  obtain ⟨group, type⟩ := k
  cases group <;> cases type <;> decide

/-! ### Look-ups and fields -/

theorem mem_of_mapM_fields {entries : Entries} {f : Fields} {name : String}
    (hf : entries.mapM (fun entry => entry.1.text?.map (·, entry.2)) = some f)
    {entry : Value × Value} (he : entry ∈ entries) (hk : entry.1.isKey name = true) :
    (name, entry.2) ∈ f := by
  induction entries generalizing f with
  | nil => cases he
  | cons e entries ih =>
    rw [List.mapM_cons] at hf
    obtain ⟨field, hfield, hf⟩ := Option.bind_eq_some_iff.1 hf
    obtain ⟨f', hf', hf⟩ := Option.bind_eq_some_iff.1 hf
    cases hf
    rcases List.mem_cons.1 he with rfl | he
    · unfold Value.isKey at hk
      split at hk
      · next s hs =>
        have hfield : some (s, entry.2) = some field := by rwa [hs] at hfield
        rw [← Option.some.inj hfield, beq_iff_eq.1 hk]
        exact List.mem_cons_self ..
      · cases hk
    · exact List.mem_cons_of_mem _ (ih hf' he)

/-- A key that is looked up is the field of its name. -/
theorem eq_of_find? {v x y : Value} {f : Fields} {name : String} (hf : fields? v = some f)
    (hg : v.get? name = some x) (hy : f.find? name = some (some y)) : y = x := by
  unfold Value.get? Value.entries? at hg
  unfold fields? at hf
  split at hg
  · next entries hv =>
    rw [hv] at hf
    obtain ⟨entry, he, rfl⟩ := Option.map_eq_some_iff.1 hg
    have hk : entry.1.isKey name = true := by simpa using List.find?_some he
    have hm : (name, entry.2) ∈ f := mem_of_mapM_fields hf (List.mem_of_find?_eq_some he) hk
    have hfilter : (name, entry.2) ∈ f.filter (·.1 == name) := List.mem_filter.2 ⟨hm, by simp⟩
    unfold Fields.find? at hy
    split at hy
    · cases hy
    · next field hs =>
      rw [hs, List.mem_singleton] at hfilter
      cases hy
      rw [← hfilter]
    · cases hy
  · cases hg

theorem text_of_required? {v : Value} {f : Fields} {name s s' : String} (hf : fields? v = some f)
    (hg : (v.get? name).bind Value.text? = some s)
    (hr : f.required? name Value.text? = some s') : s' = s := by
  obtain ⟨x, hx, hs⟩ := Option.bind_eq_some_iff.1 hg
  obtain ⟨y, hy, hs'⟩ := Option.bind_eq_some_iff.1 hr
  obtain rfl := eq_of_find? hf hx (Option.join_eq_some_iff.1 hy)
  rw [hs] at hs'
  exact (Option.some.inj hs').symm

/-- A resource that is read has the API version and the kind that are looked up, and its specification
is read, too. -/
theorem Object.of_read? {σ : Type} {readSpec : Value → Option σ} {v : Value} {o : Object σ}
    {apiVersion kind : String} (h : Object.read? readSpec v = some o)
    (ha : (v.get? "apiVersion").bind Value.text? = some apiVersion)
    (hk : (v.get? "kind").bind Value.text? = some kind) :
    o.apiVersion = apiVersion ∧ o.kind = kind ∧ ∃ v, readSpec v = some o.spec := by
  simp only [Object.read?, ↓Option.bind_eq_bind, ↓Option.bind_eq_some_iff] at h
  obtain ⟨f, hf, a, ha', k, hk', metadata, -, o', -, spec, hspec, h⟩ := h
  cases h
  exact ⟨text_of_required? hf ha ha', text_of_required? hf hk hk', _, hspec⟩

/-! ### Manifests that fit -/

namespace Manifest

/-- Whether the specification of a manifest can be read back. -/
def SpecFits : Manifest → Prop
  | .ingressRouteV2 o => ∀ route ∈ o.spec.routes, route.Fits
  | .middlewareV2 o => o.spec.Fits
  | .ingressRouteV3 o => ∀ route ∈ o.spec.routes, route.Fits
  | .middlewareV3 o => o.spec.Fits
  | .untyped _ => True

/-- Whether a manifest can be read back. -/
structure Fits (m : Manifest) : Prop where
  spec : m.SpecFits
  registered : ∀ k, m.groupKind? = some k →
    Registry.lookup GroupKind.all m.apiVersion m.kind = some k

theorem fits_of_ofValue {v : Value} {r : Registry} {document : Nat} {m : Manifest}
    (h : ofValue v r document = .ok m) : m.Fits := by
  unfold ofValue at h
  split at h
  · cases h
  split at h
  · cases h
  · cases h
  next apiVersion kind ha hk =>
    split at h
    · cases h
      exact ⟨trivial, fun k hk => by cases hk⟩
    next k hlookup =>
      obtain ⟨hg, ht⟩ := names_of_lookup hlookup
      have hall := lookup_all hg ht
      split at h
      · next m' hm =>
        cases h
        obtain ⟨group, type⟩ := k
        cases group <;> cases type <;>
          obtain ⟨o, ho, rfl⟩ := Option.map_eq_some_iff.1 hm <;>
          obtain ⟨rfl, rfl, v', hv'⟩ := Object.of_read? ho ha hk
        · exact ⟨fun route hr => (Routing.routes_of_read? hv' route hr).elim
            fun _ => V2.Route.fits_of_read?, fun k hk => Option.some.inj hk ▸ hall⟩
        · exact ⟨V2.MiddlewareSpec.fits_of_read? hv', fun k hk => Option.some.inj hk ▸ hall⟩
        · exact ⟨fun route hr => (Routing.routes_of_read? hv' route hr).elim
            fun _ => V3.Route.fits_of_read?, fun k hk => Option.some.inj hk ▸ hall⟩
        · exact ⟨V3.MiddlewareSpec.fits_of_read? hv', fun k hk => Option.some.inj hk ▸ hall⟩
      · cases h

/-- With all kinds registered, what is written of a manifest is the manifest. -/
theorem ofValue_toValue {m : Manifest} (h : m.Fits) {k : GroupKind} (hk : m.groupKind? = some k)
    (document : Nat) : ofValue m.toValue GroupKind.all document = .ok m := by
  have hread : ∀ {σ : Type} (writeSpec : σ → Value) (o : Object σ),
      Registry.lookup GroupKind.all o.apiVersion o.kind = some k →
      read? k (o.toValue writeSpec) = some m →
      ofValue (o.toValue writeSpec) GroupKind.all document = .ok m := by
    intro σ writeSpec o hlookup hm
    have ha : ((o.toValue writeSpec).get? "apiVersion").bind Value.text? = some o.apiVersion := rfl
    have hkind : ((o.toValue writeSpec).get? "kind").bind Value.text? = some o.kind := rfl
    rw [ofValue, if_neg (by simp [Object.toValue, Value.entries?, Value.untagged]), ha, hkind]
    dsimp only
    rw [hlookup]
    dsimp only
    rw [hm]
  have hlookup := h.registered k hk
  have hspec := h.spec
  cases m with
  | ingressRouteV2 o =>
    cases hk
    refine hread _ o hlookup ?_
    exact congrArg (Option.map Manifest.ingressRouteV2)
      (Object.restores (Routing.restores fun r hr => V2.Route.restores (hspec r hr))).read_write
  | middlewareV2 o =>
    cases hk
    refine hread _ o hlookup ?_
    exact congrArg (Option.map Manifest.middlewareV2)
      (Object.restores (V2.MiddlewareSpec.restores hspec)).read_write
  | ingressRouteV3 o =>
    cases hk
    refine hread _ o hlookup ?_
    exact congrArg (Option.map Manifest.ingressRouteV3)
      (Object.restores (Routing.restores fun r hr => V3.Route.restores (hspec r hr))).read_write
  | middlewareV3 o =>
    cases hk
    refine hread _ o hlookup ?_
    exact congrArg (Option.map Manifest.middlewareV3)
      (Object.restores (V3.MiddlewareSpec.restores hspec)).read_write
  | untyped v => cases hk

end Manifest

/-! ### Converted resources -/

theorem cookie_fits (c : V2.Cookie) : (Conversion.cookie c).Fits := nofun

theorem service_fits {P : V2.Cookie → Prop} {s : Service V2.Cookie} (h : s.Fits P) :
    (Conversion.service s).Fits V3.Cookie.Fits := by
  refine ⟨h.port, h.weight, fun t ht c hc => ?_⟩
  have ht : t ∈ s.sticky.map Conversion.sticky := (Option.filter_eq_some_iff.1 ht).1
  obtain ⟨t', -, rfl⟩ := Option.map_eq_some_iff.1 ht
  have hc : c ∈ t'.cookie.map Conversion.cookie := (Option.filter_eq_some_iff.1 hc).1
  obtain ⟨c', -, rfl⟩ := Option.map_eq_some_iff.1 hc
  exact cookie_fits c'

theorem route_fits [Regex.Limits] {keepSyntax : Bool} {r : V2.Route} {r' : V3.Route} (h : r.Fits)
    (hr : Conversion.route keepSyntax r = .ok r') : r'.Fits := by
  unfold Conversion.route at hr
  cases hrule : Conversion.rule keepSyntax r with
  | error failure => rw [hrule] at hr; cases hr
  | ok rule =>
    rw [hrule] at hr
    cases hr
    refine ⟨h.priority, fun s hs => ?_⟩
    obtain ⟨s', hs', rfl⟩ := List.mem_map.1 hs
    exact service_fits (h.services s' hs')

theorem routes_fit [Regex.Limits] {keepSyntax : Bool} : ∀ {rs : List V2.Route} {rs' : List V3.Route},
    (∀ r ∈ rs, r.Fits) → rs.mapM (Conversion.route keepSyntax) = .ok rs' → ∀ r ∈ rs', r.Fits
  | [], rs', _, hr => by
    cases hr
    exact nofun
  | r :: rs, rs', h, hr => by
    rw [List.forall_mem_cons] at h
    rw [List.mapM_cons] at hr
    cases hfirst : Conversion.route keepSyntax r with
    | error failure => rw [hfirst] at hr; cases hr
    | ok r' =>
      cases hrest : rs.mapM (Conversion.route keepSyntax) with
      | error failure => rw [hfirst, hrest] at hr; cases hr
      | ok rest =>
        rw [hfirst, hrest] at hr
        cases hr
        exact List.forall_mem_cons.2 ⟨route_fits h.1 hfirst, routes_fit h.2 hrest⟩

theorem allowList_fits {l : V2.IpWhiteList} (h : l.Fits) : (Conversion.allowList l).Fits :=
  ⟨fun s hs => h s (Option.filter_eq_some_iff.1 hs).1, nofun⟩

theorem settings?_leftover {d : Text.Dictionary Value} {known : List String} (h : Leftover known d)
    {x : V3.Settings} (hx : x ∈ Conversion.settings? d) : Leftover [] x.settings := by
  unfold Conversion.settings? at hx
  split at hx
  · cases hx
  · cases hx
    exact h.mono (List.nil_subset _)

theorem middlewareSpec_fits {s : V2.MiddlewareSpec} (h : s.Fits) :
    (Conversion.middlewareSpec s).Fits := by
  refine ⟨fun x hx => ?_, fun x hx => ?_, fun l hl => ?_, h.other.mono ?_⟩
  · obtain ⟨b, hb, hx⟩ := Option.bind_eq_some_iff.1 hx
    exact settings?_leftover (h.headers b hb) hx
  · obtain ⟨b, hb, hx⟩ := Option.bind_eq_some_iff.1 hx
    exact settings?_leftover (h.contentType b hb) hx
  · obtain ⟨l', hl', rfl⟩ := Option.map_eq_some_iff.1 hl
    rcases Option.or_eq_some_iff.1 hl' with hl' | ⟨-, hl'⟩
    · exact allowList_fits (h.ipAllowList l' hl')
    · exact allowList_fits (h.ipWhiteList l' hl')
  · decide

namespace Manifest

/-- What a manifest that fits is converted to fits, too. -/
theorem fits_of_convert [Regex.Limits] {options : Conversion.Options} {m m' : Manifest} (h : m.Fits)
    (hm : Conversion.convert options m = .ok m') : m'.Fits := by
  cases m with
  | ingressRouteV2 r =>
    simp only [Conversion.convert, Conversion.ingressRoute] at hm
    cases hroutes : r.spec.routes.mapM (Conversion.route options.keepSyntax) with
    | error failure => rw [hroutes] at hm; cases hm
    | ok routes =>
      rw [hroutes] at hm
      cases hm
      obtain ⟨-, hkind⟩ := names_of_lookup (h.registered _ rfl)
      refine ⟨routes_fit h.spec hroutes, fun k hk => ?_⟩
      cases hk
      exact lookup_all (groupOf_apiVersion _) hkind
  | middlewareV2 r =>
    cases hm
    obtain ⟨-, hkind⟩ := names_of_lookup (h.registered _ rfl)
    refine ⟨middlewareSpec_fits h.spec, fun k hk => ?_⟩
    cases hk
    exact lookup_all (groupOf_apiVersion _) hkind
  | ingressRouteV3 r => cases hm; exact h
  | middlewareV3 r => cases hm; exact h
  | untyped v => cases hm; exact h

/-- The manifests that come from a stream, and those that they are converted to. -/
inductive Obtained [Regex.Limits] : Manifest → Prop
  | decoded {r : Registry} {text : String} {ms : List Manifest} {m : Manifest}
      (h : decode r text = .ok ms) (hm : m ∈ ms) : Obtained m
  | converted {options : Conversion.Options} {m m' : Manifest} (h : Obtained m)
      (hm : Conversion.convert options m = .ok m') : Obtained m'

theorem fits_of_decodeFrom {r : Registry} {documents : List (Option Value)} {document : Nat}
    {ms : List Manifest} (h : decodeFrom r document documents = .ok ms) : ∀ m ∈ ms, m.Fits := by
  induction documents generalizing document ms with
  | nil =>
    rw [decodeFrom] at h
    cases h
    exact fun _ hm => absurd hm List.not_mem_nil
  | cons v? rest ih =>
    cases v? with
    | none =>
      rw [decodeFrom] at h
      cases h
    | some v =>
      rw [decodeFrom] at h
      split at h
      · exact ih h
      · cases hfirst : ofValue v r document with
        | error fault => rw [hfirst] at h; cases h
        | ok m =>
          cases hrest : decodeFrom r (document + 1) rest with
          | error fault => rw [hfirst, hrest] at h; cases h
          | ok ms' =>
            rw [hfirst, hrest] at h
            cases h
            exact List.forall_mem_cons.2 ⟨fits_of_ofValue hfirst, ih hrest⟩

theorem Obtained.fits [Regex.Limits] {m : Manifest} (h : m.Obtained) : m.Fits := by
  induction h with
  | decoded h hm => exact fits_of_decodeFrom h _ hm
  | converted _ hm ih => exact fits_of_convert ih hm

/-- A stream that is the text of one manifest is read as the manifest, if the text says what was
written. -/
theorem decode_of_readAll {m : Manifest} (h : m.Fits) {k : GroupKind} (hk : m.groupKind? = some k)
    {text : String} (ht : readAll text = [some m.toValue]) :
    decode GroupKind.all text = .ok [m] := by
  have hnull : m.toValue.isNull = false := by cases m <;> first | rfl | cases hk
  rw [decode, ht, decodeFrom, hnull, ofValue_toValue h hk]
  rfl

end Manifest

end TraefikUpgrade.Resource
