/-
# What a document says of itself

Whether a document is taken apart depends on the registry. What it says of itself does not: the API version
and the kind are those that are looked up in it (`Manifest.Tells`), so they lead to the kind as which it was
read (`lookup_of_ofValue`). The name and the namespace of a resource are those that are looked up, too, as
long as their keys have no tags: where fields are read the tag of a key does not count, and where keys are
looked up it makes another key of it. So registries lead to one name and one namespace unless such a key has
a tag (`identity_of_ofValue`, `name_depends_on_registry`).

Key definitions: `IsPlainKey`, `IsPlainField`, `Manifest.Tells`.
Key theorems: `get?_eq_of_find?`, `ofValue_cases`, `tells_of_ofValue`, `eq_of_ofValue`,
`identity_of_ofValue`.
-/
import TraefikUpgrade.Proofs.Resource.Obtained

namespace TraefikUpgrade.Resource

open Yaml

/-! ### Keys and fields -/

/-- A key that is the given text has no tag. -/
def IsPlainKey (name : String) (v : Value) : Prop :=
  ∀ entries, v.entries? = some entries → ∀ entry ∈ entries, entry.1.text? = some name →
    entry.1.isKey name = true

variable {v : Value} {f : Fields} {name : String}

theorem text?_of_isKey {key : Value} (h : key.isKey name = true) : key.text? = some name := by
  unfold Value.isKey at h
  split at h
  · rw [← beq_iff_eq.1 h]
    rfl
  · cases h

/-- The first field of a name is the first entry of it, if the keys have no tags. -/
theorem lookup_eq_of_mapM : ∀ {entries : Entries} {f : Fields},
    entries.mapM (fun entry => entry.1.text?.map (·, entry.2)) = some f →
    (∀ entry ∈ entries, entry.1.text? = some name → entry.1.isKey name = true) →
    Value.lookup name entries = (List.find? (·.1 == name) f).map Prod.snd
  | [], f, hf, _ => by
    cases hf
    rfl
  | entry :: entries, f, hf, hp => by
    rw [List.mapM_cons] at hf
    obtain ⟨field, hfield, hf⟩ := Option.bind_eq_some_iff.1 hf
    obtain ⟨f', hf', hf⟩ := Option.bind_eq_some_iff.1 hf
    cases hf
    obtain ⟨s, hs, rfl⟩ := Option.map_eq_some_iff.1 hfield
    rw [List.forall_mem_cons] at hp
    have hkey : entry.1.isKey name = (s == name) := by
      rw [Bool.eq_iff_iff, beq_iff_eq]
      refine ⟨fun hk => Option.some.inj (hs.symm.trans (text?_of_isKey hk)), fun hk => hp.1 ?_⟩
      rw [hs, hk]
    have ih := lookup_eq_of_mapM hf' hp.2
    rw [Value.lookup, List.find?_cons, hkey, List.find?_cons]
    cases s == name
    · exact ih
    · rfl

/-- A field whose key has no tag is what is looked up. -/
theorem get?_eq_of_find? {o : Option Value} (hf : fields? v = some f) (hp : IsPlainKey name v)
    (ho : f.find? name = some o) : v.get? name = o := by
  have hget : v.get? name = (List.find? (·.1 == name) f).map Prod.snd := by
    unfold fields? at hf
    unfold Value.get? Value.entries?
    split at hf
    · next hv =>
      cases hf
      rw [hv]
      rfl
    · next entries hv =>
      rw [hv]
      refine lookup_eq_of_mapM hf (hp entries ?_)
      rw [Value.entries?, hv]
    · cases hf
  rw [hget, ← List.head?_filter]
  unfold Fields.find? at ho
  split at ho
  · next hnone =>
    cases ho
    rw [hnone]
    rfl
  · next entry hone =>
    cases ho
    rw [hone]
    rfl
  · cases ho

/-- The text of a key, or else the empty text. -/
theorem textAt_eq_of_orDefault? {s : String} (hf : fields? v = some f) (hp : IsPlainKey name v)
    (hs : f.orDefault? name "" Value.text? = some s) : Manifest.textAt v [name] = s := by
  obtain ⟨o, ho, hs⟩ := Option.bind_eq_some_iff.1 hs
  have hget : Manifest.textAt v [name] = (o.bind Value.text?).getD "" := by
    rw [← get?_eq_of_find? hf hp ho]
    simp [Manifest.textAt]
  rw [hget]
  cases o with
  | none => exact Option.some.inj hs
  | some x =>
    have hx : x.text? = some s := hs
    rw [Option.bind_some, hx]
    rfl

theorem textAt_eq_of_option? {s : Option String} (hf : fields? v = some f) (hp : IsPlainKey name v)
    (hs : f.option? name Value.text? = some s) : Manifest.textAt v [name] = s.getD "" := by
  obtain ⟨o, ho, hs⟩ := Option.bind_eq_some_iff.1 hs
  have hget : Manifest.textAt v [name] = (o.bind Value.text?).getD "" := by
    rw [← get?_eq_of_find? hf hp ho]
    simp [Manifest.textAt]
  rw [hget]
  cases o with
  | none =>
    cases hs
    rfl
  | some x =>
    dsimp only at hs
    split at hs
    · cases hs
      rfl
    · obtain ⟨t, ht, rfl⟩ := Option.map_eq_some_iff.1 hs
      rw [Option.bind_some, ht]

/-! ### Resources -/

/-- Neither the key of the metadata nor a key of it that is the given text has a tag. -/
structure IsPlainField (name : String) (v : Value) : Prop where
  metadata : IsPlainKey "metadata" v
  field : ∀ w ∈ v.get? "metadata", IsPlainKey name w

theorem textAt_metadata (v : Value) (name : String) : Manifest.textAt v ["metadata", name] =
    ((v.get? "metadata").map fun w => Manifest.textAt w [name]).getD "" := by
  unfold Manifest.textAt
  cases h : v.get? "metadata" <;> simp [h]

section Objects

variable {σ : Type} {readSpec : Value → Option σ} {o : Object σ}

/-- The metadata of a resource are read from what is looked up, or else they are empty. -/
theorem Object.metadata_of_read? (h : Object.read? readSpec v = some o) (hp : IsPlainKey "metadata" v) :
    (v.get? "metadata" = none ∧ o.metadata = {}) ∨
      ∃ w, v.get? "metadata" = some w ∧ Metadata.read? w = some o.metadata := by
  simp only [Object.read?, ↓Option.bind_eq_bind, ↓Option.bind_eq_some_iff] at h
  obtain ⟨f, hf, _, -, _, -, metadata, hm, _, -, _, -, h⟩ := h
  cases h
  obtain ⟨w, hw, hm⟩ := Option.bind_eq_some_iff.1 hm
  rw [get?_eq_of_find? hf hp hw]
  cases w with
  | none => exact .inl ⟨rfl, (Option.some.inj hm).symm⟩
  | some w => exact .inr ⟨w, rfl, hm⟩

theorem Object.name_of_read? (h : Object.read? readSpec v = some o) (hp : IsPlainField "name" v) :
    Manifest.textAt v ["metadata", "name"] = o.metadata.name := by
  rw [textAt_metadata]
  rcases Object.metadata_of_read? h hp.metadata with ⟨hnone, hempty⟩ | ⟨w, hw, hm⟩
  · rw [hnone, hempty]
    rfl
  · simp only [Metadata.read?, ↓Option.bind_eq_bind, ↓Option.bind_eq_some_iff] at hm
    obtain ⟨f, hf, name, hname, _, -, _, -, _, -, hm⟩ := hm
    rw [hw, Option.map_some, textAt_eq_of_orDefault? hf (hp.field w hw) hname, ← Option.some.inj hm]
    rfl

theorem Object.namespace_of_read? (h : Object.read? readSpec v = some o)
    (hp : IsPlainField "namespace" v) :
    Manifest.textAt v ["metadata", "namespace"] = o.metadata.namespace.getD "" := by
  rw [textAt_metadata]
  rcases Object.metadata_of_read? h hp.metadata with ⟨hnone, hempty⟩ | ⟨w, hw, hm⟩
  · rw [hnone, hempty]
    rfl
  · simp only [Metadata.read?, ↓Option.bind_eq_bind, ↓Option.bind_eq_some_iff] at hm
    obtain ⟨f, hf, _, -, ns, hns, _, -, _, -, hm⟩ := hm
    rw [hw, Option.map_some, textAt_eq_of_option? hf (hp.field w hw) hns, ← Option.some.inj hm]
    rfl

end Objects

/-! ### Manifests -/

namespace Manifest

variable {r r' : Registry} {document document' : Nat} {m m' : Manifest} {k : GroupKind}
  {apiVersion kind : String}

/-- A document is kept or read as the kind that the registry has for what is looked up in it. -/
theorem ofValue_cases (h : ofValue v r document = .ok m) : ∃ apiVersion kind,
    (v.get? "apiVersion").bind Value.text? = some apiVersion ∧
    (v.get? "kind").bind Value.text? = some kind ∧
    ((r.lookup apiVersion kind = none ∧ m = .untyped v) ∨
      ∃ k, r.lookup apiVersion kind = some k ∧ read? k v = some m) := by
  unfold ofValue at h
  split at h
  · cases h
  split at h
  · cases h
  · cases h
  next apiVersion kind ha hk =>
    refine ⟨apiVersion, kind, ha, hk, ?_⟩
    split at h
    · next hlookup =>
      cases h
      exact .inl ⟨hlookup, rfl⟩
    · next k hlookup =>
      split at h
      · next m' hm =>
        cases h
        exact .inr ⟨k, hlookup, hm⟩
      · cases h

/-- What a manifest says of itself is what is looked up in a document, as far as keys have no tags. -/
structure Tells (v : Value) (m : Manifest) : Prop where
  apiVersion : m.apiVersion = textAt v ["apiVersion"]
  kind : m.kind = textAt v ["kind"]
  name : IsPlainField "name" v → m.name = textAt v ["metadata", "name"]
  givenNamespace : IsPlainField "namespace" v → m.givenNamespace = textAt v ["metadata", "namespace"]

theorem textAt_eq {s : String} (h : (v.get? name).bind Value.text? = some s) : textAt v [name] = s := by
  simp [textAt, h]

theorem tells_of_read? (h : read? k v = some m)
    (ha : (v.get? "apiVersion").bind Value.text? = some apiVersion)
    (hk : (v.get? "kind").bind Value.text? = some kind) : m.groupKind? = some k ∧ Tells v m := by
  obtain ⟨group, type⟩ := k
  cases group <;> cases type <;>
    obtain ⟨o, ho, rfl⟩ := Option.map_eq_some_iff.1 h <;>
    obtain ⟨hversion, hkind, -⟩ := Object.of_read? ho ha hk <;>
    exact ⟨rfl, hversion.trans (textAt_eq ha).symm, hkind.trans (textAt_eq hk).symm,
      fun hp => (Object.name_of_read? ho hp).symm, fun hp => (Object.namespace_of_read? ho hp).symm⟩

theorem tells_of_ofValue (h : ofValue v r document = .ok m) : Tells v m := by
  obtain ⟨apiVersion, kind, ha, hk, ⟨-, rfl⟩ | ⟨k, -, hread⟩⟩ := ofValue_cases h
  · exact ⟨rfl, rfl, fun _ => rfl, fun _ => rfl⟩
  · exact (tells_of_read? hread ha hk).2

/-- The registry has for a manifest the kind as which it was read. -/
theorem lookup_of_ofValue (h : ofValue v r document = .ok m) :
    r.lookup m.apiVersion m.kind = m.groupKind? := by
  obtain ⟨apiVersion, kind, ha, hk, hcases⟩ := ofValue_cases h
  have htells := tells_of_ofValue h
  rw [htells.apiVersion, htells.kind, textAt_eq ha, textAt_eq hk]
  rcases hcases with ⟨hnone, rfl⟩ | ⟨k, hlookup, hread⟩
  · exact hnone
  · rw [hlookup, (tells_of_read? hread ha hk).1]

/-- Registries that both have the kind of a document, or both do not, lead to the same. -/
theorem eq_of_ofValue (h : ofValue v r document = .ok m) (h' : ofValue v r' document' = .ok m')
    (hsame : m.groupKind?.isSome = m'.groupKind?.isSome) : m = m' := by
  have hlookup := lookup_of_ofValue h
  have hlookup' := lookup_of_ofValue h'
  obtain ⟨apiVersion, kind, ha, hk, ⟨-, rfl⟩ | ⟨k, hk₁, hread⟩⟩ := ofValue_cases h <;>
    obtain ⟨apiVersion', kind', ha', hk', ⟨-, rfl⟩ | ⟨k', hk₁', hread'⟩⟩ := ofValue_cases h'
  · rfl
  · rw [(tells_of_read? hread' ha' hk').1] at hsame
    cases hsame
  · rw [(tells_of_read? hread ha hk).1] at hsame
    cases hsame
  · cases ha.symm.trans ha'
    cases hk.symm.trans hk'
    -- The names of a kind determine it.
    have hall := (names_of_lookup hk₁).elim lookup_all
    have hall' := (names_of_lookup hk₁').elim lookup_all
    cases hall.symm.trans hall'
    exact Option.some.inj (hread.symm.trans hread')

/-- Whatever the registries, what is read of a document has one API version and one kind, for which each
registry has the kind as which it read it. Where both take it apart or both keep it, they give the same. Else
they give one name and one namespace if the keys of these have no tags. -/
theorem identity_of_ofValue (h : ofValue v r document = .ok m) (h' : ofValue v r' document' = .ok m') :
    m.apiVersion = m'.apiVersion ∧ m.kind = m'.kind ∧
    (m.groupKind?.isSome = m'.groupKind?.isSome → m = m') ∧
    (IsPlainField "name" v → m.name = m'.name) ∧
    (IsPlainField "namespace" v → m.namespace = m'.namespace) ∧
    r.lookup m.apiVersion m.kind = m.groupKind? ∧ r'.lookup m'.apiVersion m'.kind = m'.groupKind? := by
  have htells := tells_of_ofValue h
  have htells' := tells_of_ofValue h'
  refine ⟨htells.apiVersion.trans htells'.apiVersion.symm, htells.kind.trans htells'.kind.symm,
    eq_of_ofValue h h', fun hp => (htells.name hp).trans (htells'.name hp).symm, fun hp => ?_,
    lookup_of_ofValue h, lookup_of_ofValue h'⟩
  rw [«namespace», «namespace», htells.givenNamespace hp, htells'.givenNamespace hp]

/-- A middleware whose metadata are tagged, as well as its name, but not the keys of these. -/
def exampleTagged : Value := .mapping [(.text "apiVersion", .text "traefik.io/v1alpha1"),
  (.text "kind", .text "Middleware"),
  (.text "metadata", .tagged "m" (.mapping [(.text "name", .tagged "n" (.text "web")),
    (.text "namespace", .null)]))]

theorem identity_of_ofValue_tagged_values :
    ∃ m m', ofValue exampleTagged GroupKind.all 0 = .ok m ∧ ofValue exampleTagged [] 1 = .ok m' ∧
      m.groupKind? = some ⟨.v3, .middleware⟩ ∧ m'.groupKind? = none ∧ m.name = "web" ∧
      IsPlainField "name" exampleTagged ∧ m.name = m'.name ∧
      IsPlainField "namespace" exampleTagged ∧ m.namespace = m'.namespace := by
  have hread : ∃ m, ofValue exampleTagged GroupKind.all 0 = .ok m ∧
      m.groupKind? = some ⟨.v3, .middleware⟩ ∧ m.name = "web" := ⟨_, rfl, rfl, rfl⟩
  have hkept : ∃ m', ofValue exampleTagged [] 1 = .ok m' ∧ m'.groupKind? = none := ⟨_, rfl, rfl⟩
  have hplain : ∀ name ∈ ["name", "namespace"], IsPlainField name exampleTagged := by
    intro name hname
    refine ⟨fun entries he => ?_, fun w hw entries he => ?_⟩
    · cases he
      decide
    · cases hw
      cases he
      revert name
      decide
  obtain ⟨m, hm, hkind, hname⟩ := hread
  obtain ⟨m', hm', hkind'⟩ := hkept
  obtain ⟨-, -, -, hnames, hnamespaces, -⟩ := identity_of_ofValue hm hm'
  exact ⟨m, m', hm, hm', hkind, hkind', hname, hplain _ (by decide), hnames (hplain _ (by decide)),
    hplain _ (by decide), hnamespaces (hplain _ (by decide))⟩

/-- A middleware with a tag before the key of its metadata. -/
def exampleTaggedKey : Value := .mapping [(.text "apiVersion", .text "traefik.io/v1alpha1"),
  (.text "kind", .text "Middleware"),
  (.tagged "m" (.text "metadata"), .mapping [(.text "name", .text "web"),
    (.text "namespace", .text "apps")])]

/-- If the key of the metadata has a tag, the middleware has a name only where it is taken apart. -/
theorem name_depends_on_registry :
    ∃ m m', ofValue exampleTaggedKey GroupKind.all 0 = .ok m ∧
      ofValue exampleTaggedKey [] 0 = .ok m' ∧
      m.name = "web" ∧ m.namespace = "apps" ∧ m'.name = "" ∧ m'.namespace = "default" :=
  ⟨_, _, rfl, rfl, rfl, rfl, rfl, rfl⟩

end Manifest

end TraefikUpgrade.Resource
