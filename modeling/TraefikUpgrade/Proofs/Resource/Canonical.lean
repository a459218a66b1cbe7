/-
# What is written of a manifest

What is written of a manifest is read back: as the same manifest, if its kind is registered, and else as
the document without the timestamp of its creation. What is written of the manifest that is read back is
the same value (`ofValue_toValue_stable`).

Key definitions: `withoutTimestamp`.
Key theorems: `swapRemove_cases`, `dropTimestamp_idem`, `same_dropTimestamp`, `timestamp_dropTimestamp`,
`ofValue_toValue_stable`.
-/
import Mathlib.Data.List.TakeDrop
import Mathlib.Data.List.TakeWhile
import TraefikUpgrade.Proofs.Resource.Obtained
import TraefikUpgrade.Proofs.Yaml.Keys

namespace TraefikUpgrade.Resource

open Yaml

/-! ### Removing an entry -/

namespace Manifest

variable {name : String} {entries : Entries} {v w : Value}

/-- Either there is no entry of the name, and nothing is changed, or the first one is taken out, and what
comes after it is put into another order. -/
theorem swapRemove_cases (name : String) (entries : Entries) :
    ((∀ entry ∈ entries, entry.1.isKey name = false) ∧ swapRemove name entries = entries) ∨
    ∃ before entry after after', entries = before ++ entry :: after ∧
      (∀ entry ∈ before, entry.1.isKey name = false) ∧ entry.1.isKey name = true ∧
      after'.Perm after ∧ swapRemove name entries = before ++ after' := by
  -- The list is split at the first entry of the name.
  let isOther : Value × Value → Bool := fun entry => !entry.1.isKey name
  have hsplit := List.takeWhile_append_dropWhile (p := isOther) (l := entries)
  have hbefore : ∀ entry ∈ entries.takeWhile isOther, entry.1.isKey name = false := by
    intro entry he
    simpa [isOther] using List.mem_takeWhile_imp he
  unfold swapRemove
  rw [List.span_eq_takeWhile_dropWhile]
  cases hafter : entries.dropWhile isOther with
  | nil =>
    rw [hafter, List.append_nil] at hsplit
    exact .inl ⟨hsplit ▸ hbefore, rfl⟩
  | cons entry after =>
    have hkey : entry.1.isKey name = true := by
      have hhead := List.head?_dropWhile_not isOther entries
      rw [hafter] at hhead
      simpa [isOther] using hhead
    rw [hafter] at hsplit
    dsimp only
    cases hlast : after.getLast? with
    | none =>
      rw [List.getLast?_eq_none_iff] at hlast
      exact .inr ⟨_, entry, after, [], hsplit.symm, hbefore, hkey, hlast ▸ .refl _,
        (List.append_nil _).symm⟩
    | some last =>
      refine .inr ⟨_, entry, after, last :: after.dropLast, hsplit.symm, hbefore, hkey, ?_, rfl⟩
      obtain ⟨init, rfl⟩ := List.getLast?_eq_some_iff.1 hlast
      rw [List.dropLast_concat]
      exact (List.perm_append_singleton last init).symm

/-- Of entries without the same key twice, one has the name at most. -/
theorem not_isKey_of_wellKeyed {before after : Entries} {entry : Value × Value}
    (h : Value.WellKeyed (before ++ entry :: after)) (hkey : entry.1.isKey name = true) :
    ∀ other ∈ after, other.1.isKey name = false := by
  have htext : ∀ {key : Value}, key.isKey name = true → key = .text name := by
    intro key hkey
    cases key with
    | text s => rw [beq_iff_eq.1 hkey]
    | _ => cases hkey
  intro other hother
  rw [← Bool.not_eq_true]
  intro hother'
  have hsame := (List.pairwise_cons.1 (List.pairwise_append.1 h.keys).2.1).1 other hother
  rw [htext hkey, htext hother', Value.same_refl] at hsame
  cases hsame

/-- All entries but those of the name are left, in some order. -/
theorem swapRemove_perm (h : Value.WellKeyed entries) : (swapRemove name entries).Perm
    (entries.filter fun entry => !entry.1.isKey name) := by
  rcases swapRemove_cases name entries with ⟨hnone, heq⟩ |
    ⟨before, entry, after, after', rfl, hbefore, hkey, hperm, heq⟩
  · rw [heq, List.filter_eq_self.2 fun entry he => by rw [hnone entry he]; rfl]
  · have hafter := not_isKey_of_wellKeyed h hkey
    have hfilter : (before ++ entry :: after).filter (fun entry => !entry.1.isKey name) =
        before ++ after := by
      rw [List.filter_append, List.filter_cons_of_neg (by simp [hkey]),
        List.filter_eq_self.2 fun entry he => by rw [hbefore entry he]; rfl,
        List.filter_eq_self.2 fun entry he => by rw [hafter entry he]; rfl]
    rw [heq, hfilter]
    exact hperm.append_left before

theorem not_isKey_of_mem_swapRemove (h : Value.WellKeyed entries) {entry : Value × Value}
    (he : entry ∈ swapRemove name entries) : entry.1.isKey name = false := by
  have hfilter := (swapRemove_perm h).mem_iff.1 he
  simpa using (List.mem_filter.1 hfilter).2

theorem swapRemove_idem (h : Value.WellKeyed entries) :
    swapRemove name (swapRemove name entries) = swapRemove name entries := by
  rcases swapRemove_cases name (swapRemove name entries) with ⟨-, heq⟩ |
    ⟨before, entry, after, after', hsplit, -, hkey, -, -⟩
  · exact heq
  · have hmem : entry ∈ swapRemove name entries := by
      rw [hsplit]
      exact List.mem_append_right _ (List.mem_cons_self ..)
    rw [not_isKey_of_mem_swapRemove h hmem] at hkey
    cases hkey

theorem lookup_swapRemove (h : Value.WellKeyed entries) :
    Value.lookup name (swapRemove name entries) = none := by
  rw [Value.lookup, Option.map_eq_none_iff, List.find?_eq_none]
  intro entry he
  rw [not_isKey_of_mem_swapRemove h he]
  exact Bool.false_ne_true

/-! ### Changing entries -/

theorem entries?_mapEntries (f : Entries → Entries) :
    ∀ v : Value, (mapEntries f v).entries? = v.entries?.map f
  | .tagged _ content => entries?_mapEntries f content
  | .null | .bool _ | .int _ | .float _ | .text _ | .sequence _ | .mapping _ => rfl

theorem mapEntries_congr {f g : Entries → Entries} :
    ∀ {v : Value}, (∀ entries, v.entries? = some entries → f entries = g entries) →
      mapEntries f v = mapEntries g v
  | .tagged tag _, h => congrArg (Value.tagged tag) (mapEntries_congr h)
  | .mapping _, h => congrArg Value.mapping (h _ rfl)
  | .null, _ | .bool _, _ | .int _, _ | .float _, _ | .text _, _ | .sequence _, _ => rfl

theorem mapEntries_mapEntries (f g : Entries → Entries) :
    ∀ v : Value, mapEntries g (mapEntries f v) = mapEntries (g ∘ f) v
  | .tagged tag content => congrArg (Value.tagged tag) (mapEntries_mapEntries f g content)
  | .null | .bool _ | .int _ | .float _ | .text _ | .sequence _ | .mapping _ => rfl

/-- Changes of the entries that give what is taken for the same. -/
theorem same_mapEntries {f g : Entries → Entries} :
    ∀ {v : Value}, (∀ entries, v.entries? = some entries →
      (Value.mapping (f entries)).same (.mapping (g entries)) = true) →
      (mapEntries f v).same (mapEntries g v) = true
  | .tagged tag content, h => by
    rw [mapEntries, mapEntries, Value.same, beq_self_eq_true, Bool.true_and]
    exact same_mapEntries h
  | .mapping _, h => h _ rfl
  | .null, _ | .bool _, _ | .int _, _ | .float _, _ | .text _, _ | .sequence _, _ =>
    Value.same_refl _

theorem lookup_mapKey_self (f : Value → Value) :
    Value.lookup name (mapKey name f entries) = (Value.lookup name entries).map f := by
  induction entries with
  | nil => rfl
  | cons entry entries ih =>
    by_cases hkey : entry.1.isKey name = true
    · simp [Value.lookup, mapKey, hkey]
    · rw [Bool.not_eq_true] at hkey
      simpa [Value.lookup, mapKey, hkey] using ih

/-- A key is no two texts. -/
theorem isKey_of_ne {key : Value} {other : String} (hne : other ≠ name) (h : key.isKey name = true) :
    key.isKey other = false := by
  cases key with
  | text s =>
    obtain rfl : s = name := beq_iff_eq.1 h
    exact beq_eq_false_iff_ne.2 hne.symm
  | _ => cases h

theorem lookup_mapKey_of_ne {other : String} (hne : other ≠ name) (f : Value → Value) :
    Value.lookup other (mapKey name f entries) = Value.lookup other entries := by
  induction entries with
  | nil => rfl
  | cons entry entries ih =>
    by_cases hkey : entry.1.isKey name = true
    · simpa [Value.lookup, mapKey, hkey, isKey_of_ne hne hkey] using ih
    · rw [Bool.not_eq_true] at hkey
      by_cases hother : entry.1.isKey other = true
      · simp [Value.lookup, mapKey, hkey, hother]
      · rw [Bool.not_eq_true] at hother
        simpa [Value.lookup, mapKey, hkey, hother] using ih

theorem mapKey_idem {f : Value → Value} (h : ∀ entry ∈ entries, f (f entry.2) = f entry.2) :
    mapKey name f (mapKey name f entries) = mapKey name f entries := by
  unfold mapKey
  rw [List.map_map]
  refine List.map_congr_left fun entry he => ?_
  by_cases hkey : entry.1.isKey name = true
  · simp [hkey, h entry he]
  · simp [hkey]

/-! ### Values without the same key twice -/

theorem wellKeyed_of_entries? : ∀ {v : Value}, v.wellKeyed = true →
    v.entries? = some entries → Value.WellKeyed entries
  | .tagged _ _, h, he => wellKeyed_of_entries? (Value.wellKeyed_tagged.1 h) he
  | .mapping _, h, he => by
    cases he
    exact Value.wellKeyedEntries_iff.1 h

theorem wellKeyed_of_get? {x : Value} (h : v.wellKeyed = true) (hx : v.get? name = some x) :
    x.wellKeyed = true := by
  obtain ⟨entries, he, hlookup⟩ := Option.bind_eq_some_iff.1 hx
  obtain ⟨entry, hentry, rfl⟩ := Option.map_eq_some_iff.1 hlookup
  exact ((wellKeyed_of_entries? h he).parts entry (List.mem_of_find?_eq_some hentry)).2

/-! ### The timestamp of the creation -/

/-- Metadata without the timestamp of the creation, as they are written. -/
def dropStamp (v : Value) : Value := mapEntries (swapRemove "creationTimestamp") v

theorem dropTimestamp_eq (v : Value) :
    dropTimestamp v = mapEntries (mapKey "metadata" dropStamp) v := rfl

/-- A document with the timestamp of its creation removed. -/
def withoutTimestamp (v : Value) : Value :=
  mapEntries (mapKey "metadata" (mapEntries
    (List.filter fun entry => !entry.1.isKey "creationTimestamp"))) v

theorem dropStamp_idem (h : v.wellKeyed = true) : dropStamp (dropStamp v) = dropStamp v := by
  rw [dropStamp, dropStamp, mapEntries_mapEntries]
  exact mapEntries_congr fun entries he => swapRemove_idem (wellKeyed_of_entries? h he)

theorem dropTimestamp_idem (h : v.wellKeyed = true) :
    dropTimestamp (dropTimestamp v) = dropTimestamp v := by
  rw [dropTimestamp_eq, dropTimestamp_eq, mapEntries_mapEntries]
  refine mapEntries_congr fun entries he => mapKey_idem fun entry hentry => ?_
  exact dropStamp_idem ((wellKeyed_of_entries? h he).parts entry hentry).2

/-- Nothing but the timestamp is removed, up to the order of the metadata. -/
theorem same_dropTimestamp (h : v.wellKeyed = true) :
    (dropTimestamp v).same (withoutTimestamp v) = true := by
  refine same_mapEntries fun entries he => ?_
  have hentries := wellKeyed_of_entries? h he
  refine Value.same_mapping_map fun entry hentry => ?_
  by_cases hkey : entry.1.isKey "metadata" = true
  · rw [if_pos hkey, if_pos hkey]
    refine ⟨Value.same_refl _, same_mapEntries fun metadata hm => ?_⟩
    have hmetadata := wellKeyed_of_entries? (hentries.parts entry hentry).2 hm
    exact Value.same_mapping_of_perm (swapRemove_perm hmetadata)
  · rw [if_neg hkey, if_neg hkey]
    exact ⟨Value.same_refl _, Value.same_refl _⟩

theorem get?_dropTimestamp (v : Value) (hne : name ≠ "metadata") :
    (dropTimestamp v).get? name = v.get? name := by
  rw [Value.get?, dropTimestamp_eq, entries?_mapEntries, Value.get?]
  cases v.entries? with
  | none => rfl
  | some entries => exact lookup_mapKey_of_ne hne _

theorem timestamp_dropTimestamp (h : v.wellKeyed = true) :
    ((dropTimestamp v).get? "metadata").bind (·.get? "creationTimestamp") = none := by
  have hmetadata : (dropTimestamp v).get? "metadata" = (v.get? "metadata").map dropStamp := by
    rw [Value.get?, dropTimestamp_eq, entries?_mapEntries, Value.get?]
    cases v.entries? with
    | none => rfl
    | some entries => exact lookup_mapKey_self _
  rw [hmetadata]
  cases hget : v.get? "metadata" with
  | none => rfl
  | some metadata =>
    show (dropStamp metadata).get? "creationTimestamp" = none
    rw [Value.get?, dropStamp, entries?_mapEntries]
    cases he : metadata.entries? with
    | none => rfl
    | some entries => exact lookup_swapRemove (wellKeyed_of_entries? (wellKeyed_of_get? h hget) he)

/-! ### Reading back -/

theorem ofValue_eq_untyped_iff {r : Registry} {document : Nat} :
    ofValue v r document = .ok (.untyped w) ↔ w = v ∧ v.entries?.isSome = true ∧
      ∃ apiVersion kind, (v.get? "apiVersion").bind Value.text? = some apiVersion ∧
        (v.get? "kind").bind Value.text? = some kind ∧ r.lookup apiVersion kind = none := by
  unfold ofValue
  by_cases hmapping : v.entries?.isNone = true
  · rw [if_pos hmapping]
    constructor
    · exact fun h => by cases h
    · rintro ⟨-, hsome, -⟩
      rw [Option.isNone_iff_eq_none] at hmapping
      rw [hmapping] at hsome
      cases hsome
  · have hsome : v.entries?.isSome = true := by
      rwa [Option.isNone_iff_eq_none, ← ne_eq, Option.ne_none_iff_isSome] at hmapping
    rw [if_neg hmapping, hsome]
    cases hversion : (v.get? "apiVersion").bind Value.text? with
    | none => simp
    | some apiVersion =>
      cases hkind : (v.get? "kind").bind Value.text? with
      | none => simp
      | some kind =>
        dsimp only
        cases hlookup : r.lookup apiVersion kind with
        | none => simp [hlookup, eq_comm]
        | some k =>
          have hread : ∀ m, read? k v = some m → m ≠ .untyped w := by
            rintro m hm rfl
            obtain ⟨group, type⟩ := k
            cases group <;> cases type <;>
              obtain ⟨o, -, ho⟩ := Option.map_eq_some_iff.1 hm <;> cases ho
          cases hm : read? k v with
          | none => simp [hlookup, hm]
          | some m => simp [hlookup, hm, hread m hm]

theorem ofValue_dropTimestamp {r : Registry} {document document' : Nat}
    (h : ofValue v r document = .ok (.untyped w)) :
    ofValue (dropTimestamp v) r document' = .ok (.untyped (dropTimestamp v)) := by
  obtain ⟨-, hsome, apiVersion, kind, hversion, hkind, hlookup⟩ := ofValue_eq_untyped_iff.1 h
  refine ofValue_eq_untyped_iff.2 ⟨rfl, ?_, apiVersion, kind, ?_, ?_, hlookup⟩
  · rw [dropTimestamp_eq, entries?_mapEntries, Option.isSome_map, hsome]
  · rw [get?_dropTimestamp v (by decide), hversion]
  · rw [get?_dropTimestamp v (by decide), hkind]

theorem isKey_of_mem_dictionaryField {α : Type} {write : α → Value} {d : Text.Dictionary α}
    {field : String} (hne : field ≠ name) :
    ∀ entry ∈ dictionaryField field write d, entry.1.isKey name = false := by
  intro entry he
  unfold dictionaryField at he
  split at he
  · cases he
  · rw [List.mem_singleton.1 he]
    exact beq_eq_false_iff_ne.2 hne

/-- No timestamp is written with the metadata of a resource. -/
theorem timestamp_metadata (m : Metadata) : m.toValue.get? "creationTimestamp" = none := by
  show Value.lookup _ _ = none
  rw [Value.lookup, Option.map_eq_none_iff, List.find?_eq_none]
  intro entry he
  rw [Bool.not_eq_true]
  rcases List.mem_append.1 he with he | he
  · rcases List.mem_append.1 he with he | he
    · rcases List.mem_append.1 he with he | he
      · rw [List.mem_singleton.1 he]
        exact beq_eq_false_iff_ne.2 (by decide)
      · cases hns : m.namespace with
        | none =>
          rw [hns] at he
          cases he
        | some ns =>
          rw [hns] at he
          rw [List.mem_singleton.1 he]
          exact beq_eq_false_iff_ne.2 (by decide)
    · exact isKey_of_mem_dictionaryField (by decide) entry he
  · exact isKey_of_mem_dictionaryField (by decide) entry he

theorem timestamp_toValue {m : Manifest} (h : m.groupKind?.isSome = true) :
    (m.toValue.get? "metadata").bind (·.get? "creationTimestamp") = none := by
  cases m with
  | untyped v => cases h
  | _ => exact timestamp_metadata _

/-- Only documents that are kept as values are converted to such. -/
theorem eq_untyped_of_convert [Regex.Limits] {options : Conversion.Options} {m : Manifest}
    (h : Conversion.convert options m = .ok (.untyped w)) : m = .untyped w := by
  cases m with
  | ingressRouteV2 r =>
    rw [Conversion.convert] at h
    cases hr : Conversion.ingressRoute options r with
    | error cause => rw [hr] at h; cases h
    | ok r' => rw [hr] at h; cases h
  | middlewareV2 r => cases h
  | ingressRouteV3 r => cases h
  | middlewareV3 r => cases h
  | untyped v =>
    cases h
    rfl

/-- What is written of a manifest is read back. It is the same manifest, if its kind is registered, and
else the document with only the timestamp of its creation removed; what is written of it is the same
value. No value that is written has a timestamp of the creation. -/
theorem ofValue_toValue_stable [Regex.Limits] {v : Value} {m₀ m : Manifest} {document : Nat}
    (document' : Nat) (hv : v.wellKeyed = true) (h : ofValue v GroupKind.all document = .ok m₀)
    (hm : m = m₀ ∨ ∃ options, Conversion.convert options m₀ = .ok m) :
    ∃ m', ofValue m.toValue GroupKind.all document' = .ok m' ∧
      m'.toValue = m.toValue ∧
      (m.groupKind?.isSome = true → m' = m) ∧
      (∀ w, m = .untyped w → ∃ w', m' = .untyped w' ∧ w'.same (withoutTimestamp w) = true) ∧
      (m.toValue.get? "metadata").bind (·.get? "creationTimestamp") = none := by
  have hfits : m.Fits := by
    rcases hm with rfl | ⟨options, hconvert⟩
    · exact fits_of_ofValue h
    · exact fits_of_convert (fits_of_ofValue h) hconvert
  cases hkind : m.groupKind? with
  | some k =>
    refine ⟨m, ofValue_toValue hfits hkind document', rfl, fun _ => rfl, fun w hw => ?_,
      timestamp_toValue (by rw [hkind]; rfl)⟩
    rw [hw] at hkind
    cases hkind
  | none =>
    obtain ⟨w, rfl⟩ : ∃ w, m = .untyped w := by
      cases m with
      | untyped w => exact ⟨w, rfl⟩
      | _ => cases hkind
    have hm₀ : m₀ = .untyped w := by
      rcases hm with rfl | ⟨options, hconvert⟩
      · rfl
      · exact eq_untyped_of_convert hconvert
    -- A document that is kept as a value was not converted: it is the value that was read.
    subst hm₀
    obtain rfl := (ofValue_eq_untyped_iff.1 h).1
    refine ⟨.untyped (dropTimestamp w), ofValue_dropTimestamp h,
      dropTimestamp_idem hv, nofun, fun w' hw => ?_, timestamp_dropTimestamp hv⟩
    obtain rfl := Manifest.untyped.inj hw
    exact ⟨_, rfl, same_dropTimestamp hv⟩

/-- A document with a timestamp before other metadata. -/
def exampleService : Value :=
  .mapping [(.text "apiVersion", .text "v1"), (.text "kind", .text "Service"),
    (.text "metadata", .mapping [(.text "creationTimestamp", .null), (.text "name", .text "web"),
      (.text "namespace", .text "apps")])]

/-- The timestamp is removed, and the last of the metadata takes its place. -/
theorem ofValue_toValue_stable_service :
    exampleService.wellKeyed = true ∧
    ofValue exampleService GroupKind.all 0 = .ok (.untyped exampleService) ∧
    (untyped exampleService).toValue = .mapping [(.text "apiVersion", .text "v1"),
      (.text "kind", .text "Service"),
      (.text "metadata", .mapping [(.text "namespace", .text "apps"), (.text "name", .text "web")])] ∧
    ∃ w', ofValue (untyped exampleService).toValue GroupKind.all 0 = .ok (.untyped w') ∧
      w'.same (withoutTimestamp exampleService) = true := by
  have hv : exampleService.wellKeyed = true := by decide
  have hread : ofValue exampleService GroupKind.all 0 = .ok (.untyped exampleService) :=
    ofValue_eq_untyped_iff.2 ⟨rfl, rfl, "v1", "Service", rfl, rfl, by decide⟩
  obtain ⟨m', hback, -, -, huntyped, -⟩ := ofValue_toValue_stable 0 hv hread (.inl rfl)
  obtain ⟨w', rfl, hsame⟩ := huntyped exampleService rfl
  exact ⟨hv, hread, rfl, w', hback, hsame⟩

end Manifest

end TraefikUpgrade.Resource
