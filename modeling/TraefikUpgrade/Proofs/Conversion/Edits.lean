/-
# What the conversion changes in a middleware

A converted middleware is written like the one it comes from, after a few changes of the entries: options
that were removed are taken out of their blocks, the list of addresses gets its new name, a strategy that
says nothing and a block in which nothing is left are taken out (`editSpec`). A record keeps its form under
such changes: each of its fields is changed by itself, and the entries that are kept as they are written
have none of the names that are changed.

Key definitions: `removeIf`, `rename`, `removeOptions`, `renameList`, `editSpec`.
Key theorems: `get?_editSpec`, `filterMap_record`, `mapKey_record`, `removeIf_record`, `rename_record`,
`toValue_middlewareSpec`, `convert_middleware_edits`.
-/
import Mathlib.Data.List.Basic
import TraefikUpgrade.Proofs.Resource.Canonical

namespace TraefikUpgrade.Conversion

open Resource Text Yaml
open Resource.Manifest (mapEntries mapKey)

/-! ### Changes of entries -/

/-- Whether a key is one of the given texts. -/
def isKeyOf (names : List String) : Value → Bool
  | .text s => names.contains s
  | _ => false

/-- Takes out the entries with the given names whose values pass a test. -/
def removeIf (names : List String) (test : Value → Bool) (entries : Entries) : Entries :=
  entries.filter fun entry => !(isKeyOf names entry.1 && test entry.2)

/-- Takes out the entries with the given names. -/
def remove (names : List String) : Entries → Entries := removeIf names fun _ => true

/-- Gives the entry with a name another one. -/
def rename (old new : String) (entries : Entries) : Entries :=
  entries.map fun entry => if entry.1.isKey old then (.text new, entry.2) else entry

/-- Whether a strategy as it is written has no depth, or that of zero, and no excluded addresses. -/
def saysNothing (strategy : Value) : Bool :=
  (strategy.get? "depth").all (·.same (.int 0)) &&
    (strategy.get? "excludedIPs").all (·.same (.sequence []))

/-- Whether no entry is left in a block. -/
def isEmptyBlock (block : Value) : Bool := block.same (.mapping [])

/-- Takes the options that were removed out of their blocks. -/
def removeOptions (entries : Entries) : Entries :=
  mapKey "contentType" (mapEntries (remove ["autoDetect"])) <|
  mapKey "stripPrefix" (mapEntries (remove ["forceSlash"])) <|
  mapKey "headers" (mapEntries (remove
    ["sslRedirect", "sslTemporaryRedirect", "sslHost", "sslForceHost", "featurePolicy"])) entries

/-- Gives the list of addresses its new name, unless there is a list with that name. Then the one with
the old name is taken out. -/
def renameList (entries : Entries) : Entries :=
  if (Value.lookup "ipAllowList" entries).isSome then remove ["ipWhiteList"] entries
  else rename "ipWhiteList" "ipAllowList" entries

/-- Takes a strategy that says nothing out of the list of addresses. -/
def removeStrategy : Entries → Entries :=
  mapKey "ipAllowList" (mapEntries (removeIf ["ipStrategy"] saysNothing))

/-- Takes out the blocks in which no entry is left. -/
def removeEmptyBlocks : Entries → Entries :=
  removeIf ["headers", "stripPrefix", "contentType"] isEmptyBlock

/-- All changes of the specification of a middleware, in their order. -/
def editSpec : Value → Value :=
  mapEntries fun entries => removeEmptyBlocks (removeStrategy (renameList (removeOptions entries)))

/-! ### What is left alone -/

section
variable {names : List String} {name : String} {entries : Entries}

theorem lookup_removeIf (test : Value → Bool) (h : name ∉ names) :
    Value.lookup name (removeIf names test entries) = Value.lookup name entries := by
  have hkept : ∀ entry : Value × Value,
      (!(isKeyOf names entry.1 && test entry.2) && entry.1.isKey name) = entry.1.isKey name := by
    rintro ⟨key, value⟩
    cases key with
    | text s =>
      by_cases hs : s = name
      · simp [isKeyOf, hs, h]
      · simp [Value.isKey, hs]
    | _ => simp [Value.isKey]
  rw [Value.lookup, removeIf, List.find?_filter]
  simp only [Bool.decide_and, Bool.decide_eq_true, hkept]
  rfl

theorem lookup_rename {old new : String} (hold : name ≠ old) (hnew : name ≠ new) :
    Value.lookup name (rename old new entries) = Value.lookup name entries := by
  induction entries with
  | nil => rfl
  | cons entry entries ih =>
    have hnew' : (Value.text new).isKey name = false := beq_eq_false_iff_ne.2 hnew.symm
    by_cases hkey : entry.1.isKey old = true
    · simpa [Value.lookup, rename, hkey, hnew', Manifest.isKey_of_ne hold hkey] using ih
    · by_cases hname : entry.1.isKey name = true
      · simp [Value.lookup, rename, hkey, hname]
      · simpa [Value.lookup, rename, hkey, hname] using ih

/-- A key that is no block of a middleware has its value after the changes, too. -/
theorem get?_editSpec (v : Value) (h : name ∉ V2.MiddlewareSpec.known) :
    (editSpec v).get? name = v.get? name := by
  simp only [V2.MiddlewareSpec.known, List.mem_cons, List.not_mem_nil, or_false, not_or] at h
  obtain ⟨hheaders, hstripPrefix, hcontentType, hwhite, hallow⟩ := h
  have hlist : ∀ entries, Value.lookup name (renameList entries) = Value.lookup name entries := by
    intro entries
    unfold renameList
    split
    · exact lookup_removeIf _ (by simp [hwhite])
    · exact lookup_rename hwhite hallow
  have hall : ∀ entries, Value.lookup name (removeEmptyBlocks (removeStrategy (renameList
      (removeOptions entries)))) = Value.lookup name entries := by
    intro entries
    rw [removeEmptyBlocks, lookup_removeIf _ (by simp [hheaders, hstripPrefix, hcontentType]),
      removeStrategy, Manifest.lookup_mapKey_of_ne hallow, hlist, removeOptions,
      Manifest.lookup_mapKey_of_ne hcontentType, Manifest.lookup_mapKey_of_ne hstripPrefix,
      Manifest.lookup_mapKey_of_ne hheaders]
  rw [Value.get?, editSpec, Manifest.entries?_mapEntries, Value.get?]
  cases v.entries? with
  | none => rfl
  | some entries => exact hall entries

end

/-! ### Records -/

section
variable {slots : List Slot} {others : Dictionary Value} {names : List String} {name : String}

/-- A change that goes through the entries one by one changes the fields of a record one by one. -/
theorem filterMap_record {g : Value × Value → Option (Value × Value)} {change : Slot → Slot}
    (hchange : ∀ slot : Slot,
      (textKeys (slotFields [slot])).filterMap g = textKeys (slotFields [change slot]))
    (hothers : ∀ e ∈ others.entries, g (.text e.1, e.2) = some (.text e.1, e.2)) :
    (textKeys (recordFields slots others)).filterMap g =
      textKeys (recordFields (slots.map change) others) := by
  have hkept : (textKeys others.entries).filterMap g = textKeys others.entries := by
    refine (List.filterMap_congr fun entry hentry => ?_).trans List.filterMap_some
    obtain ⟨e, he, rfl⟩ := List.mem_map.1 hentry
    exact hothers e he
  have hslots : ∀ slots : List Slot, (textKeys (slotFields slots)).filterMap g =
      textKeys (slotFields (slots.map change)) := by
    intro slots
    induction slots with
    | nil => rfl
    | cons slot slots ih =>
      rw [List.map_cons, ← List.singleton_append, ← slotFields_append, ← textKeys_append,
        List.filterMap_append, hchange, ih, textKeys_append, slotFields_append, List.singleton_append]
  rw [recordFields, recordFields, ← textKeys_append, List.filterMap_append, hkept, hslots,
    textKeys_append]

/-- A change of the entries with a name changes the field with the name. -/
theorem map_record {change : Value × Value → Value × Value} (new : String) (f : Value → Value)
    (hname : ∀ v, change (.text name, v) = (.text new, f v))
    (hrest : ∀ key v, key ≠ name → change (.text key, v) = (.text key, v))
    (hothers : ∀ e ∈ others.entries, e.1 ≠ name) :
    (textKeys (recordFields slots others)).map change = textKeys (recordFields
      (slots.map fun slot => if slot.1 = name then (new, slot.2.map f) else slot) others) := by
  rw [← List.filterMap_eq_map]
  refine filterMap_record (fun slot => ?_) fun e he => congrArg some (hrest e.1 e.2 (hothers e he))
  obtain ⟨key, value⟩ := slot
  by_cases hkey : key = name
  · cases value <;> simp [hkey, slotFields, textKeys, hname]
  · cases value <;> simp [hkey, slotFields, textKeys, hrest]

theorem mapKey_record (f : Value → Value) (hothers : ∀ e ∈ others.entries, e.1 ≠ name) :
    mapKey name f (textKeys (recordFields slots others)) = textKeys (recordFields
      (slots.map fun slot => if slot.1 = name then (name, slot.2.map f) else slot) others) :=
  map_record name f (by simp [Value.isKey]) (fun key v hkey => by simp [Value.isKey, hkey]) hothers

theorem rename_record {old new : String} (hothers : ∀ e ∈ others.entries, e.1 ≠ old) :
    rename old new (textKeys (recordFields slots others)) = textKeys (recordFields
      (slots.map fun slot => if slot.1 = old then (new, slot.2) else slot) others) := by
  have hrename : rename old new (textKeys (recordFields slots others)) = textKeys (recordFields
      (slots.map fun slot => if slot.1 = old then (new, slot.2.map id) else slot) others) :=
    map_record new id (by simp [Value.isKey]) (fun key v hkey => by simp [Value.isKey, hkey]) hothers
  simpa only [Option.map_id, id_eq] using hrename

theorem removeIf_record (test : Value → Bool) (hothers : ∀ e ∈ others.entries, e.1 ∉ names) :
    removeIf names test (textKeys (recordFields slots others)) = textKeys (recordFields
      (slots.map fun slot => if slot.1 ∈ names then (slot.1, slot.2.filter (!test ·)) else slot)
      others) := by
  rw [removeIf, ← List.filterMap_eq_filter]
  refine filterMap_record (fun slot => ?_) fun e he => ?_
  · obtain ⟨key, value⟩ := slot
    cases value with
    | none => by_cases hkey : key ∈ names <;> simp [hkey, slotFields, textKeys]
    | some v =>
      by_cases hkey : key ∈ names <;> cases htest : test v <;>
        simp [hkey, htest, slotFields, textKeys, isKeyOf, Option.filter]
  · simp [isKeyOf, hothers e he]

/-- A field is found under its name. -/
theorem lookup_record (h : Distinct slots others) {o : Option Value} (i : Nat)
    (hi : slots[i]? = some (name, o)) :
    Value.lookup name (textKeys (recordFields slots others)) = o := by
  have hfind := find?_recordFields h i hi
  have hlookup : Value.lookup name (textKeys (recordFields slots others)) =
      ((recordFields slots others).filter (·.1 == name)).head?.map Prod.snd := by
    rw [Value.lookup, textKeys, List.find?_map, Option.map_map, List.head?_filter]
    rfl
  rw [hlookup]
  unfold Fields.find? at hfind
  split at hfind
  · next hnone => rw [hnone, ← Option.some.inj hfind]; rfl
  · next entry hone => rw [hone, ← Option.some.inj hfind]; rfl
  · cases hfind

theorem get?_record (h : Distinct slots others) {o : Option Value} (i : Nat)
    (hi : slots[i]? = some (name, o)) : (record slots others).get? name = o :=
  lookup_record h i hi

end

/-! ### Blocks -/

/-- Of headers what is left are the options that version 3 has too. -/
theorem remove_headers {h : V2.Headers} (hl : Leftover V2.Headers.known h.settings) :
    mapEntries (remove V2.Headers.known) h.toValue = (V3.Settings.mk h.settings).toValue := by
  rw [V2.Headers.toValue_eq, V3.Settings.toValue_eq, record, record, mapEntries, remove,
    removeIf_record _ fun e he => (hl e he).1]
  simp [V2.Headers.slots, recordFields, slotFields]

theorem remove_stripPrefix (s : V2.StripPrefix) :
    mapEntries (remove ["forceSlash"]) s.toValue = (V3.StripPrefix.mk s.prefixes).toValue := by
  rw [V2.StripPrefix.toValue_eq, V3.StripPrefix.toValue_eq, record, record, mapEntries, remove,
    removeIf_record _ fun _ he => absurd he List.not_mem_nil]
  simp [V2.StripPrefix.slots, V3.StripPrefix.slots, recordFields, slotFields]

theorem remove_contentType {c : V2.ContentType} (hl : Leftover V2.ContentType.known c.settings) :
    mapEntries (remove V2.ContentType.known) c.toValue = (V3.Settings.mk c.settings).toValue := by
  rw [V2.ContentType.toValue_eq, V3.Settings.toValue_eq, record, record, mapEntries, remove,
    removeIf_record _ fun e he => (hl e he).1]
  simp [V2.ContentType.slots, recordFields, slotFields]

theorem saysNothing_toValue (s : IpStrategy) : saysNothing s.toValue = s.isUnset := by
  obtain ⟨depth, excludedIPs⟩ := s
  cases depth <;> cases excludedIPs <;>
    simp [saysNothing, IpStrategy.toValue, IpStrategy.isUnset, optionField, listField, field,
      Value.get?, Value.entries?, Value.untagged, Value.lookup, Value.isKey, Value.same,
      Value.sameItems]

theorem removeStrategy_allowList (l : V2.IpWhiteList) :
    mapEntries (removeIf ["ipStrategy"] saysNothing) l.toValue = (allowList l).toValue := by
  have hstrategy : (l.ipStrategy.map IpStrategy.toValue).filter (!saysNothing ·) =
      (l.ipStrategy.filter (!·.isUnset)).map IpStrategy.toValue := by
    cases l.ipStrategy with
    | none => rfl
    | some s => cases hs : s.isUnset <;> simp [Option.filter, saysNothing_toValue, hs]
  rw [V2.IpWhiteList.toValue_eq, V3.IpAllowList.toValue_eq, record, record, mapEntries,
    removeIf_record _ fun _ he => absurd he List.not_mem_nil]
  simp [V2.IpWhiteList.slots, V3.IpAllowList.slots, allowList, recordFields, slotFields, hstrategy]

theorem isEmptyBlock_mapping (entries : Entries) :
    isEmptyBlock (.mapping entries) = entries.isEmpty := by
  cases entries <;> simp [isEmptyBlock, Value.same, Value.sameEntries]

/-- Options of which none is left are not written. -/
theorem settings?_eq (d : Dictionary Value) : settings? d =
    if isEmptyBlock (V3.Settings.mk d).toValue then none else some ⟨d⟩ := by
  rw [settings?, V3.Settings.toValue, isEmptyBlock_mapping, dictionaryEntries, List.isEmpty_map]
  rfl

theorem stripPrefix?_eq (prefixes : List String) : stripPrefix? prefixes =
    if isEmptyBlock (V3.StripPrefix.mk prefixes).toValue then none else some ⟨prefixes⟩ := by
  rw [stripPrefix?, V3.StripPrefix.toValue, isEmptyBlock_mapping]
  cases prefixes <;> rfl

/-- A block that is only kept if it is not empty is written, or else taken out. -/
theorem map_bind_block {α β : Type} {write : β → Value} {block : α → β} {keep : α → Option β}
    (hkeep : ∀ x, keep x = if isEmptyBlock (write (block x)) then none else some (block x))
    (o : Option α) : (o.bind keep).map write =
      (o.map fun x => write (block x)).filter (!isEmptyBlock ·) := by
  cases o with
  | none => rfl
  | some x =>
    rw [Option.bind_some, hkeep]
    cases hempty : isEmptyBlock (write (block x)) <;> simp [Option.filter, hempty]

/-! ### Specifications -/

section
variable {s : V2.MiddlewareSpec} {others : Dictionary Value}

theorem ne_of_mem_known {known : List String} {name : String} (h : Leftover known others)
    (hname : name ∈ known) : ∀ e ∈ others.entries, e.1 ≠ name :=
  fun e he heq => (h e he).1 (heq ▸ hname)

theorem distinct_spec (h : s.Fits) : Distinct s.slots s.other :=
  .of_leftover (by simp [V2.MiddlewareSpec.slots]) h.other

theorem distinct_middlewareSpec (h : s.Fits) : Distinct (middlewareSpec s).slots s.other :=
  .of_leftover (by simp [V3.MiddlewareSpec.slots]) (h.other.mono (by simp [V3.MiddlewareSpec.slots]))

/-- The entries of a specification without the options that were removed. -/
theorem removeOptions_spec (h : s.Fits) :
    removeOptions (textKeys (recordFields s.slots s.other)) = textKeys (recordFields
      [("headers", s.headers.map fun x => (V3.Settings.mk x.settings).toValue),
        ("stripPrefix", s.stripPrefix.map fun x => (V3.StripPrefix.mk x.prefixes).toValue),
        ("contentType", s.contentType.map fun x => (V3.Settings.mk x.settings).toValue),
        ("ipWhiteList", s.ipWhiteList.map V2.IpWhiteList.toValue),
        ("ipAllowList", s.ipAllowList.map V2.IpWhiteList.toValue)] s.other) := by
  rw [removeOptions, mapKey_record _ (ne_of_mem_known h.other (by simp)),
    mapKey_record _ (ne_of_mem_known h.other (by simp)),
    mapKey_record _ (ne_of_mem_known h.other (by simp))]
  have hheaders := Option.map_congr fun x hx => remove_headers (h.headers x hx)
  have hstripPrefix := Option.map_congr fun x (_ : s.stripPrefix = some x) => remove_stripPrefix x
  have hcontentType := Option.map_congr fun x hx => remove_contentType (h.contentType x hx)
  rw [← hheaders, ← hstripPrefix, ← hcontentType]
  simp [V2.MiddlewareSpec.slots, Function.comp_def]

/-- The list of addresses with the new name counts, if there is one. -/
theorem renameList_record {headers stripPrefix contentType white allow : Option Value}
    (h : Leftover V2.MiddlewareSpec.known others) :
    renameList (textKeys (recordFields [("headers", headers), ("stripPrefix", stripPrefix),
      ("contentType", contentType), ("ipWhiteList", white), ("ipAllowList", allow)] others)) =
    textKeys (recordFields [("headers", headers), ("stripPrefix", stripPrefix),
      ("contentType", contentType), ("ipAllowList", allow.or white)] others) := by
  have hothers : ∀ e ∈ others.entries, e.1 ≠ "ipWhiteList" := ne_of_mem_known h (by simp)
  have hdistinct : Distinct [("headers", headers), ("stripPrefix", stripPrefix),
      ("contentType", contentType), ("ipWhiteList", white), ("ipAllowList", allow)] others :=
    .of_leftover (by simp) h
  rw [renameList, lookup_record hdistinct 4 rfl]
  cases allow with
  | some v =>
    rw [Option.isSome_some, if_pos rfl, remove, removeIf_record _ fun e he => by simpa using hothers e he]
    simp [recordFields, slotFields]
  | none =>
    rw [Option.isSome_none, if_neg Bool.false_ne_true, rename_record hothers]
    simp [recordFields, slotFields]

/-- What is written of a converted specification is what the changes make of what is written of the
specification. -/
theorem toValue_middlewareSpec (h : s.Fits) : (middlewareSpec s).toValue = editSpec s.toValue := by
  have hblocks : Leftover ["headers", "stripPrefix", "contentType"] s.other := h.other.mono (by simp)
  have hlist : ((s.ipAllowList.map V2.IpWhiteList.toValue).or
      (s.ipWhiteList.map V2.IpWhiteList.toValue)).map (mapEntries (removeIf ["ipStrategy"] saysNothing)) =
      ((s.ipAllowList.or s.ipWhiteList).map allowList).map V3.IpAllowList.toValue := by
    rw [← Option.map_or, Option.map_map, Option.map_map]
    exact Option.map_congr fun l _ => removeStrategy_allowList l
  rw [V2.MiddlewareSpec.toValue_eq, V3.MiddlewareSpec.toValue_eq, record, record, editSpec, mapEntries,
    removeOptions_spec h, renameList_record h.other, removeStrategy,
    mapKey_record _ (ne_of_mem_known h.other (by simp)), removeEmptyBlocks,
    removeIf_record _ fun e he => (hblocks e he).1]
  simp only [V3.MiddlewareSpec.slots, middlewareSpec, List.map_cons, List.map_nil, String.reduceEq,
    reduceIte, List.mem_cons, List.not_mem_nil, or_false, or_true, or_self]
  rw [map_bind_block fun x => settings?_eq x.settings,
    map_bind_block fun x => stripPrefix?_eq x.prefixes,
    map_bind_block fun x => settings?_eq x.settings, hlist]

end

/-- The conversion of a middleware that was decoded makes the changes of `editSpec` in its specification
and no others. A key that is no block of a middleware has the same value as before. -/
theorem convert_middleware_edits [Regex.Limits] {document : Value} {r : Registry} {number : Nat}
    {m : V2.Middleware}
    (h : Manifest.ofValue document r number = .ok (.middlewareV2 m)) (options : Options) :
    ∃ m', convert options (.middlewareV2 m) = .ok (.middlewareV3 m') ∧
      m'.spec.toValue = editSpec m.spec.toValue ∧
      ∀ name ∉ V2.MiddlewareSpec.known, m'.spec.toValue.get? name = m.spec.toValue.get? name := by
  have hspec := toValue_middlewareSpec (Manifest.fits_of_ofValue h).spec
  refine ⟨middleware options.skipAnnotations m, rfl, hspec, fun name hname => ?_⟩
  exact (congrArg (Value.get? · name) hspec).trans (get?_editSpec _ hname)

/-- A document with removed options in a block that has others and in one that has none, with a list of
addresses under its old name, and with a block that is kept as it is written. -/
def exampleDocument : Value :=
  .mapping [(.text "apiVersion", .text "traefik.containo.us/v1alpha1"), (.text "kind", .text "Middleware"),
    (.text "spec", .mapping [
      (.text "headers", .mapping [(.text "sslRedirect", .bool true), (.text "stsSeconds", .int 10)]),
      (.text "stripPrefix", .mapping [(.text "forceSlash", .bool true)]),
      (.text "ipWhiteList", .mapping [(.text "sourceRange", .sequence [.text "10.0.0.0/8"]),
        (.text "ipStrategy", .mapping [(.text "depth", .int 0)])]),
      (.text "retry", .mapping [(.text "attempts", .int 3)])])]

theorem convert_middleware_edits_four_blocks :
    ∃ m, Manifest.ofValue exampleDocument GroupKind.all 0 = .ok (.middlewareV2 m) ∧
      ∃ m', convert {} (.middlewareV2 m) = .ok (.middlewareV3 m') ∧
        m'.spec.toValue = .mapping [
          (.text "headers", .mapping [(.text "stsSeconds", .int 10)]),
          (.text "ipAllowList", .mapping [(.text "sourceRange", .sequence [.text "10.0.0.0/8"])]),
          (.text "retry", .mapping [(.text "attempts", .int 3)])] := by
  have hread : ∃ m, Manifest.ofValue exampleDocument GroupKind.all 0 = .ok (.middlewareV2 m) := ⟨_, rfl⟩
  obtain ⟨m, h⟩ := hread
  obtain ⟨m', hm', heq, -⟩ := convert_middleware_edits h {}
  refine ⟨m, h, m', hm', heq.trans ?_⟩
  cases h
  rfl

end TraefikUpgrade.Conversion
