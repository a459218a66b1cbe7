/-
# Options that are lost

The options without a counterpart are named in a list, and the conversion drops options from the blocks of
a middleware. Both are about the same options: those that the list finds set in a middleware are the
options of its blocks that are on, or a text that is not empty, and that are no more in the blocks of the
converted middleware (`lostOptions_eq`). Whatever else an option can be, none is lost: the options that are
not named keep their values, and a block is only left out if it has none of them.

Key definitions: `lostOptions`, `Tells`, `losesOption`.
Key theorems: `lost_record`, `lost_settings`, `lostOptions_eq`, `losesOption_middleware`.
-/
import TraefikUpgrade.Conversion.RemovedOption
import TraefikUpgrade.Proofs.Conversion.Edits

namespace TraefikUpgrade.Conversion

open Resource Text Yaml

/-! ### Losses -/

/-- The entries of a block, if it is there. -/
def entriesOf (block : Option Value) : Entries := (block.bind Value.entries?).getD []

/-- The entries of a block in the specification of a resource. -/
def blockEntries (document : Value) (block : String) : Entries :=
  entriesOf ((document.get? "spec").bind (·.get? block))

/-- The name of an option whose value passes a test, if it is not the name of an entry. -/
def lost? (test : Value → Bool) (after : Entries) : Value × Value → Option String
  | (.text name, v) => if test v && (Value.lookup name after).isNone then some name else none
  | _ => none

/-- The options of a middleware that pass a test and that another one does not have, each with its
block. -/
def lostOptions (test : Value → Bool) (before after : Value) : List (String × String) :=
  ["headers", "stripPrefix", "contentType"].flatMap fun block =>
    ((blockEntries before block).filterMap (lost? test (blockEntries after block))).map (block, ·)

/-- Whether an option is on, or a text that is not empty. -/
def isOnOrFilled : Value → Bool
  | .bool b => b
  | .text s => !s.isEmpty
  | _ => false

/-- Whether an option is something else than off and the empty text. -/
def saysSomething : Value → Bool
  | .bool b => b
  | .text s => !s.isEmpty
  | _ => true

/-- A test that switches pass if they are on, and texts if they are not empty. -/
structure Tells (test : Value → Bool) : Prop where
  bool : ∀ b, test (.bool b) = b
  text : ∀ s, test (.text s) = !s.isEmpty

theorem tells_isOnOrFilled : Tells isOnOrFilled := ⟨fun _ => rfl, fun _ => rfl⟩

theorem tells_saysSomething : Tells saysSomething := ⟨fun _ => rfl, fun _ => rfl⟩

/-! ### Records -/

section
variable {test : Value → Bool} {kept removed slots : List Slot} {others : Dictionary Value}

theorem isNone_lookup_textKeys {name : String} {f : Fields} :
    (Value.lookup name (textKeys f)).isNone = true ↔ ∀ field ∈ f, field.1 ≠ name := by
  simp [Value.lookup, textKeys, Value.isKey]

theorem name_of_mem_slotFields {field : String × Value} (h : field ∈ slotFields slots) :
    field.1 ∈ slots.map Prod.fst := by
  obtain ⟨slot, hslot, hfield⟩ := List.mem_flatMap.1 h
  obtain ⟨v, -, rfl⟩ := List.mem_map.1 hfield
  exact List.mem_map_of_mem hslot

/-- Nothing is lost of fields that are there after. -/
theorem lost_present {after : Entries} {f : Fields}
    (h : ∀ field ∈ f, (Value.lookup field.1 after).isNone = false) :
    (textKeys f).filterMap (lost? test after) = [] := by
  rw [List.filterMap_eq_nil_iff]
  intro entry he
  obtain ⟨field, hfield, rfl⟩ := List.mem_map.1 he
  simp [lost?, h field hfield]

/-- Of fields that are not there after, those are lost that pass the test. -/
theorem lost_absent {after : Entries}
    (h : ∀ slot ∈ slots, (Value.lookup slot.1 after).isNone = true) :
    (textKeys (slotFields slots)).filterMap (lost? test after) =
      slots.filterMap fun slot => if slot.2.any test then some slot.1 else none := by
  induction slots with
  | nil => rfl
  | cons slot slots ih =>
    rw [List.forall_mem_cons] at h
    obtain ⟨hfirst, hrest⟩ := h
    obtain ⟨name, value⟩ := slot
    have hone : (textKeys (slotFields [(name, value)])).filterMap (lost? test after) =
        if value.any test then [name] else [] := by
      cases value with
      | none => rfl
      | some v => cases hv : test v <;> simp [slotFields, textKeys, lost?, hfirst, hv]
    rw [← List.singleton_append, ← slotFields_append, ← textKeys_append, List.filterMap_append,
      hone, ih hrest, List.filterMap_append]
    cases hv : value.any test <;> simp [hv]

/-- Of a record that some fields are taken out of, those of them are lost that pass the test. -/
theorem lost_record (h : Distinct (kept ++ removed) others) :
    (textKeys (recordFields (kept ++ removed) others)).filterMap
      (lost? test (textKeys (recordFields kept others))) =
      removed.filterMap fun slot => if slot.2.any test then some slot.1 else none := by
  have hpresent : ∀ field ∈ recordFields kept others,
      (Value.lookup field.1 (textKeys (recordFields kept others))).isNone = false := by
    intro field hfield
    rw [← Bool.not_eq_true, isNone_lookup_textKeys]
    exact fun hall => hall field hfield rfl
  have habsent : ∀ slot ∈ removed,
      (Value.lookup slot.1 (textKeys (recordFields kept others))).isNone = true := by
    intro slot hslot
    have hname : slot.1 ∈ removed.map Prod.fst := List.mem_map_of_mem hslot
    rw [isNone_lookup_textKeys]
    intro field hfield heq
    rcases List.mem_append.1 hfield with hfield | hfield
    · have hnodup := h.nodup
      rw [List.map_append, List.nodup_append] at hnodup
      exact hnodup.2.2 _ (name_of_mem_slotFields hfield) _ hname heq
    · refine h.others field hfield ?_
      rw [heq, List.map_append]
      exact List.mem_append_right _ hname
  generalize hafter : textKeys (recordFields kept others) = after at hpresent habsent ⊢
  rw [recordFields, ← slotFields_append, ← textKeys_append, ← textKeys_append, List.filterMap_append,
    List.filterMap_append, lost_absent habsent,
    lost_present fun field hfield => hpresent field (List.mem_append_left _ hfield),
    lost_present fun field hfield => hpresent field (List.mem_append_right _ hfield),
    List.nil_append, List.append_nil]

end

/-! ### Blocks -/

section
variable {test : Value → Bool} {block : String} {s : V2.MiddlewareSpec}

theorem any_switch (ht : Tells test) (switch : Option Bool) :
    (switch.map Value.bool).any test = RemovedOption.isOn switch := by
  cases switch with
  | none => rfl
  | some b => exact ht.bool b

theorem any_text (ht : Tells test) (text : Option String) :
    (text.map Value.text).any test = RemovedOption.isFilled text := by
  cases text with
  | none => rfl
  | some s => exact ht.text s

/-- A field is that of an option of a block, and passes the test if the option is set. -/
def IsOptionOf (s : V2.MiddlewareSpec) (test : Value → Bool) (block : String) (slot : Slot)
    (o : RemovedOption) : Prop :=
  slot.1 = o.name ∧ block = o.block ∧ slot.2.any test = o.isConfigured s

theorem lost_options {slots : List Slot} {os : List RemovedOption}
    (h : List.Forall₂ (IsOptionOf s test block) slots os) :
    (slots.filterMap fun slot => if slot.2.any test then some slot.1 else none).map (block, ·) =
      (os.filter (·.isConfigured s)).map fun o => (o.block, o.name) := by
  induction h with
  | nil => rfl
  | @cons slot o _ _ ho _ ih =>
    obtain ⟨hname, hblock, hset⟩ := ho
    cases hconfigured : o.isConfigured s with
    | true => simp [hset, hconfigured, hname, hblock, ← ih]
    | false => simp [hset, hconfigured, ih]

theorem entriesOf_settings? (d : Dictionary Value) :
    entriesOf ((settings? d).map V3.Settings.toValue) = textKeys (recordFields [] d) := by
  cases hd : d.isEmpty with
  | true =>
    have hnil : d.entries = [] := List.isEmpty_iff.1 hd
    simp [settings?, hd, entriesOf, recordFields, slotFields, textKeys, hnil]
  | false => simp [settings?, hd, entriesOf, V3.Settings.toValue_eq, record, Value.entries?, Value.untagged]

/-- Of a block of which only the settings stay, those of its own options are lost that pass the test. -/
theorem lost_settings {slots : List Slot} {d : Dictionary Value} (h : Distinct slots d) :
    (entriesOf (some (record slots d))).filterMap
      (lost? test (entriesOf ((settings? d).map V3.Settings.toValue))) =
      slots.filterMap fun slot => if slot.2.any test then some slot.1 else none := by
  have hkept : Distinct ([] ++ slots) d := h
  rw [entriesOf_settings?]
  exact lost_record hkept

theorem lost_headers (hs : ∀ h ∈ s.headers, Leftover V2.Headers.known h.settings) (ht : Tells test) :
    ((entriesOf (s.headers.map V2.Headers.toValue)).filterMap
      (lost? test (entriesOf ((middlewareSpec s).headers.map V3.Settings.toValue)))).map
        ("headers", ·) =
      (([.sslRedirect, .sslTemporaryRedirect, .sslHost, .sslForceHost, .featurePolicy] :
        List RemovedOption).filter (·.isConfigured s)).map fun o => (o.block, o.name) := by
  cases hh : s.headers with
  | none => simp [entriesOf, RemovedOption.isConfigured, hh]
  | some h =>
    have hd : Distinct h.slots h.settings := .of_leftover (by simp [V2.Headers.slots]) (hs h hh)
    have hafter : (middlewareSpec s).headers = settings? h.settings := by rw [middlewareSpec, hh]; rfl
    rw [Option.map_some, V2.Headers.toValue_eq, hafter, lost_settings hd]
    refine lost_options (.cons ⟨rfl, rfl, ?_⟩ (.cons ⟨rfl, rfl, ?_⟩ (.cons ⟨rfl, rfl, ?_⟩
      (.cons ⟨rfl, rfl, ?_⟩ (.cons ⟨rfl, rfl, ?_⟩ .nil)))))
    all_goals simp [RemovedOption.isConfigured, hh, any_switch ht, any_text ht]

theorem lost_stripPrefix (ht : Tells test) :
    ((entriesOf (s.stripPrefix.map V2.StripPrefix.toValue)).filterMap
      (lost? test (entriesOf ((middlewareSpec s).stripPrefix.map V3.StripPrefix.toValue)))).map
        ("stripPrefix", ·) =
      (([.forceSlash] : List RemovedOption).filter (·.isConfigured s)).map fun o => (o.block, o.name) := by
  cases hp : s.stripPrefix with
  | none => simp [entriesOf, RemovedOption.isConfigured, hp]
  | some p =>
    have hd : Distinct ((V3.StripPrefix.mk p.prefixes).slots ++ [("forceSlash", p.forceSlash.map .bool)])
        .empty := .of_nodup (by simp [V3.StripPrefix.slots])
    have hbefore : entriesOf (some p.toValue) = textKeys (recordFields
        ((V3.StripPrefix.mk p.prefixes).slots ++ [("forceSlash", p.forceSlash.map .bool)]) .empty) := by
      rw [V2.StripPrefix.toValue_eq]
      rfl
    have hafter : entriesOf ((middlewareSpec s).stripPrefix.map V3.StripPrefix.toValue) =
        textKeys (recordFields (V3.StripPrefix.mk p.prefixes).slots .empty) := by
      rw [middlewareSpec, hp]
      show entriesOf ((stripPrefix? p.prefixes).map V3.StripPrefix.toValue) = _
      cases hprefixes : p.prefixes with
      | nil => rfl
      | cons x xs => rfl
    rw [Option.map_some, hbefore, hafter, lost_record hd]
    refine lost_options (.cons ⟨rfl, rfl, ?_⟩ .nil)
    simp [RemovedOption.isConfigured, hp, any_switch ht]

theorem lost_contentType (hs : ∀ c ∈ s.contentType, Leftover V2.ContentType.known c.settings)
    (ht : Tells test) :
    ((entriesOf (s.contentType.map V2.ContentType.toValue)).filterMap
      (lost? test (entriesOf ((middlewareSpec s).contentType.map V3.Settings.toValue)))).map
        ("contentType", ·) =
      (([.autoDetect] : List RemovedOption).filter (·.isConfigured s)).map fun o => (o.block, o.name) := by
  cases hc : s.contentType with
  | none => simp [entriesOf, RemovedOption.isConfigured, hc]
  | some c =>
    have hd : Distinct c.slots c.settings := .of_leftover (by simp [V2.ContentType.slots]) (hs c hc)
    have hafter : (middlewareSpec s).contentType = settings? c.settings := by rw [middlewareSpec, hc]; rfl
    rw [Option.map_some, V2.ContentType.toValue_eq, hafter, lost_settings hd]
    refine lost_options (.cons ⟨rfl, rfl, ?_⟩ .nil)
    simp [RemovedOption.isConfigured, hc, any_switch ht]

end

/-! ### Middlewares -/

/-- The options that the conversion loses, of those that are set, are those that the list names and finds
set. -/
theorem lostOptions_eq {test : Value → Bool} {m : V2.Middleware} (h : m.spec.Fits) (ht : Tells test)
    (skip : List String) :
    lostOptions test (Manifest.middlewareV2 m).toValue
      (Manifest.middlewareV3 (middleware skip m)).toValue =
      (removedOptions m.spec).map fun o => (o.block, o.name) := by
  have hbefore : ∀ block, blockEntries (Manifest.middlewareV2 m).toValue block =
      entriesOf ((record m.spec.slots m.spec.other).get? block) := by
    intro block
    rw [← V2.MiddlewareSpec.toValue_eq]
    rfl
  have hafter : ∀ block, blockEntries (Manifest.middlewareV3 (middleware skip m)).toValue block =
      entriesOf ((record (middlewareSpec m.spec).slots m.spec.other).get? block) := by
    intro block
    exact congrArg (fun v : Value => entriesOf (v.get? block)) (V3.MiddlewareSpec.toValue_eq _)
  have hall : RemovedOption.all =
      [.sslRedirect, .sslTemporaryRedirect, .sslHost, .sslForceHost, .featurePolicy] ++
        ([.forceSlash] ++ [.autoDetect]) := rfl
  rw [removedOptions, hall, List.filter_append, List.filter_append, List.map_append, List.map_append,
    ← lost_headers h.headers ht, ← lost_stripPrefix ht, ← lost_contentType h.contentType ht]
  simp only [lostOptions, List.flatMap_cons, List.flatMap_nil, List.append_nil, hbefore, hafter]
  rw [get?_record (distinct_spec h) 0 rfl, get?_record (distinct_spec h) 1 rfl,
    get?_record (distinct_spec h) 2 rfl, get?_record (distinct_middlewareSpec h) 0 rfl,
    get?_record (distinct_middlewareSpec h) 1 rfl, get?_record (distinct_middlewareSpec h) 2 rfl]

theorem hasRemovedOptions_iff (s : V2.MiddlewareSpec) :
    hasRemovedOptions s = true ↔ removedOptions s ≠ [] := by
  simp [hasRemovedOptions, removedOptions]

/-- Whether a middleware of version 2 loses an option that is neither off nor the empty text. -/
def losesOption [Regex.Limits] (options : Options) (m : Manifest) : Bool :=
  match m, convert options m with
  | .middlewareV2 _, .ok m' => !(lostOptions saysSomething m.toValue m'.toValue).isEmpty
  | _, _ => false

/-- A middleware that was read loses such an option if and only if it sets a removed one. -/
theorem losesOption_middleware [Regex.Limits] {m : V2.Middleware} (h : m.spec.Fits) (options : Options) :
    losesOption options (.middlewareV2 m) = hasRemovedOptions m.spec := by
  have hlost := lostOptions_eq h tells_saysSomething options.skipAnnotations
  show (!(lostOptions saysSomething _ (Manifest.middlewareV3 (middleware _ m)).toValue).isEmpty) = _
  rw [hlost, List.isEmpty_map, Bool.eq_iff_iff, hasRemovedOptions_iff]
  simp

end TraefikUpgrade.Conversion
