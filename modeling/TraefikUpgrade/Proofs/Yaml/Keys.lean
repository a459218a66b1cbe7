/-
# The keys of mappings

Every value is taken for the same as itself, and a mapping for the same as one with its entries in another
order. No mapping in a value that is read has two keys that are taken for the same (`Value.wellKeyed`).

Key definitions: `Value.wellKeyed`, `Value.WellKeyed`.
Key theorems: `Value.same_refl`, `Value.same_mapping_of_perm`, `wellKeyed_of_readAll`.
-/
import TraefikUpgrade.Proofs.Traversal
import TraefikUpgrade.Yaml.Document

namespace TraefikUpgrade.Yaml

open Decimal (Binary64)

/-! ### Values that are taken for the same -/

theorem Binary64.same_refl (x : Binary64) : x.same x = true := by
  cases x <;> simp [Binary64.same]

namespace Value

theorem sameEntries_iff {entries entries' : List (Value × Value)} :
    sameEntries entries entries' = true ↔
      ∀ entry ∈ entries, ∃ entry' ∈ entries',
        entry.1.same entry'.1 = true ∧ entry.2.same entry'.2 = true := by
  induction entries with
  | nil => simp [sameEntries]
  | cons entry entries ih =>
    obtain ⟨key, value⟩ := entry
    rw [sameEntries, Bool.and_eq_true, ih, List.forall_mem_cons, List.any_eq_true]
    simp only [Bool.and_eq_true]

mutual

theorem same_refl : ∀ v : Value, v.same v = true
  | .null => rfl
  | .bool b => by simp [same]
  | .int n => by simp [same]
  | .float x => Binary64.same_refl x
  | .text s => by simp [same]
  | .sequence items => sameItems_refl items
  | .mapping entries => by
    rw [same, Bool.and_eq_true, beq_iff_eq, sameEntries_iff]
    exact ⟨rfl, fun entry he => ⟨entry, he, same_refl_entries entries entry he⟩⟩
  | .tagged tag content => by simp [same, same_refl content]

theorem sameItems_refl : ∀ items : List Value, sameItems items items = true
  | [] => rfl
  | item :: items => by rw [sameItems, same_refl item, sameItems_refl items]; rfl

theorem same_refl_entries : ∀ entries : List (Value × Value), ∀ entry ∈ entries,
    entry.1.same entry.1 = true ∧ entry.2.same entry.2 = true
  | [] => nofun
  | (key, value) :: entries =>
    List.forall_mem_cons.2 ⟨⟨same_refl key, same_refl value⟩, same_refl_entries entries⟩

end

/-- The order of a mapping's entries does not count. -/
theorem same_mapping_of_perm {entries entries' : List (Value × Value)} (h : entries.Perm entries') :
    (mapping entries).same (mapping entries') = true := by
  rw [same, Bool.and_eq_true, beq_iff_eq, sameEntries_iff]
  exact ⟨h.length_eq, fun entry he =>
    ⟨entry, h.mem_iff.1 he, same_refl entry.1, same_refl entry.2⟩⟩

/-- The entries of a mapping may be replaced by such as are taken for the same. -/
theorem same_mapping_map {f g : Value × Value → Value × Value} {entries : List (Value × Value)}
    (h : ∀ entry ∈ entries,
      (f entry).1.same (g entry).1 = true ∧ (f entry).2.same (g entry).2 = true) :
    (mapping (entries.map f)).same (mapping (entries.map g)) = true := by
  rw [same, Bool.and_eq_true, beq_iff_eq, sameEntries_iff]
  refine ⟨by simp, fun entry' hm' => ?_⟩
  obtain ⟨entry, hm, rfl⟩ := List.mem_map.1 hm'
  exact ⟨g entry, List.mem_map_of_mem hm, h entry hm⟩

/-! ### Values without the same key twice -/

mutual

/-- Whether no mapping in a value has two keys that are taken for the same. -/
def wellKeyed : Value → Bool
  | .sequence items => wellKeyedItems items
  | .mapping entries => wellKeyedEntries entries
  | .tagged _ content => wellKeyed content
  | _ => true

def wellKeyedItems : List Value → Bool
  | [] => true
  | item :: items => wellKeyed item && wellKeyedItems items

def wellKeyedEntries : List (Value × Value) → Bool
  | [] => true
  | (key, value) :: entries =>
    wellKeyed key && wellKeyed value && entries.all (fun entry => !key.same entry.1) &&
      wellKeyedEntries entries

end

theorem wellKeyed_tagged {tag : String} {content : Value} :
    (tagged tag content).wellKeyed = true ↔ content.wellKeyed = true := by
  rw [wellKeyed]

theorem wellKeyedItems_iff {items : List Value} :
    wellKeyedItems items = true ↔ ∀ item ∈ items, item.wellKeyed = true := by
  induction items with
  | nil => simp [wellKeyedItems]
  | cons item items ih => rw [wellKeyedItems, Bool.and_eq_true, ih, List.forall_mem_cons]

/-- The entries of a mapping that may be in a value. -/
structure WellKeyed (entries : List (Value × Value)) : Prop where
  keys : entries.Pairwise fun entry entry' => entry.1.same entry'.1 = false
  parts : ∀ entry ∈ entries, entry.1.wellKeyed = true ∧ entry.2.wellKeyed = true

theorem WellKeyed.concat {entries : List (Value × Value)} {key value : Value} (h : WellKeyed entries)
    (hnew : ∀ entry ∈ entries, entry.1.same key = false) (hkey : key.wellKeyed = true)
    (hvalue : value.wellKeyed = true) : WellKeyed (entries ++ [(key, value)]) where
  keys := by
    rw [List.pairwise_append]
    refine ⟨h.keys, List.pairwise_singleton _ _, fun entry hentry last hlast => ?_⟩
    rw [List.mem_singleton.1 hlast]
    exact hnew entry hentry
  parts entry hentry := by
    rcases List.mem_append.1 hentry with hentry | hentry
    · exact h.parts entry hentry
    · rw [List.mem_singleton.1 hentry]
      exact ⟨hkey, hvalue⟩

theorem wellKeyedEntries_iff {entries : List (Value × Value)} :
    wellKeyedEntries entries = true ↔ WellKeyed entries := by
  induction entries with
  | nil => exact ⟨fun _ => ⟨.nil, nofun⟩, fun _ => rfl⟩
  | cons entry entries ih =>
    obtain ⟨key, value⟩ := entry
    simp only [wellKeyedEntries, Bool.and_eq_true, ih, List.all_eq_true, Bool.not_eq_true']
    constructor
    · rintro ⟨⟨hparts, hkey⟩, h⟩
      exact ⟨List.pairwise_cons.2 ⟨hkey, h.keys⟩, List.forall_mem_cons.2 ⟨hparts, h.parts⟩⟩
    · rintro ⟨hkeys, hparts⟩
      rw [List.pairwise_cons] at hkeys
      rw [List.forall_mem_cons] at hparts
      exact ⟨⟨hparts.1, hkeys.1⟩, hkeys.2, hparts.2⟩

end Value

/-! ### Values that are read -/

theorem wellKeyed_withTag {tag : Option String} {v : Value} (h : v.wellKeyed = true) :
    (withTag tag v).wellKeyed = true := by
  unfold withTag
  split
  · rw [Value.wellKeyed, h]
  · exact h

theorem wellKeyed_resolvePlain {s : String} {v : Value} (h : resolvePlain s = some v) :
    v.wellKeyed = true := by
  unfold resolvePlain at h
  repeat' split at h
  all_goals cases h <;> rfl

theorem wellKeyed_resolveTagged {tag s : String} {v : Value} (h : resolveTagged tag s = some v) :
    v.wellKeyed = true := by
  unfold resolveTagged at h
  split at h
  · obtain ⟨b, -, rfl⟩ := Option.map_eq_some_iff.1 h
    rfl
  split at h
  · split at h
    · cases h
      rfl
    · cases h
  split at h
  · obtain ⟨x, -, rfl⟩ := Option.map_eq_some_iff.1 h
    rfl
  split at h
  · split at h
    · cases h
      rfl
    · cases h
  · cases h
    rfl

theorem wellKeyed_scalarValue {tag : Option String} {plain : Bool} {s : String} {v : Value}
    (h : scalarValue tag plain s = some v) : v.wellKeyed = true := by
  unfold scalarValue at h
  split at h
  · exact wellKeyed_resolveTagged h
  · split at h
    · exact wellKeyed_resolvePlain h
    · cases h
      rfl

/-- A key that is there already ends the reading of a mapping. -/
theorem wellKeyed_of_load {a : Anchors} {depth left left' : Nat} {node : Linked} {v : Value}
    (h : load a depth left node = some (v, left')) : v.wellKeyed = true := by
  induction depth generalizing left node v left' with
  | zero =>
    unfold load at h
    split at h
    · cases h
    · split at h
      · cases h
      · obtain ⟨v, hv, h⟩ := Option.map_eq_some_iff.1 h
        cases h
        exact wellKeyed_withTag (wellKeyed_scalarValue hv)
      · cases h
      · cases h
      · contradiction
      · contradiction
  | succ depth ih =>
    unfold load at h
    split at h
    · cases h
    · split at h
      · cases h
      · obtain ⟨v, hv, h⟩ := Option.map_eq_some_iff.1 h
        cases h
        exact wellKeyed_withTag (wellKeyed_scalarValue hv)
      · contradiction
      · contradiction
      · next depth' hdepth _ =>
        obtain rfl : depth = depth' := Nat.succ.inj hdepth
        obtain ⟨⟨items, left⟩, hitems, h⟩ := Option.bind_eq_some_iff.1 h
        cases h
        refine wellKeyed_withTag (Value.wellKeyedItems_iff.2 fun item hitem => ?_)
        refine of_foldlM (P := fun state : List Value × Nat =>
          ∀ item ∈ state.1, item.wellKeyed = true) ?_ (by simp) hitems item
            (List.mem_reverse.1 hitem)
        rintro ⟨items, left⟩ node state hstate hstep
        obtain ⟨⟨item, left⟩, hitem, hstep⟩ := Option.bind_eq_some_iff.1 hstep
        cases hstep
        exact List.forall_mem_cons.2 ⟨ih hitem, hstate⟩
      · next depth' hdepth _ =>
        obtain rfl : depth = depth' := Nat.succ.inj hdepth
        obtain ⟨⟨entries, left⟩, hentries, h⟩ := Option.bind_eq_some_iff.1 h
        cases h
        refine wellKeyed_withTag (Value.wellKeyedEntries_iff.2 ?_)
        -- The entries are collected in reverse: a new key is compared with all that come before it.
        refine of_foldlM (P := fun state : List (Value × Value) × Nat =>
          Value.WellKeyed state.1.reverse) ?_ ⟨.nil, by simp⟩ hentries
        rintro ⟨entries, left⟩ node state hstate hstep
        obtain ⟨⟨key, left⟩, hkey, hstep⟩ := Option.bind_eq_some_iff.1 hstep
        dsimp only at hstep
        split at hstep
        · cases hstep
        · next hnew =>
          obtain ⟨⟨value, left⟩, hvalue, hstep⟩ := Option.bind_eq_some_iff.1 hstep
          cases hstep
          rw [Bool.not_eq_true, hasKey, List.any_eq_false] at hnew
          rw [List.reverse_cons]
          exact hstate.concat (fun entry hentry => by simpa using hnew entry (List.mem_reverse.1 hentry))
            (ih hkey) (ih hvalue)

theorem wellKeyed_of_readAll {text : String} {v : Value} (h : some v ∈ readAll text) :
    v.wellKeyed = true := by
  unfold readAll at h
  dsimp only at h
  have hroots : some v ∈ (documents (scan text.toList).1).1.map value? := by
    rcases List.mem_append.1 h with h | h
    · exact h
    · split at h
      · cases h
      · cases List.mem_singleton.1 h
  obtain ⟨root, -, hroot⟩ := List.mem_map.1 hroots
  obtain ⟨⟨node, anchors⟩, -, hroot⟩ := Option.bind_eq_some_iff.1 hroot
  obtain ⟨⟨v, left⟩, hload, hroot⟩ := Option.bind_eq_some_iff.1 hroot
  cases hroot
  exact wellKeyed_of_load hload

end TraefikUpgrade.Yaml
