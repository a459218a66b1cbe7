/-
# Putting layers together

Layers are put together from the most specific one on, and layers that are added at the end are less
specific. Keys of annotations are collected in the order in which they occur first, each once
(`FirstOccurrences`): adding a key that is known changes nothing, and a new one comes last. Of a switch the
first layer that sets it decides (`DecidedBy`), also if it sets it to false. So less specific layers add
keys at the end and decide what was open, and change nothing else (`ofLayers_append`).

Key definitions: `listedKeys`, `FirstOccurrences`, `DecidedBy`, `FirstDecides`.
Key theorems: `firstOccurrences_addMissing`, `addMissing_eq_append`, `firstDecides_findSome?`,
`ofLayers_append`.
-/
import Mathlib.Data.List.Basic
import Mathlib.Data.List.Induction
import TraefikUpgrade.Config.Layers

namespace TraefikUpgrade.Config

/-! ### Keys of annotations -/

/-- The keys that the layers list, with those that occur again. -/
def listedKeys (layers : List Layer) : List String := layers.flatMap (·.settings.skipAnnotations)

/-- The same keys as in a list, each once, in the order in which they occur there first. -/
structure FirstOccurrences (listed keys : List String) : Prop where
  mem_iff : ∀ key, key ∈ keys ↔ key ∈ listed
  ordered : keys.Pairwise fun key later => listed.idxOf key < listed.idxOf later

variable {listed known : List String}

theorem FirstOccurrences.nodup (h : FirstOccurrences listed known) : known.Nodup :=
  h.ordered.imp fun hlt heq => Nat.ne_of_lt hlt (congrArg listed.idxOf heq)

/-- One more key is listed. -/
theorem FirstOccurrences.concat (h : FirstOccurrences listed known) (key : String) :
    FirstOccurrences (listed ++ [key]) (addMissing known [key]) := by
  have hold : known.Pairwise fun k later =>
      (listed ++ [key]).idxOf k < (listed ++ [key]).idxOf later := by
    refine h.ordered.imp_of_mem fun {k later} hk hlater hlt => ?_
    rwa [List.idxOf_append_of_mem ((h.mem_iff k).1 hk),
      List.idxOf_append_of_mem ((h.mem_iff later).1 hlater)]
  show FirstOccurrences _ (if known.contains key then known else known ++ [key])
  by_cases hkey : key ∈ known
  · rw [if_pos (List.contains_iff_mem.2 hkey)]
    refine ⟨fun k => ?_, hold⟩
    rw [h.mem_iff, List.mem_append, List.mem_singleton]
    exact ⟨.inl, fun hk => hk.elim id fun heq => heq ▸ (h.mem_iff key).1 hkey⟩
  · rw [if_neg (mt List.contains_iff_mem.1 hkey)]
    refine ⟨fun k => ?_, List.pairwise_append.2 ⟨hold, List.pairwise_singleton _ _, ?_⟩⟩
    · rw [List.mem_append, List.mem_append, h.mem_iff]
    · -- A known key is listed before the new one, which is listed for the first time.
      intro k hk later hlater
      rw [List.mem_singleton.1 hlater, List.idxOf_append_of_mem ((h.mem_iff k).1 hk),
        List.idxOf_append_of_notMem (mt (h.mem_iff key).2 hkey)]
      exact Nat.lt_add_right _ (List.idxOf_lt_length_of_mem ((h.mem_iff k).1 hk))

theorem firstOccurrences_addMissing (h : FirstOccurrences listed known) (items : List String) :
    FirstOccurrences (listed ++ items) (addMissing known items) := by
  induction items generalizing listed known with
  | nil => simpa [addMissing] using h
  | cons item items ih =>
    have hrun := ih (h.concat item)
    rwa [List.append_assoc, List.singleton_append] at hrun

theorem firstOccurrences_nil : FirstOccurrences [] [] := ⟨fun _ => Iff.rfl, .nil⟩

theorem mem_addMissing_iff {items : List String} {key : String} :
    key ∈ addMissing known items ↔ key ∈ known ∨ key ∈ items := by
  induction items generalizing known with
  | nil => simp [addMissing]
  | cons item items ih =>
    rw [addMissing, List.foldl_cons, ← addMissing, ih, List.mem_cons]
    by_cases hitem : item ∈ known
    · rw [if_pos (List.contains_iff_mem.2 hitem)]
      grind
    · rw [if_neg (mt List.contains_iff_mem.1 hitem), List.mem_append, List.mem_singleton, or_assoc]

/-- Keys that are known stay in front, and what is new comes in the order in which it would be collected
without them. -/
theorem addMissing_eq_append (known items : List String) : addMissing known items =
    known ++ (addMissing [] items).filter fun key => !known.contains key := by
  induction items using List.reverseRecOn with
  | nil => simp [addMissing]
  | append_singleton items item ih =>
    have hstep : ∀ k, addMissing k (items ++ [item]) =
        if (addMissing k items).contains item then addMissing k items
        else addMissing k items ++ [item] := by
      intro k
      rw [addMissing, List.foldl_append]
      rfl
    rw [hstep, hstep]
    by_cases hitems : item ∈ items
    · have hin : ∀ k, (addMissing k items).contains item = true := fun k =>
        List.contains_iff_mem.2 (mem_addMissing_iff.2 (.inr hitems))
      rw [if_pos (hin _), if_pos (hin _), ih]
    · by_cases hknown : item ∈ known
      · simp [mem_addMissing_iff, hitems, hknown, ih]
      · simp [mem_addMissing_iff, hitems, hknown, ih]

theorem skipAnnotations_ofLayers (layers : List Layer) :
    (Effective.ofLayers layers).skipAnnotations = addMissing [] (listedKeys layers) := by
  rw [addMissing, listedKeys, List.foldl_flatMap]
  rfl

theorem firstOccurrences_ofLayers (layers : List Layer) :
    FirstOccurrences (listedKeys layers) (Effective.ofLayers layers).skipAnnotations := by
  rw [skipAnnotations_ofLayers]
  exact firstOccurrences_addMissing firstOccurrences_nil _

theorem skipAnnotations_append (a b : List Layer) : (Effective.ofLayers (a ++ b)).skipAnnotations =
    (Effective.ofLayers a).skipAnnotations ++ (Effective.ofLayers b).skipAnnotations.filter
      fun key => !(Effective.ofLayers a).skipAnnotations.contains key := by
  rw [skipAnnotations_ofLayers b, ← addMissing_eq_append, skipAnnotations_ofLayers,
    skipAnnotations_ofLayers, listedKeys, List.flatMap_append, addMissing, List.foldl_append]
  rfl

/-! ### Switches -/

/-- The value of a switch is that of the first layer that sets it, or false if none does. -/
def DecidedBy (switch : Settings → Option Bool) (layers : List Layer) (value : Bool) : Prop :=
  (∃ before l after, layers = before ++ l :: after ∧ (∀ l' ∈ before, switch l'.settings = none) ∧
    switch l.settings = some value) ∨
  (∀ l ∈ layers, switch l.settings = none) ∧ value = false

/-- A switch of the settings that count follows that of the layers, and a layer that sets it decides it for
all less specific ones. -/
structure FirstDecides (switch : Settings → Option Bool) (merged : Effective → Bool) : Prop where
  decided : ∀ layers, DecidedBy switch layers (merged (.ofLayers layers))
  kept : ∀ a b, (∃ l ∈ a, switch l.settings ≠ none) →
    merged (.ofLayers (a ++ b)) = merged (.ofLayers a)

theorem decidedBy_findSome? (switch : Settings → Option Bool) (layers : List Layer) :
    DecidedBy switch layers ((layers.findSome? fun l => switch l.settings).getD false) := by
  cases hfind : layers.findSome? fun l => switch l.settings with
  | none => exact .inr ⟨List.findSome?_eq_none_iff.1 hfind, rfl⟩
  | some value =>
    obtain ⟨before, l, after, hlayers, hl, hbefore⟩ := List.findSome?_eq_some_iff.1 hfind
    exact .inl ⟨before, l, after, hlayers, hbefore, hl⟩

theorem firstDecides_findSome? {switch : Settings → Option Bool} {merged : Effective → Bool}
    (h : ∀ layers, merged (.ofLayers layers) =
      (layers.findSome? fun l => switch l.settings).getD false) : FirstDecides switch merged where
  decided layers := h layers ▸ decidedBy_findSome? switch layers
  kept a b hset := by
    rw [h, h, List.findSome?_append]
    cases hfind : a.findSome? fun l => switch l.settings with
    | none =>
      obtain ⟨l, hl, hne⟩ := hset
      exact absurd (List.findSome?_eq_none_iff.1 hfind l hl) hne
    | some value => rfl

/-! ### All settings -/

/-- Layers put together, of which those in `b` are less specific than those in `a`. The files are those of
`a` and then those of `b`. The keys are those that some layer lists, each once; those of `a` come first, as
they are without `b`, and the new ones follow in the order in which `b` lists them first. Each switch has the
value of the first layer that sets it, or else is off, so `b` changes none that is set in `a`. -/
theorem ofLayers_append (a b : List Layer) :
    (Effective.ofLayers (a ++ b)).sources = a.map (·.path) ++ b.map (·.path) ∧
    (Effective.ofLayers (a ++ b)).skipAnnotations.Nodup ∧
    (∀ key, key ∈ (Effective.ofLayers (a ++ b)).skipAnnotations ↔
      ∃ l ∈ a ++ b, key ∈ l.settings.skipAnnotations) ∧
    (∃ new, (Effective.ofLayers (a ++ b)).skipAnnotations =
        (Effective.ofLayers a).skipAnnotations ++ new ∧
      (∀ key, key ∈ new ↔ key ∉ (Effective.ofLayers a).skipAnnotations ∧
        ∃ l ∈ b, key ∈ l.settings.skipAnnotations) ∧
      new.Pairwise fun key later => (listedKeys b).idxOf key < (listedKeys b).idxOf later) ∧
    FirstDecides (·.keepSyntax) (·.keepSyntax) ∧
    FirstDecides (·.skipDeprecated) (·.skipDeprecated) := by
  have hall := firstOccurrences_ofLayers (a ++ b)
  have hb := firstOccurrences_ofLayers b
  refine ⟨List.map_append, hall.nodup, fun key => ?_, ?_,
    firstDecides_findSome? fun _ => rfl, firstDecides_findSome? fun _ => rfl⟩
  · rw [hall.mem_iff, listedKeys, List.mem_flatMap]
  · refine ⟨_, skipAnnotations_append a b, fun key => ?_, hb.ordered.filter _⟩
    rw [List.mem_filter, hb.mem_iff, listedKeys, List.mem_flatMap, and_comm]
    simp

end TraefikUpgrade.Config
