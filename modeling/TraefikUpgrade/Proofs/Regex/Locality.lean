/-
# Readers of the front of a text

What a reader takes from the front of a text does not depend on what comes after, as long as it leaves
something of the text (`Local`). Readers are put together by `bind` and `comp`, which keep this.

Key definitions: `Shrinks`, `Local`.
Key theorems: `Local.bind`, `Local.comp`, `Local.of_skip`.
-/
import TraefikUpgrade.Regex.Mode
import TraefikUpgrade.Text.Cut

namespace TraefikUpgrade.Regex

variable {α β : Type}

/-- What a reader leaves is no longer than what it is given. -/
def Shrinks (f : List Char → Option (α × List Char)) : Prop :=
  ∀ ⦃cs : List Char⦄ ⦃a : α⦄ ⦃rest : List Char⦄, f cs = some (a, rest) → rest.length ≤ cs.length

/-- What comes after `cs` does not matter to a reader that leaves something of `cs`. -/
def Local (f : List Char → Option (α × List Char)) (cs : List Char) : Prop :=
  ∀ ⦃after : List Char⦄ ⦃a : α⦄ ⦃left : List Char⦄, after.length < left.length →
    (f (cs ++ after) = some (a, left) ↔ ∃ rest, left = rest ++ after ∧ f cs = some (a, rest))

/-! ### How readers are put together -/

variable {f : List Char → Option (α × List Char)} {g : α → List Char → Option (β × List Char)}
  {cs : List Char} {mode : Mode}

namespace Shrinks

theorem bind (hf : Shrinks f) (hg : ∀ a, Shrinks (g a)) :
    Shrinks fun cs => (f cs).bind fun p => g p.1 p.2 := by
  intro cs b rest h
  obtain ⟨⟨a, mid⟩, hm, hb⟩ := Option.bind_eq_some_iff.1 h
  exact Nat.le_trans (hg a hb) (hf hm)

theorem map (hf : Shrinks f) (φ : α → β) : Shrinks fun cs => (f cs).map fun p => (φ p.1, p.2) := by
  intro cs b rest h
  obtain ⟨p, hp, he⟩ := Option.map_eq_some_iff.1 h
  cases he
  exact hf hp

theorem ofOption (o : Option α) : Shrinks fun cs => o.map (·, cs) := by
  intro cs a rest h
  obtain ⟨b, -, he⟩ := Option.map_eq_some_iff.1 h
  cases he
  exact Nat.le_refl _

theorem afterSkip (hf : Shrinks f) : Shrinks fun cs => f (mode.skip cs) :=
  fun cs _ _ h => Nat.le_trans (hf h) (mode.length_skip_le cs)

theorem afterDropWhile (p : Char → Bool) (hf : Shrinks f) : Shrinks fun cs => f (cs.dropWhile p) :=
  fun _ _ _ h => Nat.le_trans (hf h) (List.dropWhile_sublist p).length_le

end Shrinks

namespace Local

/-- A reader that takes all of the text, whatever comes after it. -/
theorem of_le (h : ∀ after a left, f (cs ++ after) = some (a, left) → left.length ≤ after.length) :
    Local f cs := by
  intro after a left hlt
  constructor
  · intro hf
    have := h after a left hf
    omega
  · rintro ⟨rest, rfl, hf⟩
    have hrest := h [] a rest (by rw [List.append_nil, hf])
    simp only [List.length_append, List.length_nil] at hlt hrest
    omega

theorem nil (hf : Shrinks f) : Local f [] := of_le fun _ _ _ h => hf h

theorem pure (a : α) (cs : List Char) : Local (fun cs => some (a, cs)) cs := by
  intro after b left _
  simp only [Option.some.injEq, Prod.mk.injEq]
  constructor
  · rintro ⟨rfl, rfl⟩
    exact ⟨cs, rfl, rfl, rfl⟩
  · rintro ⟨rest, rfl, rfl, rfl⟩
    exact ⟨rfl, rfl⟩

theorem none (cs : List Char) : Local (fun _ => (.none : Option (α × List Char))) cs := by
  intro after a left _
  simp

theorem bind (hf : Local f cs) (hs : ∀ a, Shrinks (g a))
    (hg : ∀ a mid, f cs = some (a, mid) → Local (g a) mid) :
    Local (fun cs => (f cs).bind fun p => g p.1 p.2) cs := by
  intro after b left hlt
  constructor
  · intro h
    obtain ⟨⟨a, mid'⟩, hm, hb⟩ := Option.bind_eq_some_iff.1 h
    obtain ⟨mid, rfl, hf'⟩ := (hf (Nat.lt_of_lt_of_le hlt (hs a hb))).1 hm
    obtain ⟨rest, rfl, hr⟩ := (hg a mid hf' hlt).1 hb
    exact ⟨rest, rfl, Option.bind_eq_some_iff.2 ⟨(a, mid), hf', hr⟩⟩
  · rintro ⟨rest, rfl, h⟩
    obtain ⟨⟨a, mid⟩, hm, hb⟩ := Option.bind_eq_some_iff.1 h
    have hle : rest.length ≤ mid.length := hs a hb
    have hmid : after.length < (mid ++ after).length := by
      simp only [List.length_append] at hlt ⊢
      omega
    exact Option.bind_eq_some_iff.2
      ⟨(a, mid ++ after), (hf hmid).2 ⟨mid, rfl, hm⟩, (hg a mid hm hlt).2 ⟨rest, rfl, hb⟩⟩

theorem map (hf : Local f cs) (φ : α → β) :
    Local (fun cs => (f cs).map fun p => (φ p.1, p.2)) cs := by
  have hb : Local (fun cs => (f cs).bind fun p => some (φ p.1, p.2)) cs :=
    hf.bind (g := fun a rest => some (φ a, rest)) (fun a cs b rest h => by cases h; exact Nat.le_refl _)
      fun a mid _ => pure (φ a) mid
  simpa only [Option.map_eq_bind, Function.comp_def] using hb

/-- A reader that takes a first character. -/
theorem cons {k : List Char → Option (α × List Char)} {c : Char}
    (h : ∀ cs, f (c :: cs) = k cs) (hf : Local k cs) : Local f (c :: cs) := by
  intro after a left hlt
  rw [List.cons_append, h, h]
  exact hf hlt

theorem congr {k : List Char → Option (α × List Char)} (h : ∀ cs, f cs = k cs) (hf : Local k cs) :
    Local f cs := by
  intro after a left hlt
  rw [h, h]
  exact hf hlt

/-- A reader that does what another does on texts with the first character. -/
theorem congr_cons {k : List Char → Option (α × List Char)} {c : Char}
    (h : ∀ cs, f (c :: cs) = k (c :: cs)) (hf : Local k (c :: cs)) : Local f (c :: cs) := by
  intro after a left hlt
  rw [List.cons_append, h, h]
  exact hf hlt

/-- A reader that takes nothing. -/
theorem ofOption (o : Option α) (cs : List Char) : Local (fun cs => o.map (·, cs)) cs := by
  cases o with
  | none => exact none cs
  | some a => exact pure a cs

theorem ite {k : List Char → Option (α × List Char)} {p : Prop} [Decidable p]
    (h : p → Local f cs) (h' : ¬ p → Local k cs) :
    Local (fun cs => if p then f cs else k cs) cs := by
  by_cases hp : p
  · simpa only [if_pos hp] using h hp
  · simpa only [if_neg hp] using h' hp

/-- A reader of what is left when the front has been passed over. -/
theorem comp {skip : List Char → List Char}
    (hskip : ∀ cs after, skip cs ≠ [] → skip (cs ++ after) = skip cs ++ after)
    (hnil : ∀ cs after, skip cs = [] → (skip (cs ++ after)).length ≤ after.length)
    (hs : Shrinks f) (hf : Local f (skip cs)) : Local (fun cs => f (skip cs)) cs := by
  by_cases he : skip cs = []
  · exact of_le fun after a left h => Nat.le_trans (hs h) (hnil cs after he)
  · intro after a left hlt
    dsimp only
    rw [hskip cs after he]
    exact hf hlt

end Local

/-! ### Passing over what means nothing -/

theorem skipBlanks_append {inComment : Bool} {cs : List Char} (h : skipBlanks inComment cs ≠ [])
    (after : List Char) : skipBlanks inComment (cs ++ after) = skipBlanks inComment cs ++ after := by
  fun_induction skipBlanks inComment cs with
  | case1 => exact absurd rfl h
  | case2 c cs ih => rw [List.cons_append, skipBlanks, if_pos rfl, ih h]
  | case3 inComment c cs hc hw ih =>
    rw [List.cons_append, skipBlanks, if_neg hc, if_pos hw, ih h]
  | case4 inComment cs hc hw ih =>
    rw [List.cons_append, skipBlanks, if_neg hc, if_neg hw, if_pos rfl, ih h]
  | case5 inComment c cs hc hw hd =>
    rw [List.cons_append, skipBlanks, if_neg hc, if_neg hw, if_neg hd]

theorem length_skipBlanks_append_le {inComment : Bool} {cs : List Char}
    (h : skipBlanks inComment cs = []) (after : List Char) :
    (skipBlanks inComment (cs ++ after)).length ≤ after.length := by
  fun_induction skipBlanks inComment cs with
  | case1 => exact length_skipBlanks_le _ after
  | case2 c cs ih =>
    rw [List.cons_append, skipBlanks, if_pos rfl]
    exact ih h
  | case3 inComment c cs hc hw ih =>
    rw [List.cons_append, skipBlanks, if_neg hc, if_pos hw]
    exact ih h
  | case4 inComment cs hc hw ih =>
    rw [List.cons_append, skipBlanks, if_neg hc, if_neg hw, if_pos rfl]
    exact ih h
  | case5 => cases h

theorem Mode.skip_append {cs : List Char} (h : mode.skip cs ≠ []) (after : List Char) :
    mode.skip (cs ++ after) = mode.skip cs ++ after := by
  unfold Mode.skip at h ⊢
  by_cases hm : mode.ignoreBlanks = true
  · rw [if_pos hm] at h
    rw [if_pos hm, if_pos hm]
    exact skipBlanks_append h after
  · rw [if_neg hm, if_neg hm]

theorem Mode.length_skip_append_le {cs : List Char} (h : mode.skip cs = []) (after : List Char) :
    (mode.skip (cs ++ after)).length ≤ after.length := by
  unfold Mode.skip at h ⊢
  by_cases hm : mode.ignoreBlanks = true
  · rw [if_pos hm] at h ⊢
    exact length_skipBlanks_append_le h after
  · rw [if_neg hm] at h ⊢
    rw [h]
    exact Nat.le_refl _

theorem skipBlanks_eq_cons {inComment : Bool} {cs rest : List Char} {c : Char}
    (h : skipBlanks inComment cs = c :: rest) : Unicode.isWhiteSpace c = false ∧ c ≠ '#' := by
  induction cs generalizing inComment with
  | nil => cases h
  | cons d cs ih =>
    unfold skipBlanks at h
    repeat' split at h
    · exact ih h
    · exact ih h
    · exact ih h
    · next hw hc =>
      cases h
      exact ⟨by simpa using hw, hc⟩

/-- What is no blank and begins no comment is not skipped. -/
theorem Mode.skip_of_mark {c : Char} (hw : Unicode.isWhiteSpace c = false) (hc : c ≠ '#')
    (cs : List Char) : mode.skip (c :: cs) = c :: cs := by
  unfold Mode.skip
  split
  · simp [skipBlanks, hw, hc]
  · rfl

/-- What reading is at after blanks is no blank. -/
theorem Mode.skip_cons {cs rest : List Char} {c : Char} (h : mode.skip cs = c :: rest)
    (ds : List Char) : mode.skip (c :: ds) = c :: ds := by
  by_cases hm : mode.ignoreBlanks = true
  · rw [Mode.skip, if_pos hm] at h
    obtain ⟨hw, hc⟩ := skipBlanks_eq_cons h
    exact mode.skip_of_mark hw hc ds
  · rw [Mode.skip, if_neg hm]

theorem Mode.skip_nil : mode.skip [] = [] := by
  unfold Mode.skip
  split <;> rfl

@[simp] theorem Mode.skip_skip (cs : List Char) : mode.skip (mode.skip cs) = mode.skip cs := by
  cases h : mode.skip cs with
  | nil => exact mode.skip_nil
  | cons c rest => exact mode.skip_cons h rest

namespace Local

theorem afterSkip (hs : Shrinks f) (hf : Local f (mode.skip cs)) :
    Local (fun cs => f (mode.skip cs)) cs :=
  comp (fun _ after h => mode.skip_append h after) (fun _ after h => mode.length_skip_append_le h after)
    hs hf

/-- A reader that passes over blanks itself is local where it is after them. -/
theorem of_skip (h : ∀ cs, f (mode.skip cs) = f cs) (hs : Shrinks f)
    (hf : ∀ c rest, mode.skip cs = c :: rest → Local f (c :: rest)) : Local f cs := by
  have hlocal : Local f (mode.skip cs) := by
    cases hcs : mode.skip cs with
    | nil => exact nil hs
    | cons c rest => exact hf c rest hcs
  simpa only [h] using afterSkip hs hlocal

theorem afterDropWhile (p : Char → Bool) (hs : Shrinks f) (hf : Local f (cs.dropWhile p)) :
    Local (fun cs => f (cs.dropWhile p)) cs := by
  refine comp (fun cs after h => ?_) (fun cs after h => ?_) hs hf
  · rw [List.dropWhile_append, if_neg (by simpa [List.isEmpty_iff] using h)]
  · rw [List.dropWhile_append, if_pos (by simpa [List.isEmpty_iff] using h)]
    exact (List.dropWhile_sublist p).length_le

theorem cutAt (sep : Char) : ∀ cs : List Char, Local (Text.cutAt sep) cs
  | [] => nil fun _ _ _ h => Nat.le_of_lt (Text.length_lt_of_cutAt h)
  | c :: cs => by
    refine cons (fun ds => rfl) (ite (fun _ => pure [] cs) fun _ => ?_)
    exact (cutAt sep cs).map (c :: ·)

end Local

end TraefikUpgrade.Regex
