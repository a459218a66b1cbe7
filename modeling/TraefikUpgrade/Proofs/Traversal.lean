/-
# Traversals that may fail

What follows a function that may fail is only done if it does not. It may be applied to the elements of a
list, in their order, until it fails.

Key theorems: `bind_eq_ok`, `exists_error_iff`, `mapM_eq_ok_iff`, `mapM_eq_error_iff`, `mem_of_mapM`,
`map_of_mapM`, `pairwise_of_mapM`, `exists_mapM_iff`, `forM_eq_ok_iff`, `forM_eq_error_iff`,
`mapM_congr`, `of_foldlM`.
-/
import Mathlib.Data.List.Forall2

namespace TraefikUpgrade

variable {α β ε : Type}

theorem bind_eq_ok {x : Except ε α} {f : α → Except ε β} {b : β} (h : x >>= f = .ok b) :
    ∃ a, x = .ok a ∧ f a = .ok b := by
  cases x with
  | error e => cases h
  | ok a => exact ⟨a, rfl, h⟩

/-- A function fails together with what follows it, if that does not fail of its own. -/
theorem bind_eq_error_iff {x : Except ε α} {f : α → Except ε β} {e : ε} (hf : ∀ a, ∃ b, f a = .ok b) :
    x >>= f = .error e ↔ x = .error e := by
  cases x with
  | error e' => simp [bind, Except.bind]
  | ok a =>
    obtain ⟨b, hb⟩ := hf a
    simp [bind, Except.bind, hb]

theorem exists_error_iff {x : Except ε α} : (∃ e, x = .error e) ↔ ¬ ∃ a, x = .ok a := by
  cases x with
  | error e => exact ⟨fun _ ⟨a, h⟩ => (nomatch h), fun _ => ⟨e, rfl⟩⟩
  | ok a => exact ⟨fun ⟨e, h⟩ => (nomatch h), fun h => absurd ⟨a, rfl⟩ h⟩

theorem mapM_eq_map {f : α → Except ε β} {γ : Type} {g : α → Except ε γ} {h : γ → β}
    (hf : ∀ a, f a = (g a).map h) : ∀ (l : List α), l.mapM f = (l.mapM g).map (List.map h)
  | [] => rfl
  | a :: l => by
    rw [List.mapM_cons, List.mapM_cons, hf a, mapM_eq_map hf l]
    cases g a with
    | error e => rfl
    | ok c => cases l.mapM g <;> rfl

/-- A function that fails for no element gives a result for each, in their order. -/
theorem mapM_eq_ok_iff {f : α → Except ε β} {l : List α} {bs : List β} :
    l.mapM f = .ok bs ↔ List.Forall₂ (fun a b => f a = .ok b) l bs := by
  induction l generalizing bs with
  | nil => simp [pure, Except.pure, eq_comm]
  | cons a l ih =>
    rw [List.mapM_cons, List.forall₂_cons_left_iff]
    constructor
    · intro h
      obtain ⟨b, hb, h⟩ := bind_eq_ok h
      obtain ⟨bs', hbs', h⟩ := bind_eq_ok h
      cases h
      exact ⟨b, bs', hb, ih.1 hbs', rfl⟩
    · rintro ⟨b, bs', hb, hbs', rfl⟩
      rw [hb, ih.2 hbs']
      rfl

/-- A function that fails for an element fails as for the first such one. -/
theorem mapM_eq_error_iff {f : α → Except ε β} {l : List α} {e : ε} :
    l.mapM f = .error e ↔ ∃ before a after, l = before ++ a :: after ∧
      (∀ a' ∈ before, ∃ b, f a' = .ok b) ∧ f a = .error e := by
  induction l with
  | nil => simp [pure, Except.pure]
  | cons a l ih =>
    rw [List.mapM_cons]
    cases ha : f a with
    | error e' =>
      constructor
      · intro h
        cases h
        exact ⟨[], a, l, rfl, nofun, ha⟩
      · rintro ⟨_ | ⟨a', before⟩, a₁, after, hl, hbefore, hfails⟩
        · cases hl
          rw [ha] at hfails
          cases hfails
          rfl
        · cases hl
          obtain ⟨b, hb⟩ := hbefore a (List.mem_cons_self ..)
          rw [ha] at hb
          cases hb
    | ok b =>
      have hrest : (l.mapM f >>= fun bs => pure (b :: bs)) = .error e ↔ l.mapM f = .error e :=
        bind_eq_error_iff fun bs => ⟨b :: bs, rfl⟩
      show (l.mapM f >>= fun bs => pure (b :: bs)) = .error e ↔ _
      rw [hrest, ih]
      constructor
      · rintro ⟨before, a₁, after, rfl, hbefore, hfails⟩
        exact ⟨a :: before, a₁, after, rfl, List.forall_mem_cons.2 ⟨⟨b, ha⟩, hbefore⟩, hfails⟩
      · rintro ⟨_ | ⟨a', before⟩, a₁, after, hl, hbefore, hfails⟩
        · cases hl
          rw [ha] at hfails
          cases hfails
        · cases hl
          exact ⟨before, a₁, after, rfl, (List.forall_mem_cons.1 hbefore).2, hfails⟩

/-- The results of a function are those of the elements, one for each. -/
theorem mem_of_mapM {f : α → Except ε β} : ∀ {l : List α} {bs : List β}, l.mapM f = .ok bs →
    (∀ b ∈ bs, ∃ a ∈ l, f a = .ok b) ∧ (∀ a ∈ l, ∃ b ∈ bs, f a = .ok b) ∧ (bs = [] → l = [])
  | [], bs, h => by cases h; simp
  | a :: l, bs, h => by
    rw [List.mapM_cons] at h
    obtain ⟨b, ha, h⟩ := bind_eq_ok h
    obtain ⟨bs', hl, h⟩ := bind_eq_ok h
    cases h
    obtain ⟨h1, h2, -⟩ := mem_of_mapM hl
    refine ⟨?_, ?_, by simp⟩
    · intro b' hb'
      rcases List.mem_cons.1 hb' with rfl | hb'
      · exact ⟨a, List.mem_cons_self .., ha⟩
      · obtain ⟨a', ha', he⟩ := h1 b' hb'
        exact ⟨a', List.mem_cons_of_mem _ ha', he⟩
    · intro a' ha'
      rcases List.mem_cons.1 ha' with rfl | ha'
      · exact ⟨b, List.mem_cons_self .., ha⟩
      · obtain ⟨b', hb', he⟩ := h2 a' ha'
        exact ⟨b', List.mem_cons_of_mem _ hb', he⟩

/-- Results from which their elements can be told are those of the elements in their order. -/
theorem map_of_mapM {f : α → Except ε β} {g : β → α} : ∀ {l : List α} {bs : List β},
    l.mapM f = .ok bs → (∀ a ∈ l, ∀ b, f a = .ok b → g b = a) → bs.map g = l
  | [], bs, h, _ => by
    cases h
    rfl
  | a :: l, bs, h, hg => by
    rw [List.mapM_cons] at h
    obtain ⟨b, ha, h⟩ := bind_eq_ok h
    obtain ⟨bs', hbs, h⟩ := bind_eq_ok h
    cases h
    rw [List.forall_mem_cons] at hg
    rw [List.map_cons, hg.1 b ha, map_of_mapM hbs hg.2]

/-- Results stand in the order of their elements. -/
theorem pairwise_of_mapM {f : α → Except ε β} {R : α → α → Prop} {S : β → β → Prop}
    (hf : ∀ a a' b b', R a a' → f a = .ok b → f a' = .ok b' → S b b') :
    ∀ {l : List α} {bs : List β}, l.mapM f = .ok bs → l.Pairwise R → bs.Pairwise S
  | [], bs, h, _ => by
    cases h
    exact .nil
  | a :: l, bs, h, hl => by
    rw [List.mapM_cons] at h
    obtain ⟨b, ha, h⟩ := bind_eq_ok h
    obtain ⟨bs', hbs, h⟩ := bind_eq_ok h
    cases h
    rw [List.pairwise_cons] at hl
    refine .cons (fun b' hb' => ?_) (pairwise_of_mapM hf hbs hl.2)
    obtain ⟨a', ha', hb'⟩ := (mem_of_mapM hbs).1 b' hb'
    exact hf a a' b b' (hl.1 a' ha') ha hb'

/-- A function fails if and only if it does for one of the elements. -/
theorem exists_error_of_mapM_iff {f : α → Except ε β} {l : List α} :
    (∃ e, l.mapM f = .error e) ↔ ∃ a ∈ l, ∃ e, f a = .error e := by
  constructor
  · rintro ⟨e, h⟩
    obtain ⟨before, a, after, rfl, -, ha⟩ := mapM_eq_error_iff.1 h
    exact ⟨a, List.mem_append_right _ (List.mem_cons_self ..), e, ha⟩
  · rintro ⟨a, hmem, e, ha⟩
    cases h : l.mapM f with
    | error e' => exact ⟨e', rfl⟩
    | ok bs =>
      obtain ⟨b, -, hb⟩ := (mem_of_mapM h).2.1 a hmem
      rw [ha] at hb
      cases hb

/-- A function succeeds if and only if it does for each of the elements. -/
theorem exists_mapM_iff {f : α → Except ε β} {l : List α} :
    (∃ bs, l.mapM f = .ok bs) ↔ ∀ a ∈ l, ∃ b, f a = .ok b := by
  rw [← not_iff_not, ← exists_error_iff, exists_error_of_mapM_iff]
  simp only [exists_error_iff, not_forall, exists_prop]

theorem forM_eq_ok_iff {f : α → Except ε Unit} : ∀ {l : List α},
    l.forM f = .ok () ↔ ∀ a ∈ l, f a = .ok ()
  | [] => ⟨fun _ _ h => absurd h List.not_mem_nil, fun _ => rfl⟩
  | a :: l => by
    show (f a >>= fun _ => l.forM f) = .ok () ↔ _
    rw [List.forall_mem_cons]
    cases ha : f a with
    | error e => exact ⟨(nomatch ·), fun h => nomatch h.1⟩
    | ok u => exact ⟨fun h => ⟨rfl, forM_eq_ok_iff.1 h⟩, fun h => forM_eq_ok_iff.2 h.2⟩

/-- The first failure is the one that counts. -/
theorem forM_eq_error_iff {f : α → Except ε Unit} {e : ε} : ∀ {l : List α},
    l.forM f = .error e ↔ ∃ before a after, l = before ++ a :: after ∧
      (∀ a' ∈ before, f a' = .ok ()) ∧ f a = .error e
  | [] => ⟨(nomatch ·), fun ⟨before, a, after, h, _⟩ => by simp at h⟩
  | a :: l => by
    show (f a >>= fun _ => l.forM f) = .error e ↔ _
    cases ha : f a with
    | error e' =>
      constructor
      · intro h
        cases h
        exact ⟨[], a, l, rfl, by simp, ha⟩
      · rintro ⟨_ | ⟨b, before⟩, c, after, hsplit, hbefore, hc⟩
        · cases hsplit
          exact ha.symm.trans hc
        · cases hsplit
          rw [hbefore a (List.mem_cons_self ..)] at ha
          cases ha
    | ok u =>
      refine forM_eq_error_iff.trans ⟨?_, ?_⟩
      · rintro ⟨before, c, after, rfl, hbefore, hc⟩
        exact ⟨a :: before, c, after, rfl, List.forall_mem_cons.2 ⟨ha, hbefore⟩, hc⟩
      · rintro ⟨_ | ⟨b, before⟩, c, after, hsplit, hbefore, hc⟩
        · cases hsplit
          rw [hc] at ha
          cases ha
        · cases hsplit
          exact ⟨before, c, after, rfl, (List.forall_mem_cons.1 hbefore).2, hc⟩

/-- Functions that agree on the elements of a list give the same. -/
theorem mapM_congr {f g : α → Except ε β} {l : List α} (h : ∀ a ∈ l, f a = g a) :
    l.mapM f = l.mapM g := by
  induction l with
  | nil => rfl
  | cons a l ih =>
    rw [List.forall_mem_cons] at h
    rw [List.mapM_cons, List.mapM_cons, h.1, ih h.2]

/-- What holds at first and is kept by every step holds at the end. -/
theorem of_foldlM {P : β → Prop} {f : β → α → Option β}
    (hf : ∀ b a b', P b → f b a = some b' → P b') {l : List α} {b b' : β} (hb : P b)
    (h : l.foldlM f b = some b') : P b' := by
  induction l generalizing b with
  | nil =>
    cases h
    exact hb
  | cons a l ih =>
    rw [List.foldlM_cons] at h
    obtain ⟨b₁, hb₁, h⟩ := Option.bind_eq_some_iff.1 h
    exact ih (hf b a b₁ hb hb₁) h

end TraefikUpgrade
