/-
# The course of reading a pattern

`Reads` is the course that `run` takes, from state to state with the text that is still ahead. Its
places are in one line (`Reads.linear`), and no state comes back on it (`Reads.eq_of_rank`).

`Closes` is the part of it from inside a group to the parenthesis that closes the group. What is read
there depends on no group around it, so a group that stands where reading has come to is the same group
wherever it stands (`Closes.reads_group`, `closes_of_reads_group`).

Key definitions: `Reads`, `Closes`.
Key theorems: `Reads.run_eq`, `exists_reads_of_run`, `Closes.reads_group`, `closes_of_reads_group`.
-/
import TraefikUpgrade.Proofs.Regex.Moves

namespace TraefikUpgrade.Regex

/-! ### The course -/

/-- `Reads s cs s' cs'`: reading comes from `s` with `cs` ahead to `s'` with `cs'` ahead. -/
inductive Reads : State → List Char → State → List Char → Prop
  | refl (s : State) (cs : List Char) : Reads s cs s cs
  | step {s s₁ s₂ : State} {cs tail cs₁ cs₂ : List Char} {c : Char} :
    s.mode.skip cs = c :: tail → advance s c tail = some (s₁, cs₁) → Reads s₁ cs₁ s₂ cs₂ →
      Reads s cs s₂ cs₂

variable {s s₁ s₂ : State} {cs cs₁ cs₂ : List Char}

theorem length_lt_of_step {tail : List Char} {c : Char} (hs : s.mode.skip cs = c :: tail)
    (ha : advance s c tail = some (s₁, cs₁)) : cs₁.length < cs.length := by
  have hskip := s.mode.length_skip_le cs
  have hlen := length_le_of_advance ha
  rw [hs, List.length_cons] at hskip
  omega

theorem run_nil (h : s.mode.skip cs = []) : run s cs = some s := by
  rw [run.eq_def]
  split
  · rfl
  · next hn => rw [h] at hn; cases hn

theorem exists_advance_of_run {tail : List Char} {c : Char} (h : run s cs ≠ none)
    (hs : s.mode.skip cs = c :: tail) : ∃ s₁ cs₁, advance s c tail = some (s₁, cs₁) := by
  rw [run.eq_def] at h
  split at h
  · next hn => rw [hs] at hn; cases hn
  · next hn =>
    rw [hs] at hn
    cases hn
    split at h
    · exact absurd rfl h
    · next ha => exact ⟨_, _, ha⟩

theorem run_of_step {tail : List Char} {c : Char} (hs : s.mode.skip cs = c :: tail)
    (ha : advance s c tail = some (s₁, cs₁)) : run s cs = run s₁ cs₁ := by
  rw [run.eq_def]
  split
  · next hn => rw [hs] at hn; cases hn
  · next hn =>
    rw [hs] at hn
    cases hn
    split
    · next hm => rw [ha] at hm; cases hm
    · next hm => rw [ha] at hm; cases hm; rfl

namespace Reads

theorem single {tail : List Char} {c : Char} (hs : s.mode.skip cs = c :: tail)
    (ha : advance s c tail = some (s₁, cs₁)) : Reads s cs s₁ cs₁ :=
  .step hs ha (.refl ..)

theorem trans (h : Reads s cs s₁ cs₁) (h' : Reads s₁ cs₁ s₂ cs₂) : Reads s cs s₂ cs₂ := by
  induction h with
  | refl => exact h'
  | step hs ha _ ih => exact .step hs ha (ih h')

theorem length_le (h : Reads s cs s₁ cs₁) : cs₁.length ≤ cs.length := by
  induction h with
  | refl => exact Nat.le_refl _
  | step hs ha _ ih => exact Nat.le_of_lt (Nat.lt_of_le_of_lt ih (length_lt_of_step hs ha))

theorem run_eq (h : Reads s cs s₁ cs₁) : run s cs = run s₁ cs₁ := by
  induction h with
  | refl => rfl
  | step hs ha _ ih => rw [run_of_step hs ha, ih]

theorem run_eq_some (h : Reads s cs s₁ []) : run s cs = some s₁ := by
  have hskip : s₁.mode.skip [] = [] :=
    List.eq_nil_of_length_eq_zero (Nat.le_zero.1 (s₁.mode.length_skip_le []))
  rw [h.run_eq, run_nil hskip]

/-- Of two places that reading comes to from one, the nearer is on the way to the other. -/
theorem linear (h₁ : Reads s cs s₁ cs₁) (h₂ : Reads s cs s₂ cs₂)
    (hle : cs₂.length ≤ cs₁.length) : Reads s₁ cs₁ s₂ cs₂ := by
  induction h₁ with
  | refl => exact h₂
  | step hs ha h₁ ih =>
    cases h₂ with
    | refl =>
      have := length_lt_of_step hs ha
      have := h₁.length_le
      omega
    | step hs' ha' h₂ =>
      rw [hs] at hs'
      cases hs'
      rw [ha] at ha'
      cases ha'
      exact ih h₂ hle

theorem unique (h₁ : Reads s cs s₁ cs₁) (h₂ : Reads s cs s₂ cs₁) : s₁ = s₂ := by
  cases h₁.linear h₂ (Nat.le_refl _) with
  | refl => rfl
  | step hs ha h =>
    have := length_lt_of_step hs ha
    have := h.length_le
    omega

theorem rank_le (h : Reads s cs s₁ cs₁) : (s = s₁ ∧ cs = cs₁) ∨ s.rank < s₁.rank := by
  induction h with
  | refl => exact .inl ⟨rfl, rfl⟩
  | step hs ha _ ih =>
    right
    rcases ih with ⟨rfl, -⟩ | hlt
    · exact rank_lt_of_advance ha
    · exact List.lt_trans (rank_lt_of_advance ha) hlt

/-- Reading never comes back to where it was, whatever has been read meanwhile. -/
theorem eq_of_rank (h : Reads s cs s₁ cs₁) (hr : s.rank = s₁.rank) : s = s₁ ∧ cs = cs₁ := by
  rcases h.rank_le with he | hlt
  · exact he
  · rw [hr] at hlt
    exact absurd hlt (List.lt_irrefl _)

end Reads

theorem exists_reads_of_run {s : State} {cs : List Char} {t : State} (h : run s cs = some t) :
    ∃ rest, Reads s cs t rest ∧ t.mode.skip rest = [] := by
  rw [run.eq_def] at h
  split at h
  · next hs => cases h; exact ⟨cs, .refl .., hs⟩
  · next c tail hs =>
    split at h
    · cases h
    · next s₁ cs₁ ha =>
      have hlt := length_lt_of_step hs ha
      obtain ⟨rest, hr, he⟩ := exists_reads_of_run h
      exact ⟨rest, .step hs ha hr, he⟩
termination_by cs.length

/-! ### To the end of a group -/

/-- `Closes s cs body rest`: from inside a group reading comes to the parenthesis that closes it, with
`rest` after it, and what the group holds is `body`. -/
inductive Closes : State → List Char → Ast → List Char → Prop
  | close {s : State} {cs rest : List Char} : s.opened = [] → s.mode.skip cs = ')' :: rest →
    Closes s cs s.branches.close rest
  | step {s s₁ : State} {cs tail cs₁ rest : List Char} {c : Char} {body : Ast} :
    s.mode.skip cs = c :: tail → advance s c tail = some (s₁, cs₁) → Closes s₁ cs₁ body rest →
      Closes s cs body rest

variable {body : Ast} {rest : List Char}

theorem Closes.length_lt (h : Closes s cs body rest) : rest.length < cs.length := by
  induction h with
  | @close s cs rest _ hs =>
    have := s.mode.length_skip_le cs
    rw [hs, List.length_cons] at this
    exact this
  | step hs ha _ ih => exact Nat.lt_trans ih (length_lt_of_step hs ha)

/-- Inside of other groups the group is read in the same way. -/
theorem Closes.reads_within (h : Closes s cs body rest) (g : OpenGroup) (outer : List OpenGroup) :
    Reads (s.within (g :: outer)) cs ⟨g.before.push (.group g.kind body), outer, g.mode⟩ rest := by
  induction h with
  | @close s cs rest ho hs =>
    refine .single hs ?_
    obtain ⟨branches, _ | ⟨g', opened⟩, mode⟩ := s
    · rfl
    · cases ho
  | step hs ha _ ih => exact .step hs (advance_within ha _) ih

/-- Where fewer groups are open than inside, the group has been closed on the way. -/
theorem exists_closes_of_reads {s t : State} {outer : List OpenGroup} {g : OpenGroup}
    {cs rest : List Char}
    (h : Reads (s.within (g :: outer)) cs t rest) (ht : t.opened.length ≤ outer.length) :
    ∃ body mid, Closes s cs body mid ∧
      Reads ⟨g.before.push (.group g.kind body), outer, g.mode⟩ mid t rest := by
  generalize hw : s.within (g :: outer) = w at h
  induction h generalizing s with
  | refl =>
    rw [← hw] at ht
    simp only [State.within, List.length_append, List.length_cons] at ht
    omega
  | @step w s₁ t cs tail cs₁ rest c hs ha hr ih =>
    subst hw
    rcases advance_of_within ha with ⟨s', hs', rfl⟩ | ⟨rfl, rfl, ho⟩
    · obtain ⟨body, mid, hc, hm⟩ := ih ht rfl
      exact ⟨body, mid, .step hs hs' hc, hm⟩
    · refine ⟨s.branches.close, cs₁, .close ho hs, ?_⟩
      have hclosed : advance (s.within (g :: outer)) ')' cs₁ =
          some (⟨g.before.push (.group g.kind s.branches.close), outer, g.mode⟩, cs₁) := by
        obtain ⟨branches, _ | ⟨g', opened⟩, mode⟩ := s
        · rfl
        · cases ho
      rw [hclosed] at ha
      cases ha
      exact hr

theorem Closes.reads_group {kind : GroupKind} {mode : Mode} (h : Closes { mode } cs body rest) :
    Reads (s.openGroup kind mode) cs (s.push (.group kind body)) rest :=
  h.reads_within ⟨kind, s.branches, s.mode⟩ s.opened

/-- If what has been read is one group more, then that is the group that was opened, and it has just
been closed. -/
theorem closes_of_reads_group {kind kind' : GroupKind} {mode : Mode} {t : State}
    (h : Reads (s.openGroup kind mode) cs t rest) (ho : t.opened = s.opened)
    (hb : t.branches = s.branches.push (.group kind' body)) :
    kind = kind' ∧ t = s.push (.group kind body) ∧ Closes { mode } cs body rest := by
  obtain ⟨body', mid, hc, hm⟩ := exists_closes_of_reads (s := { mode })
    (g := ⟨kind, s.branches, s.mode⟩) h (Nat.le_of_eq (congrArg List.length ho))
  have hrank : State.rank ⟨s.branches.push (.group kind body'), s.opened, s.mode⟩ = t.rank := by
    simp [State.rank, ho, hb, Branches.rank, Branches.push, repeats]
  obtain ⟨rfl, rfl⟩ := hm.eq_of_rank hrank
  cases hb
  exact ⟨rfl, rfl, hc⟩

end TraefikUpgrade.Regex
