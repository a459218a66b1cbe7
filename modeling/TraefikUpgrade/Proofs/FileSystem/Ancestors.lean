/-
# The paths above a path

A path that is cut after one of its components has the components up to there (`spans_cut`). So the
paths above a path have fewer and fewer components (`pairwise_ancestors`), a name that is joined to each of
them is one more (`components_join`), and no two of the joined paths are the same (`pairwise_join`).

Key theorems: `Path.spans_cut`, `Path.components_join`, `Path.pairwise_ancestors`,
`Path.pairwise_join`.
-/
import TraefikUpgrade.Proofs.FileSystem.Paths

namespace TraefikUpgrade.FileSystem.Path

open Text

/-! ### Components -/

/-- The component that a part of a path is, if it is one. -/
def component? (first last : Bool) (part : List Char) : Option Component :=
  if part = [] then if first && !last then some .root else none
  else if part = ['.'] then if first then some .here else none
  else if part = ['.', '.'] then some .up
  else some (.name (String.ofList part))

/-- Where a component ends. The one that is not there to be read is the root, before the slash. -/
def stopOf (start : Nat) (part : List Char) : Nat := if part = [] then 1 else start + part.length

theorem spansFrom_cons (start : Nat) (first : Bool) (part : List Char) (parts : List (List Char)) :
    spansFrom start first (part :: parts) =
      (component? first parts.isEmpty part).toList.map (·, stopOf start part) ++
        spansFrom (start + part.length + 1) false parts := by
  by_cases hnil : part = []
  · subst hnil
    cases first <;> cases parts <;> rfl
  by_cases hhere : part = ['.']
  · subst hhere
    cases first <;> rfl
  by_cases hup : part = ['.', '.']
  · subst hup
    rfl
  · have hcomponent : component? first parts.isEmpty part = some (.name (String.ofList part)) := by
      rw [component?, if_neg hnil, if_neg hhere, if_neg hup]
    rw [hcomponent, stopOf, if_neg hnil, spansFrom]
    · rfl
    · exact hnil
    · exact hhere
    · exact hup

/-- What comes after a part matters only if it is empty. -/
theorem component?_of_ne_nil {part : List Char} (h : part ≠ []) (first last last' : Bool) :
    component? first last part = component? first last' part := by
  simp [component?, h]

theorem splitAll_cons {part : List Char} (h : '/' ∉ part) (rest : List Char) :
    splitAll '/' (part ++ '/' :: rest) = part :: splitAll '/' rest := by
  rw [splitAll_append, splitAll_of_notMem h]
  rfl

theorem exists_first_part (cs : List Char) : '/' ∉ cs ∨
    ∃ part rest, cs = part ++ '/' :: rest ∧ '/' ∉ part := by
  cases h : cutAt '/' cs with
  | none => exact .inl (cutAt_eq_none_iff.1 h)
  | some cut => exact .inr ⟨cut.1, cut.2, eq_append_of_cutAt h, notMem_of_cutAt h⟩

theorem isEmpty_splitAll (cs : List Char) : (splitAll '/' cs).isEmpty = false := by
  simpa using splitAll_ne_nil '/' cs

theorem spansFrom_part {start : Nat} {first last : Bool} {part : List Char} {c : Component}
    (hpart : '/' ∉ part) (hne : part ≠ []) (hc : component? first last part = some c) :
    spansFrom start first (splitAll '/' part) = [(c, start + part.length)] := by
  rw [splitAll_of_notMem hpart, spansFrom_cons, component?_of_ne_nil hne _ _ last, hc, stopOf, if_neg hne]
  rfl

theorem spansFrom_first (start : Nat) (first : Bool) {part : List Char} (rest : List Char)
    (hpart : '/' ∉ part) : spansFrom start first (splitAll '/' (part ++ '/' :: rest)) =
      (component? first false part).toList.map (·, stopOf start part) ++
        spansFrom (start + part.length + 1) false (splitAll '/' rest) := by
  rw [splitAll_cons hpart, spansFrom_cons, isEmpty_splitAll]

/-- The text up to the end of a component has the components up to there. -/
theorem spansFrom_take {span : Component × Nat} (cs : List Char) (start : Nat) (first : Bool)
    {before after : List (Component × Nat)} (hfirst : first = true → start = 0)
    (h : spansFrom start first (splitAll '/' cs) = before ++ span :: after) :
    start ≤ span.2 ∧
      spansFrom start first (splitAll '/' (cs.take (span.2 - start))) = before ++ [span] := by
  rcases exists_first_part cs with hcs | ⟨part, rest, rfl, hpart⟩
  · have hne : cs ≠ [] := by
      rintro rfl
      simp [splitAll, spansFrom] at h
    cases hc : component? first true cs with
    | none =>
      rw [splitAll_of_notMem hcs, spansFrom_cons, List.isEmpty_nil, hc] at h
      simp [spansFrom] at h
    | some c =>
      rw [spansFrom_part hcs hne hc] at h
      rcases before with _ | ⟨_, before⟩
      · cases h
        rw [Nat.add_sub_cancel_left, List.take_length, spansFrom_part hcs hne hc]
        exact ⟨Nat.le_add_right .., rfl⟩
      · simp at h
  · have hlater {before' : List (Component × Nat)}
        (h' : spansFrom (start + part.length + 1) false (splitAll '/' rest) = before' ++ span :: after) :
        start ≤ span.2 ∧
          spansFrom start first (splitAll '/' ((part ++ '/' :: rest).take (span.2 - start))) =
            (component? first false part).toList.map (·, stopOf start part) ++ (before' ++ [span]) := by
      obtain ⟨hle, ih⟩ := spansFrom_take rest (start + part.length + 1) false
        (absurd · Bool.false_ne_true) h'
      have hcut : span.2 - start = part.length + (span.2 - (start + part.length + 1) + 1) := by omega
      rw [hcut, List.take_length_add_append, List.take_succ_cons, spansFrom_first _ _ _ hpart, ih]
      exact ⟨by omega, rfl⟩
    rw [spansFrom_first _ _ _ hpart] at h
    cases hc : component? first false part with
    | none =>
      rw [hc] at h hlater
      exact hlater h
    | some c =>
      rw [hc] at h hlater
      rcases before with _ | ⟨_, before⟩
      · obtain ⟨rfl, -⟩ := List.cons.inj h
        by_cases hne : part = []
        · -- the root is the first component, which the text up to its slash has
          subst hne
          obtain ⟨rfl, rfl⟩ : first = true ∧ c = .root := by
            cases first
            · cases hc
            · cases hc
              exact ⟨rfl, rfl⟩
          obtain rfl := hfirst rfl
          exact ⟨Nat.zero_le _, rfl⟩
        · simp only [stopOf, if_neg hne, Nat.add_sub_cancel_left, List.take_left]
          exact ⟨Nat.le_add_right .., spansFrom_part hpart hne hc⟩
      · obtain ⟨rfl, htail⟩ := List.cons.inj h
        exact hlater htail
  termination_by cs.length
  decreasing_by
    subst_vars
    simp only [List.length_append, List.length_cons]
    omega

/-- The path up to the end of a component. -/
def cut (p : Path) (span : Component × Nat) : Path := ⟨String.ofList (p.text.toList.take span.2)⟩

theorem spans_cut {p : Path} {span : Component × Nat} {before after : List (Component × Nat)}
    (h : p.spans = before ++ span :: after) : (p.cut span).spans = before ++ [span] := by
  have htake := (spansFrom_take p.text.toList 0 true (fun _ => rfl) h).2
  rw [spans, cut, String.toList_ofList]
  exact htake

theorem length_components (p : Path) : p.components.length = p.spans.length := List.length_map ..

/-! ### Joined names -/

/-- A slash at the end is no component, unless it is the root. -/
theorem spansFrom_concat_nil (start : Nat) (first : Bool) {parts : List (List Char)}
    (hp : first = true → parts ≠ [[]]) :
    spansFrom start first (parts ++ [[]]) = spansFrom start first parts := by
  induction parts generalizing start first with
  | nil => simp [spansFrom]
  | cons part parts ih =>
    have hcomponent : component? first (parts ++ [[]]).isEmpty part =
        component? first parts.isEmpty part := by
      by_cases hpart : part = []
      · cases parts with
        | nil =>
          cases first
          · simp [component?, hpart]
          · exact absurd (by rw [hpart]) (hp rfl)
        | cons => rfl
      · exact component?_of_ne_nil hpart ..
    rw [List.cons_append, spansFrom_cons, spansFrom_cons, ih _ false (fun h => by cases h), hcomponent]

/-- A name in a directory is one more component. -/
theorem components_join {p : Path} {s : String} (h : IsEntryName s) :
    (p.join s).components = p.components ++ [.name s] := by
  unfold components spans
  rw [toList_join h]
  rcases p.lead_cases with ⟨hlead, htext⟩ | ⟨cs, hlead, htext⟩
  · rw [hlead, htext, List.nil_append, h.splitAll, spansFrom_name h]
    rfl
  rw [hlead, List.append_assoc, List.singleton_append, splitAll_append, h.splitAll]
  by_cases hcs : splitAll '/' cs = [[]]
  · -- The directory is the root, since an empty path leaves nothing before the name.
    have hlength := partsLength_splitAll '/' cs
    rw [hcs] at hlength
    obtain rfl : cs = [] := List.length_eq_zero_iff.1 (Nat.succ.inj hlength).symm
    rcases htext with htext | htext
    · rw [lead, htext] at hlead
      cases hlead
    · rw [htext, hcs, List.singleton_append, spansFrom_cons, spansFrom_name h]
      rfl
  · have hparts : spansFrom 0 true (splitAll '/' p.text.toList) = spansFrom 0 true (splitAll '/' cs) := by
      rcases htext with htext | htext
      · rw [htext]
      · rw [htext, splitAll_append]
        exact spansFrom_concat_nil 0 true fun _ => hcs
    rw [spansFrom_concat h 0 true fun _ => hcs, hparts, List.map_append]
    rfl

/-! ### Ancestors -/

theorem length_components_cut {p : Path} {i : Nat} (hi : i < p.spans.length) :
    (p.cut p.spans[i]).components.length = i + 1 := by
  have hsplit : p.spans = p.spans.take i ++ p.spans[i] :: p.spans.drop (i + 1) := by
    rw [List.getElem_cons_drop, List.take_append_drop]
  rw [length_components, spans_cut hsplit, List.length_append, List.length_take, List.length_singleton]
  omega

/-- The paths above a path have fewer components. -/
theorem pairwise_ancestors (p : Path) :
    p.ancestors.Pairwise fun q r => r.components.length < q.components.length := by
  have hempty : (Path.mk "").components.length = 0 := rfl
  have habove : (p.spans.dropLast.reverse.map p.cut).Pairwise
      fun q r => r.components.length < q.components.length := by
    rw [List.pairwise_map, List.pairwise_reverse]
    refine .sublist (List.dropLast_sublist _) (List.pairwise_iff_getElem.2 fun i j hi hj hij => ?_)
    rw [length_components_cut hi, length_components_cut hj]
    omega
  have hmem (q) (hq : q ∈ p.spans.dropLast.reverse.map p.cut) :
      0 < q.components.length ∧ q.components.length < p.components.length := by
    obtain ⟨span, hspan, rfl⟩ := List.mem_map.1 hq
    obtain ⟨i, hi, rfl⟩ := List.getElem_of_mem (List.mem_reverse.1 hspan)
    rw [List.length_dropLast] at hi
    rw [List.getElem_dropLast, length_components_cut, length_components]
    omega
  unfold ancestors parents
  dsimp only
  split
  · exact .cons (fun q hq => (hmem q hq).2) habove
  · next hends =>
    have hne : 0 < p.components.length := by
      rw [length_components]
      exact List.length_pos_iff.2 fun h => hends (by simp [h])
    refine .cons (fun q hq => ?_) (List.pairwise_append.2 ⟨habove, List.pairwise_singleton .., ?_⟩)
    · rcases List.mem_append.1 hq with hq | hq
      · exact (hmem q hq).2
      · rw [List.mem_singleton.1 hq, hempty]
        exact hne
    · intro q hq r hr
      rw [List.mem_singleton.1 hr, hempty]
      exact (hmem q hq).1

/-- A name is in different places in all of them. -/
theorem pairwise_join (p : Path) {s : String} (h : IsEntryName s) :
    (p.ancestors.map (·.join s)).Pairwise fun q r => q.same r = false := by
  rw [List.pairwise_map]
  refine (pairwise_ancestors p).imp fun {q r} hlt => Bool.eq_false_iff.2 fun hsame => ?_
  have heq : (q.join s).components = (r.join s).components := beq_iff_eq.1 hsame
  rw [components_join h, components_join h] at heq
  rw [List.append_cancel_right heq] at hlt
  exact Nat.lt_irrefl _ hlt

end TraefikUpgrade.FileSystem.Path
