/-
# Items that are read one after another

Reading a text outside of all groups may do no more than add items in a row (`State.pushAll`). The
groups of the whole are then the groups of its items in order (`captures_current`). An opening
parenthesis with `?P<` opens the group whose name ends with the first closing angle bracket
(`advance_named_iff`).

Key definitions: `State.pushAll`.
Key theorems: `captures_current`, `captures_pushAll`, `read_eq_some_iff`, `advance_named_iff`.
-/
import TraefikUpgrade.Proofs.Regex.Reading
import TraefikUpgrade.Regex.Limits

namespace TraefikUpgrade.Regex

variable {s t : State} {cs rest : List Char}

/-! ### Adding items -/

@[simp] theorem State.push_mode (s : State) (item : Ast) : (s.push item).mode = s.mode := rfl

/-- Adds several items, one after another. -/
def State.pushAll (s : State) (items : List Ast) : State := items.foldl State.push s

theorem State.pushAll_append (s : State) (items more : List Ast) :
    s.pushAll (items ++ more) = (s.pushAll items).pushAll more :=
  List.foldl_append

theorem State.pushAll_eq : ∀ (s : State) (items : List Ast),
    s.pushAll items = { s with branches := { s.branches with
      items := items.reverse ++ s.branches.items } }
  | _, [] => rfl
  | s, item :: items => by
    have hstep : s.pushAll (item :: items) = (s.push item).pushAll items := rfl
    rw [hstep, pushAll_eq]
    simp [push, Branches.push]

@[simp] theorem State.pushAll_mode (s : State) (items : List Ast) :
    (s.pushAll items).mode = s.mode := by
  rw [pushAll_eq]

/-- Blanks count in the mode that reading begins with. -/
theorem State.skip_of_mode (hm : s.mode = {}) (cs : List Char) : s.mode.skip cs = cs := by
  rw [hm]
  rfl

/-! ### The groups of what has been read -/

theorem captures_foldl_sequence : ∀ (items : List Ast) (last : Ast),
    (items.foldl (fun rest item => Ast.sequence item rest) last).captures =
      items.reverse.flatMap Ast.captures ++ last.captures
  | [], _ => rfl
  | item :: items, last => by
    rw [List.foldl_cons, captures_foldl_sequence items]
    simp [Ast.captures]

theorem captures_current (b : Branches) :
    b.current.captures = b.items.reverse.flatMap Ast.captures := by
  rw [Branches.current, captures_foldl_sequence]
  simp [Ast.captures]

/-- The groups of a pattern without alternatives are the groups of its items, in order. -/
theorem captures_pushAll (items : List Ast) :
    (State.pushAll {} items).branches.close.captures = items.flatMap Ast.captures := by
  rw [State.pushAll_eq, Branches.close, List.foldl_nil, captures_current]
  simp

theorem parse_eq_some_iff [Limits] {pattern : String} {ast : Ast} :
    parse pattern = some ast ↔ Limits.fits pattern = true ∧ read pattern = some ast := by
  simp [parse]

theorem read_eq_some_iff {pattern : String} {ast : Ast} :
    read pattern = some ast ↔ ∃ branches mode, run {} pattern.toList = some ⟨branches, [], mode⟩ ∧
      (branches.close.captures.filterMap id).Nodup ∧ ast = branches.close := by
  unfold read
  split
  · next branches mode hrun =>
    rw [hrun]
    split
    · next hn =>
      constructor
      · intro h
        cases h
        exact ⟨branches, mode, rfl, hn, rfl⟩
      · rintro ⟨branches', mode', hb, -, rfl⟩
        cases hb
        rfl
    · next hn =>
      constructor
      · intro h
        cases h
      · rintro ⟨branches', mode', hb, hn', -⟩
        cases hb
        exact absurd hn' hn
  · next hrun =>
    simp only [reduceCtorEq, false_iff]
    rintro ⟨branches, mode, h, -⟩
    exact hrun _ _ h

/-! ### A named group is opened -/

theorem advance_named_iff (hm : s.mode = {}) :
    advance s '(' ("?P<".toList ++ cs) = some (t, rest) ↔
      ∃ name, Text.cutAt '>' cs = some (name, rest) ∧ isGroupName name = true ∧
        t = s.openGroup (.named (String.ofList name)) s.mode := by
  have hread : readMove s.mode '(' ("?P<".toList ++ cs) = readGroupName s.mode cs := by
    rw [hm]
    rfl
  rw [advance_eq_some_iff, hread]
  constructor
  · rintro ⟨m, hname, ht⟩
    obtain ⟨⟨name, rest'⟩, hcut, he⟩ := Option.bind_eq_some_iff.1 hname
    dsimp only at he
    split at he
    · next hg =>
      cases he
      cases ht
      exact ⟨name, hcut, hg, rfl⟩
    · cases he
  · rintro ⟨name, hcut, hg, rfl⟩
    refine ⟨.enter (.named (String.ofList name)) s.mode, ?_, rfl⟩
    rw [readGroupName, hcut]
    exact if_pos hg

end TraefikUpgrade.Regex
