/-
# The moves of the regular expression reader

A piece of a pattern says what to do with what has been read, and that does not depend on what has
been read: `readMove` reads a `Move` in a mode, and `Move.apply` makes it (`advance_eq`). So a move in a
group is the same move with other groups around it (`Move.apply_within`), and every move puts a state
further ahead (`rank_lt_of_advance`).

Key definitions: `Move`, `readMove`, `State.within`, `rank`.
Key theorems: `advance_eq`, `advance_within`, `advance_of_within`, `rank_lt_of_advance`.
-/
import TraefikUpgrade.Regex.Parser

namespace TraefikUpgrade.Regex

/-! ### What a piece says -/

/-- What a piece of a pattern does to what has been read. -/
inductive Move where
  | add (item : Ast)
  | switch (items : List FlagItem)
  | enter (kind : GroupKind) (mode : Mode)
  | leave
  | alternative
  | again (least : Nat) (most : Option Nat) (greedy : Bool)
deriving DecidableEq, Repr

/-- Makes a move. A group can be left and an item repeated only if there is one. -/
def Move.apply (s : State) : Move → Option State
  | .add item => some (s.push item)
  | .switch items => some { s.push (.flags items) with mode := s.mode.switched items }
  | .enter kind mode => some (s.openGroup kind mode)
  | .leave => s.closeGroup
  | .alternative => some { s with branches := s.branches.nextAlternative }
  | .again least most greedy => s.repeatLast least most greedy

/-- The name of a group, and its closing angle bracket. -/
def readGroupName (mode : Mode) (cs : List Char) : Option (Move × List Char) :=
  (Text.cutAt '>' cs).bind fun (name, rest) =>
    if isGroupName name then some (.enter (.named (String.ofList name)) mode, rest) else none

/-- What a list of flags does, which ends with a colon or else with the parenthesis. -/
def flagMove (mode : Mode) (items : List FlagItem) (colon : Bool) : Option Move :=
  if colon then some (.enter (.plain items) (mode.switched items))
  else if items.isEmpty then none
  else some (.switch items)

/-- What follows an opening parenthesis with a question mark. -/
def readSpecial (mode : Mode) : List Char → Option (Move × List Char)
  | 'P' :: '<' :: cs => readGroupName mode cs
  | '<' :: cs => readGroupName mode cs
  | cs => (readFlags [] cs).bind fun (items, colon, rest) => (flagMove mode items colon).map (·, rest)

/-- What follows an opening parenthesis. -/
def readParen (mode : Mode) : List Char → Option (Move × List Char)
  | '?' :: cs => readSpecial mode cs
  | cs => some (.enter .numbered mode, cs)

/-- The move of the piece that begins with `c`. -/
def readMove (mode : Mode) (c : Char) (cs : List Char) : Option (Move × List Char) :=
  match c with
  | '(' => readParen mode (mode.skip cs)
  | ')' => some (.leave, cs)
  | '|' => some (.alternative, cs)
  | '[' => (readSet mode cs).map fun (set, rest) => (.add (.set set), rest)
  | '?' => some (.again 0 (some 1) (readGreed cs).1, (readGreed cs).2)
  | '*' => some (.again 0 none (readGreed cs).1, (readGreed cs).2)
  | '+' => some (.again 1 none (readGreed cs).1, (readGreed cs).2)
  | '{' =>
    (readBounds mode cs).map fun (bounds, rest) =>
      (.again bounds.1 bounds.2 (readGreed (mode.skip rest)).1, (readGreed (mode.skip rest)).2)
  | '\\' => (readEscape mode cs).map fun (atom, rest) => (.add atom.ast, rest)
  | '.' => if mode.unicode then some (.add .dot, cs) else none
  | '^' => some (.add (.assertion .lineStart), cs)
  | '$' => some (.add (.assertion .lineEnd), cs)
  | c => some (.add (.literal c), cs)

/-- A look-around sign is no flag, and no name begins with it. -/
theorem readSpecial_of_lookAround {c : Char} (hc : c = '=' ∨ c = '!') (mode : Mode) (cs : List Char) :
    readSpecial mode (c :: cs) = none ∧ readSpecial mode ('<' :: c :: cs) = none := by
  have hname : readGroupName mode (c :: cs) = none := by
    unfold readGroupName
    cases hcut : Text.cutAt '>' (c :: cs) with
    | none => rfl
    | some p =>
      obtain ⟨name, rest⟩ := p
      have hcs := Text.eq_append_of_cutAt hcut
      cases name with
      | nil => rcases hc with rfl | rfl <;> cases hcs
      | cons d name =>
        cases hcs
        rcases hc with rfl | rfl <;> rfl
  refine ⟨?_, hname⟩
  rcases hc with rfl | rfl <;> rfl

theorem readNamedGroup_eq (s : State) (cs : List Char) :
    readNamedGroup s cs =
      (readGroupName s.mode cs).bind fun (m, rest) => (m.apply s).map (·, rest) := by
  unfold readNamedGroup readGroupName
  cases Text.cutAt '>' cs with
  | none => rfl
  | some p =>
    by_cases hp : isGroupName p.1 = true
    · simp [hp, Move.apply]
    · simp [hp]

theorem readGroup_eq (s : State) (cs : List Char) :
    readGroup s cs = (readParen s.mode cs).bind fun (m, rest) => (m.apply s).map (·, rest) := by
  unfold readGroup
  split
  · rw [readParen, (readSpecial_of_lookAround (.inl rfl) _ _).1]; rfl
  · rw [readParen, (readSpecial_of_lookAround (.inr rfl) _ _).1]; rfl
  · rw [readParen, (readSpecial_of_lookAround (.inl rfl) _ _).2]; rfl
  · rw [readParen, (readSpecial_of_lookAround (.inr rfl) _ _).2]; rfl
  · rw [readNamedGroup_eq]; rfl
  · rw [readNamedGroup_eq]; rfl
  · next cs _ _ _ _ hname hangle =>
    have hflags : readSpecial s.mode cs = (readFlags [] cs).bind fun (items, colon, rest) =>
        (flagMove s.mode items colon).map (·, rest) := by
      unfold readSpecial
      split
      · exact absurd rfl (hname _)
      · exact absurd rfl (hangle _)
      · rfl
    rw [readParen, hflags]
    cases hf : readFlags [] cs with
    | none => rfl
    | some p =>
      obtain ⟨items, colon, rest⟩ := p
      cases colon with
      | true => rfl
      | false => cases items <;> rfl
  · next hq =>
    have hparen : readParen s.mode cs = some (.enter .numbered s.mode, cs) := by
      unfold readParen
      split
      · exact absurd rfl (hq _)
      · rfl
    rw [hparen]
    rfl

/-- What is read next depends on the mode alone; what has been read is what it is done to. -/
theorem advance_eq (s : State) (c : Char) (cs : List Char) :
    advance s c cs = (readMove s.mode c cs).bind fun (m, rest) => (m.apply s).map (·, rest) := by
  unfold advance
  split <;> unfold readMove
  · exact readGroup_eq s _
  · rfl
  · rfl
  · cases readSet s.mode cs <;> rfl
  · rfl
  · rfl
  · rfl
  · cases readBounds s.mode cs <;> rfl
  · cases readEscape s.mode cs <;> rfl
  · split <;> rfl
  · rfl
  · rfl
  · split <;> first | contradiction | rfl

theorem readParen_ne_leave (mode : Mode) (cs rest : List Char) :
    readParen mode cs ≠ some (.leave, rest) := by
  have hname : ∀ text, readGroupName mode text ≠ some (.leave, rest) := by
    intro text h
    obtain ⟨⟨name, rest'⟩, -, hp⟩ := Option.bind_eq_some_iff.1 h
    dsimp only at hp
    split at hp
    all_goals cases hp
  intro h
  unfold readParen readSpecial at h
  split at h
  · split at h
    · exact hname _ h
    · exact hname _ h
    · obtain ⟨⟨items, colon, rest'⟩, -, hp⟩ := Option.bind_eq_some_iff.1 h
      obtain ⟨m, hm, he⟩ := Option.map_eq_some_iff.1 hp
      cases he
      cases colon with
      | true => cases hm
      | false => cases items <;> cases hm
  · cases h

/-- Groups are left at closing parentheses only. -/
theorem leave_of_readMove {mode : Mode} {c : Char} {cs rest : List Char}
    (h : readMove mode c cs = some (.leave, rest)) : c = ')' ∧ rest = cs := by
  unfold readMove at h
  split at h
  · exact absurd h (readParen_ne_leave _ _ _)
  · cases h
    exact ⟨rfl, rfl⟩
  case h_4 | h_8 | h_9 =>
    obtain ⟨p, -, he⟩ := Option.map_eq_some_iff.1 h
    cases he
  case h_10 =>
    split at h
    all_goals cases h
  all_goals cases h

theorem advance_eq_some_iff {s s' : State} {c : Char} {cs rest : List Char} :
    advance s c cs = some (s', rest) ↔
      ∃ m, readMove s.mode c cs = some (m, rest) ∧ m.apply s = some s' := by
  rw [advance_eq, Option.bind_eq_some_iff]
  constructor
  · rintro ⟨⟨m, rest'⟩, hm, ha⟩
    obtain ⟨t, ht, he⟩ := Option.map_eq_some_iff.1 ha
    cases he
    exact ⟨m, hm, ht⟩
  · rintro ⟨m, hm, ha⟩
    exact ⟨(m, rest), hm, Option.map_eq_some_iff.2 ⟨s', ha, rfl⟩⟩

/-! ### A move inside of other groups -/

/-- The state with more groups open around it. -/
def State.within (s : State) (outer : List OpenGroup) : State :=
  { s with opened := s.opened ++ outer }

theorem Move.apply_within {m : Move} {s s' : State} (h : m.apply s = some s')
    (outer : List OpenGroup) : m.apply (s.within outer) = some (s'.within outer) := by
  cases m with
  | add item => cases h; rfl
  | switch items => cases h; rfl
  | enter kind mode => cases h; rfl
  | alternative => cases h; rfl
  | leave =>
    obtain ⟨branches, _ | ⟨g, opened⟩, mode⟩ := s
    · cases h
    · cases h; rfl
  | again least most greedy =>
    obtain ⟨⟨_ | ⟨item, items⟩, alternatives⟩, opened, mode⟩ := s
    · cases h
    · simp only [apply, State.repeatLast, State.within] at h ⊢
      by_cases hr : isRepeatable item = true
      · rw [if_pos hr] at h ⊢
        cases h
        rfl
      · rw [if_neg hr] at h
        cases h

/-- Only leaving the innermost group of all can need the groups around. -/
theorem Move.exists_apply_of_within {m : Move} {s t : State} {outer : List OpenGroup}
    (h : m.apply (s.within outer) = some t) :
    (∃ s', m.apply s = some s' ∧ t = s'.within outer) ∨ (m = .leave ∧ s.opened = []) := by
  cases hm : m.apply s with
  | some s' =>
    rw [apply_within hm] at h
    cases h
    exact .inl ⟨s', rfl, rfl⟩
  | none =>
    right
    cases m with
    | leave =>
      obtain ⟨branches, _ | ⟨g, opened⟩, mode⟩ := s
      · exact ⟨rfl, rfl⟩
      · cases hm
    | again least most greedy =>
      -- What can be repeated is in the branches, which are the same inside.
      obtain ⟨⟨_ | ⟨item, items⟩, alternatives⟩, opened, mode⟩ := s
      · cases h
      · simp only [apply, State.repeatLast, State.within] at h hm
        by_cases hr : isRepeatable item = true
        · rw [if_pos hr] at hm
          cases hm
        · rw [if_neg hr] at h
          cases h
    | _ => cases hm

theorem advance_within {s s' : State} {c : Char} {cs rest : List Char}
    (h : advance s c cs = some (s', rest)) (outer : List OpenGroup) :
    advance (s.within outer) c cs = some (s'.within outer, rest) := by
  obtain ⟨m, hm, ha⟩ := advance_eq_some_iff.1 h
  exact advance_eq_some_iff.2 ⟨m, hm, Move.apply_within ha outer⟩

theorem advance_of_within {s t : State} {outer : List OpenGroup} {c : Char} {cs rest : List Char}
    (h : advance (s.within outer) c cs = some (t, rest)) :
    (∃ s', advance s c cs = some (s', rest) ∧ t = s'.within outer) ∨
      (c = ')' ∧ rest = cs ∧ s.opened = []) := by
  obtain ⟨m, hm, ha⟩ := advance_eq_some_iff.1 h
  rcases Move.exists_apply_of_within ha with ⟨s', hs, ht⟩ | ⟨rfl, ho⟩
  · exact .inl ⟨s', advance_eq_some_iff.2 ⟨m, hm, hs⟩, ht⟩
  · exact .inr ⟨(leave_of_readMove hm).1, (leave_of_readMove hm).2, ho⟩

/-! ### Every move leads on -/

/-- How often an expression is repeated on top of itself. -/
def repeats : Ast → Nat
  | .repetition operand _ _ _ => repeats operand + 1
  | _ => 0

/-- How far the branches of one group have been read. -/
def Branches.rank (b : Branches) : List Nat :=
  [b.alternatives.length, b.items.length, (b.items.head?.map repeats).getD 0]

/-- How far a pattern has been read: the ranks of the open groups, the outermost first. -/
def State.rank (s : State) : List Nat :=
  s.opened.reverse.flatMap (·.before.rank) ++ s.branches.rank

theorem Branches.rank_lt_push (b : Branches) (item : Ast) : b.rank < (b.push item).rank := by
  simp [rank, push, List.cons_lt_cons_iff]

theorem Move.rank_lt_of_apply {m : Move} {s s' : State} (h : m.apply s = some s') :
    s.rank < s'.rank := by
  cases m with
  | add item =>
    cases h
    exact List.append_left_lt (Branches.rank_lt_push ..)
  | switch items =>
    cases h
    exact List.append_left_lt (Branches.rank_lt_push ..)
  | alternative =>
    cases h
    apply List.append_left_lt
    simp [Branches.rank, Branches.nextAlternative, List.cons_lt_cons_iff]
  | enter kind mode =>
    cases h
    have hr : (s.openGroup kind mode).rank = s.rank ++ Branches.rank {} := by
      simp [State.rank, State.openGroup]
    rw [hr]
    simpa using @List.append_left_lt _ _ s.rank [] (Branches.rank {}) (by decide)
  | leave =>
    obtain ⟨branches, _ | ⟨g, opened⟩, mode⟩ := s
    · cases h
    · cases h
      simp only [State.rank, List.reverse_cons, List.flatMap_append, List.append_assoc]
      apply List.append_left_lt
      simp [Branches.rank, Branches.push, List.cons_lt_cons_iff]
  | again least most greedy =>
    obtain ⟨⟨_ | ⟨item, items⟩, alternatives⟩, opened, mode⟩ := s
    · cases h
    · simp only [apply, State.repeatLast] at h
      by_cases hr : isRepeatable item = true
      · rw [if_pos hr] at h
        cases h
        apply List.append_left_lt
        simp [Branches.rank, List.cons_lt_cons_iff, repeats]
      · rw [if_neg hr] at h
        cases h

theorem rank_lt_of_advance {s s' : State} {c : Char} {cs rest : List Char}
    (h : advance s c cs = some (s', rest)) : s.rank < s'.rank := by
  obtain ⟨m, -, ha⟩ := advance_eq_some_iff.1 h
  exact Move.rank_lt_of_apply ha

end TraefikUpgrade.Regex
