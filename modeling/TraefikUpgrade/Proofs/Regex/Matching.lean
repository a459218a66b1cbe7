/-
# What a regular expression matches

An expression matches a part of a text, and what is before and after the part counts for the ends of the
text. `Ast.Matches e before text after` says that `e` matches `text` where it stands between `before` and
`after`, and `Ast.IsFoundIn` that there is such a part. The rules are those of the mode that reading begins
with: a dot is any character but a line feed, and circumflex and dollar are the ends of the whole text.
They cover the expressions that templates become, which have characters, sets of these, named groups and
repetitions without an upper bound; nothing is said of what else can be read.

A row of items matches what can be cut into parts that the items match in turn (`matches_row_append`), and
a character that is repeated matches the texts of such characters (`matches_repetition_iff`).

Key definitions: `CharSet.has?`, `Ast.Matches`, `Ast.IsFoundIn`, `Ast.row`.
Key theorems: `matches_row_append`, `matches_repetition_iff`, `close_pushAll`.
-/
import TraefikUpgrade.Proofs.Regex.Items

namespace TraefikUpgrade.Regex

/-- Whether a set has a character, for the sets that are written with their characters. -/
def CharSet.has? (c : Char) : CharSet → Option Bool
  | .empty => some false
  | .range first last => some (first ≤ c && c ≤ last)
  | .complement set => (set.has? c).map (!·)
  | .union left right => do return (← left.has? c) || (← right.has? c)
  | .join .. | .letter _ | .named _ | .property .. => none

namespace Ast

/-- `Matches e before text after`: the expression matches `text` between `before` and `after`. -/
inductive Matches : Ast → (before text after : List Char) → Prop
  | empty (before after : List Char) : Matches .empty before [] after
  | literal (c : Char) (before after : List Char) : Matches (.literal c) before [c] after
  | dot {c : Char} (before after : List Char) : c ≠ '\n' → Matches .dot before [c] after
  | set {s : CharSet} {c : Char} (before after : List Char) : s.has? c = some true →
    Matches (.set s) before [c] after
  | lineStart (after : List Char) : Matches (.assertion .lineStart) [] [] after
  | lineEnd (before : List Char) : Matches (.assertion .lineEnd) before [] []
  | group {e : Ast} {before text after : List Char} (name : String) : Matches e before text after →
    Matches (.group (.named name) e) before text after
  | sequence {e e' : Ast} {before text text' after : List Char} :
    Matches e before text (text' ++ after) → Matches e' (before ++ text) text' after →
      Matches (.sequence e e') before (text ++ text') after
  | stop (e : Ast) (greedy : Bool) (before after : List Char) :
    Matches (.repetition e 0 none greedy) before [] after
  | again {e : Ast} {least : Nat} {greedy : Bool} {before text text' after : List Char} :
    Matches e before text (text' ++ after) →
      Matches (.repetition e (least - 1) none greedy) (before ++ text) text' after →
      Matches (.repetition e least none greedy) before (text ++ text') after

/-- Whether the expression matches a part of the text. -/
def IsFoundIn (e : Ast) (cs : List Char) : Prop :=
  ∃ before text after, cs = before ++ text ++ after ∧ e.Matches before text after

/-- Items one after another as one expression. -/
def row (items : List Ast) : Ast := items.foldr .sequence .empty

variable {e e' : Ast} {before text after : List Char} {c : Char}

/-! ### The rules as conditions -/

theorem matches_empty_iff : empty.Matches before text after ↔ text = [] := by
  constructor
  · rintro ⟨⟩
    rfl
  · rintro rfl
    exact .empty _ _

theorem matches_literal_iff : (literal c).Matches before text after ↔ text = [c] := by
  constructor
  · rintro ⟨⟩
    rfl
  · rintro rfl
    exact .literal _ _ _

theorem matches_dot_iff : dot.Matches before text after ↔ ∃ c, c ≠ '\n' ∧ text = [c] := by
  constructor
  · rintro ⟨⟩
    exact ⟨_, ‹_›, rfl⟩
  · rintro ⟨c, hc, rfl⟩
    exact .dot _ _ hc

theorem matches_set_iff {s : CharSet} :
    (set s).Matches before text after ↔ ∃ c, s.has? c = some true ∧ text = [c] := by
  constructor
  · rintro ⟨⟩
    exact ⟨_, ‹_›, rfl⟩
  · rintro ⟨c, hc, rfl⟩
    exact .set _ _ hc

theorem matches_lineStart_iff :
    (assertion .lineStart).Matches before text after ↔ before = [] ∧ text = [] := by
  constructor
  · rintro ⟨⟩
    exact ⟨rfl, rfl⟩
  · rintro ⟨rfl, rfl⟩
    exact .lineStart _

theorem matches_lineEnd_iff :
    (assertion .lineEnd).Matches before text after ↔ text = [] ∧ after = [] := by
  constructor
  · rintro ⟨⟩
    exact ⟨rfl, rfl⟩
  · rintro ⟨rfl, rfl⟩
    exact .lineEnd _

theorem matches_group_iff {name : String} :
    (group (.named name) e).Matches before text after ↔ e.Matches before text after := by
  constructor
  · rintro ⟨⟩
    assumption
  · exact .group name

theorem matches_sequence_iff : (sequence e e').Matches before text after ↔
    ∃ first second, text = first ++ second ∧ e.Matches before first (second ++ after) ∧
      e'.Matches (before ++ first) second after := by
  constructor
  · rintro ⟨⟩
    exact ⟨_, _, rfl, ‹_›, ‹_›⟩
  · rintro ⟨first, second, rfl, h, h'⟩
    exact .sequence h h'

/-! ### Repetitions -/

/-- Repeating an expression for one character gives the texts of such characters. -/
theorem matches_repetition_iff {P : Char → Prop} {greedy : Bool}
    (he : ∀ before text after, e.Matches before text after ↔ ∃ c, P c ∧ text = [c]) {least : Nat} :
    (repetition e least none greedy).Matches before text after ↔
      least ≤ text.length ∧ ∀ c ∈ text, P c := by
  constructor
  · intro h
    generalize hr : repetition e least none greedy = r at h
    induction h generalizing least with
    | stop e' greedy' before after =>
      cases hr
      exact ⟨Nat.le_refl _, by simp⟩
    | again hfirst hrest ihfirst ihrest =>
      cases hr
      obtain ⟨c, hc, rfl⟩ := (he _ _ _).1 hfirst
      obtain ⟨hle, hall⟩ := ihrest rfl
      refine ⟨?_, List.forall_mem_cons.2 ⟨hc, hall⟩⟩
      rw [List.length_append, List.length_singleton]
      omega
    | _ => cases hr
  · rintro ⟨hle, hall⟩
    induction text generalizing before least with
    | nil =>
      obtain rfl : least = 0 := Nat.le_zero.1 hle
      exact .stop ..
    | cons c text ih =>
      rw [List.forall_mem_cons] at hall
      rw [List.length_cons] at hle
      have hfirst : e.Matches before [c] (text ++ after) := (he _ _ _).2 ⟨c, hall.1, rfl⟩
      have hrest : (repetition e (least - 1) none greedy).Matches (before ++ [c]) text after :=
        ih (by omega) hall.2
      exact .again hfirst hrest

/-! ### Rows -/

/-- A row is cut where its items are. -/
theorem matches_row_append : ∀ {items : List Ast} (more : List Ast) {before text : List Char},
    (row (items ++ more)).Matches before text after ↔
      ∃ first second, text = first ++ second ∧ (row items).Matches before first (second ++ after) ∧
        (row more).Matches (before ++ first) second after
  | [], more, before, text => by
    constructor
    · intro h
      refine ⟨[], text, rfl, .empty _ _, ?_⟩
      rwa [List.append_nil]
    · rintro ⟨first, second, rfl, hfirst, hsecond⟩
      obtain rfl := matches_empty_iff.1 hfirst
      rwa [List.append_nil] at hsecond
  | item :: items, more, before, text => by
    have hcons : row (item :: items ++ more) = .sequence item (row (items ++ more)) := rfl
    have hcons' : row (item :: items) = .sequence item (row items) := rfl
    rw [hcons, hcons', matches_sequence_iff]
    constructor
    · rintro ⟨first, rest, rfl, hfirst, hrest⟩
      obtain ⟨middle, second, rfl, hmiddle, hsecond⟩ := (matches_row_append more).1 hrest
      rw [List.append_assoc] at hfirst hsecond
      exact ⟨first ++ middle, second, (List.append_assoc ..).symm, .sequence hfirst hmiddle, hsecond⟩
    · rintro ⟨front, second, rfl, hfront, hsecond⟩
      obtain ⟨first, middle, rfl, hfirst, hmiddle⟩ := matches_sequence_iff.1 hfront
      refine ⟨first, middle ++ second, List.append_assoc .., ?_,
        (matches_row_append more).2 ⟨middle, second, rfl, hmiddle, ?_⟩⟩
      · rwa [List.append_assoc]
      · rwa [List.append_assoc]

theorem matches_row_singleton : (row [e]).Matches before text after ↔ e.Matches before text after := by
  have hrow : row [e] = .sequence e .empty := rfl
  rw [hrow, matches_sequence_iff]
  constructor
  · rintro ⟨first, second, rfl, hfirst, hsecond⟩
    obtain rfl := matches_empty_iff.1 hsecond
    rwa [List.append_nil]
  · intro h
    exact ⟨text, [], (List.append_nil _).symm, h, .empty _ _⟩

/-- Characters that stand for themselves match their text alone. -/
theorem matches_literals_iff (cs : List Char) :
    (row (cs.map literal)).Matches before text after ↔ text = cs := by
  induction cs generalizing before text with
  | nil => exact matches_empty_iff
  | cons c cs ih =>
    have hrow : row ((c :: cs).map literal) = .sequence (literal c) (row (cs.map literal)) := rfl
    rw [hrow, matches_sequence_iff]
    constructor
    · rintro ⟨first, second, rfl, hfirst, hsecond⟩
      rw [matches_literal_iff.1 hfirst, ih.1 hsecond]
      rfl
    · rintro rfl
      exact ⟨[c], cs, rfl, .literal _ _ _, ih.2 rfl⟩

end Ast

/-- Items that are read one after another are their row. -/
theorem close_pushAll (items : List Ast) : (State.pushAll {} items).branches.close = Ast.row items := by
  rw [State.pushAll_eq, Branches.close, List.foldl_nil, Branches.current, List.append_nil,
    List.foldl_reverse]
  rfl

end TraefikUpgrade.Regex
