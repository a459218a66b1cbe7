/-
# Braces of a template

The braces of a text are balanced if none is closed that is not open, and none stays open (`Balanced`).
Read from the left, such a text leads from depth zero to depth zero (`balanced_iff`). A pair of braces
with what is between them is an outermost span of a text if what is before it and what is between are
balanced (`Span.IsOutermost`).

A text is cut at its braces if and only if they are balanced (`isSome_cutBracesFrom`), and then the braced
pieces are just the outermost spans, from left to right (`mem_spans_iff`, `pairwise_spans`). A template is
read from them (`Template.map_parse`): the first span without a name, or with a colon and no pattern, is
the one that is refused, and otherwise there is one placeholder for each.

Key definitions: `Balanced`, `Span.IsOutermost`, `Span.LacksPart`, `Placeholder.Fills`, `Decomposes`.
Key theorems: `balanced_iff`, `mem_spans_iff`, `pairwise_spans`, `Template.map_parse`,
`Template.parse_eq_error_iff`, `Template.parse_decomposes`.
-/
import TraefikUpgrade.Proofs.Rule.TemplateText
import TraefikUpgrade.Proofs.Traversal

namespace TraefikUpgrade.Rule

open Text (utf8Length)

/-! ### Depth -/

/-- No brace is closed that is not open, and none stays open. -/
structure Balanced (cs : List Char) : Prop where
  never_ahead : ∀ front, front <+: cs → front.count '}' ≤ front.count '{'
  total : cs.count '{' = cs.count '}'

/-- How many braces are open after a text, if none is closed that is not open. -/
def depthAfter : Nat → List Char → Option Nat
  | depth, [] => some depth
  | depth, c :: cs =>
    if c = '{' then depthAfter (depth + 1) cs
    else if c = '}' then
      match depth with
      | 0 => none
      | depth + 1 => depthAfter depth cs
    else depthAfter depth cs

variable {depth depth' : Nat} {c : Char} {cs ds : List Char}

@[simp] theorem depthAfter_nil : depthAfter depth [] = some depth := rfl

@[simp] theorem depthAfter_open : depthAfter depth ('{' :: cs) = depthAfter (depth + 1) cs := rfl

@[simp] theorem depthAfter_close : depthAfter (depth + 1) ('}' :: cs) = depthAfter depth cs := rfl

@[simp] theorem depthAfter_close_zero : depthAfter 0 ('}' :: cs) = none := rfl

theorem depthAfter_other (ho : c ≠ '{') (hc : c ≠ '}') :
    depthAfter depth (c :: cs) = depthAfter depth cs := by
  simp [depthAfter, ho, hc]

theorem depthAfter_append : ∀ (cs : List Char) (depth : Nat),
    depthAfter depth (cs ++ ds) = (depthAfter depth cs).bind (depthAfter · ds)
  | [], _ => rfl
  | c :: cs, depth => by
    rw [List.cons_append]
    by_cases ho : c = '{'
    · subst ho
      exact depthAfter_append cs (depth + 1)
    by_cases hc : c = '}'
    · subst hc
      cases depth with
      | zero => rfl
      | succ depth => exact depthAfter_append cs depth
    · rw [depthAfter_other ho hc, depthAfter_other ho hc]
      exact depthAfter_append cs depth

/-- Braces that are open around a text stay open. -/
theorem depthAfter_add (more : Nat) : ∀ {cs : List Char} {depth : Nat},
    depthAfter depth cs = some depth' → depthAfter (depth + more) cs = some (depth' + more)
  | [], _, h => by
    cases h
    rfl
  | c :: cs, depth, h => by
    by_cases ho : c = '{'
    · subst ho
      rw [depthAfter_open] at h ⊢
      rw [Nat.add_right_comm]
      exact depthAfter_add more h
    by_cases hc : c = '}'
    · subst hc
      cases depth with
      | zero => cases h
      | succ depth =>
        rw [depthAfter_close] at h
        rw [Nat.add_right_comm, depthAfter_close]
        exact depthAfter_add more h
    · rw [depthAfter_other ho hc] at h ⊢
      exact depthAfter_add more h

theorem depthAfter_of_notMem (ho : '{' ∉ cs) (hc : '}' ∉ cs) : depthAfter depth cs = some depth := by
  induction cs with
  | nil => rfl
  | cons c cs ih =>
    rw [List.mem_cons, not_or] at ho hc
    rw [depthAfter_other (Ne.symm ho.1) (Ne.symm hc.1), ih ho.2 hc.2]

theorem forall_prefix_cons {P : List Char → Prop} : (∀ front, front <+: c :: cs → P front) ↔
    P [] ∧ ∀ front, front <+: cs → P (c :: front) := by
  constructor
  · intro h
    exact ⟨h [] (List.nil_prefix), fun front hf => h _ (List.cons_prefix_cons.2 ⟨rfl, hf⟩)⟩
  · rintro ⟨hnil, hcons⟩ front hf
    rcases List.prefix_cons_iff.1 hf with rfl | ⟨tail, rfl, htail⟩
    · exact hnil
    · exact hcons tail htail

/-- The depth in numbers of braces. -/
theorem depthAfter_eq_some_iff : depthAfter depth cs = some depth' ↔
    (∀ front, front <+: cs → front.count '}' ≤ depth + front.count '{') ∧
      depth + cs.count '{' = depth' + cs.count '}' := by
  induction cs generalizing depth with
  | nil => simp
  | cons c cs ih =>
    rw [forall_prefix_cons]
    by_cases ho : c = '{'
    · subst ho
      rw [depthAfter_open, ih]
      simp [Nat.add_assoc, Nat.add_comm 1]
    by_cases hc : c = '}'
    · subst hc
      cases depth with
      | zero =>
        have hfirst : ¬ ∀ front, front <+: cs →
            ('}' :: front).count '}' ≤ 0 + ('}' :: front).count '{' :=
          fun h => by simpa using h [] List.nil_prefix
        simp only [depthAfter_close_zero, reduceCtorEq, hfirst, and_false, false_and]
      | succ depth =>
        rw [depthAfter_close, ih]
        simp only [List.count_nil, List.count_cons, beq_self_eq_true, if_true, Nat.zero_le, true_and,
          (by decide : ('}' == '{') = false), Bool.false_eq_true, if_false]
        constructor <;> rintro ⟨hpre, htotal⟩
        · exact ⟨fun front hf => by have := hpre front hf; omega, by omega⟩
        · exact ⟨fun front hf => by have := hpre front hf; omega, by omega⟩
    · rw [depthAfter_other ho hc, ih]
      simp [ho, hc]

/-- A text is balanced if it leads from depth zero to depth zero. -/
theorem balanced_iff : Balanced cs ↔ depthAfter 0 cs = some 0 := by
  rw [depthAfter_eq_some_iff]
  simp only [Nat.zero_add]
  exact ⟨fun h => ⟨h.never_ahead, h.total⟩, fun h => ⟨h.1, h.2⟩⟩

theorem Balanced.append (h : Balanced cs) (h' : Balanced ds) : Balanced (cs ++ ds) := by
  rw [balanced_iff] at h h' ⊢
  rw [depthAfter_append, h]
  exact h'

theorem Balanced.of_append (h : Balanced cs) (h' : Balanced (cs ++ ds)) : Balanced ds := by
  rw [balanced_iff] at h h' ⊢
  rwa [depthAfter_append, h] at h'

/-- What is in braces is read without closing the outer ones. -/
theorem Balanced.depthAfter_succ (h : Balanced cs) : depthAfter (depth + 1) cs = some (depth + 1) := by
  have hdeep := depthAfter_add (depth + 1) (balanced_iff.1 h)
  rwa [Nat.zero_add] at hdeep

theorem Balanced.braces (h : Balanced cs) : Balanced ('{' :: cs ++ ['}']) := by
  rw [balanced_iff, List.cons_append, depthAfter_open, depthAfter_append, h.depthAfter_succ]
  rfl

/-! ### Outermost spans -/

/-- A pair of braces in a text, with what is between them, before them and after them. -/
structure Span where
  before : List Char
  inner : List Char
  after : List Char

namespace Span

/-- The braces with what is between them. -/
def text (x : Span) : List Char := (Piece.braced x.inner).source

/-- The byte offset of the opening brace. -/
def start (x : Span) : Nat := utf8Length x.before

/-- The byte offset of the character after the closing brace. -/
def stop (x : Span) : Nat := utf8Length (x.before ++ x.text)

/-- The braces belong together and are not inside of others. -/
structure IsOutermost (x : Span) (cs : List Char) : Prop where
  eq : cs = x.before ++ x.text ++ x.after
  before : Balanced x.before
  inner : Balanced x.inner

/-- There is no name before the first colon, or there is this colon and no pattern after it; a pattern may
hold colons of its own. -/
def LacksPart (x : Span) : Prop :=
  x.inner = [] ∨
    ∃ name pattern, x.inner = name ++ ':' :: pattern ∧ ':' ∉ name ∧ (name = [] ∨ pattern = [])

theorem stop_eq (x : Span) : x.stop = x.start + utf8Length x.inner + 2 := by
  have hopen : '{'.utf8Size = 1 := rfl
  have hclose : '}'.utf8Size = 1 := rfl
  simp only [stop, start, text, Piece.source, utf8Length, Text.utf8Length_append, hopen, hclose]
  omega

theorem start_lt_stop (x : Span) : x.start < x.stop := by
  rw [stop_eq]
  omega

end Span

/-! ### Cutting -/

/-- A text is cut if and only if its braces pair up with those that are open. -/
theorem isSome_cutBracesFrom : ∀ (depth : Nat) (current cs : List Char),
    (cutBracesFrom depth current cs).isSome ↔ depthAfter depth cs = some 0
  | 0, current, [] => by simp [cutBracesFrom]
  | depth + 1, current, [] => by simp [cutBracesFrom]
  | 0, current, c :: cs => by
    rw [cutBracesFrom, depthAfter]
    split
    · rw [Option.isSome_map]
      exact isSome_cutBracesFrom 1 [] cs
    · split
      · simp
      · exact isSome_cutBracesFrom 0 (c :: current) cs
  | 1, current, c :: cs => by
    by_cases hc : c = '}'
    · subst hc
      rw [cutBracesFrom, if_pos rfl, Option.isSome_map]
      exact isSome_cutBracesFrom 0 [] cs
    · rw [cutBracesFrom, if_neg hc, depthAfter, if_neg hc]
      split
      · exact isSome_cutBracesFrom 2 (c :: current) cs
      · exact isSome_cutBracesFrom 1 (c :: current) cs
  | depth + 2, current, c :: cs => by
    by_cases hc : c = '}'
    · subst hc
      rw [cutBracesFrom, if_pos rfl]
      exact isSome_cutBracesFrom (depth + 1) ('}' :: current) cs
    · rw [cutBracesFrom, if_neg hc, depthAfter, if_neg hc]
      split
      · exact isSome_cutBracesFrom (depth + 3) (c :: current) cs
      · exact isSome_cutBracesFrom (depth + 2) (c :: current) cs

/-- There are no braces in a plain piece, and balanced ones in a braced one. -/
def Piece.IsWhole : Piece → Prop
  | .plain text => '{' ∉ text ∧ '}' ∉ text
  | .braced inner => Balanced inner

/-- The part of a piece that is read when `depth` braces are open, last character first. -/
def IsPending : (depth : Nat) → (current : List Char) → Prop
  | 0, current => '{' ∉ current ∧ '}' ∉ current
  | depth + 1, current => depthAfter 0 current.reverse = some depth

theorem isPending_nil : IsPending 0 [] := ⟨List.not_mem_nil, List.not_mem_nil⟩

theorem IsPending.cons (h : IsPending (depth + 1) cs)
    (hc : depthAfter depth [c] = some depth') : IsPending (depth' + 1) (c :: cs) := by
  have hread : depthAfter 0 cs.reverse = some depth := h
  show depthAfter 0 (c :: cs).reverse = some depth'
  rw [List.reverse_cons, depthAfter_append, hread]
  exact hc

theorem isWhole_of_cutBracesFrom : ∀ (depth : Nat) (current cs : List Char) {pieces : List Piece},
    cutBracesFrom depth current cs = some pieces → IsPending depth current →
    ∀ p ∈ pieces, p.IsWhole
  | 0, current, [], pieces, h, hcur => by
    rw [cutBracesFrom] at h
    cases h
    simpa [Piece.IsWhole, IsPending] using hcur
  | depth + 1, current, [], pieces, h, hcur => by
    rw [cutBracesFrom] at h
    cases h
  | 0, current, c :: cs, pieces, h, hcur => by
    rw [cutBracesFrom] at h
    split at h
    · obtain ⟨rest, hr, rfl⟩ := Option.map_eq_some_iff.1 h
      rw [List.forall_mem_cons]
      exact ⟨by simpa [Piece.IsWhole, IsPending] using hcur, isWhole_of_cutBracesFrom 1 [] cs hr rfl⟩
    · next ho =>
      split at h
      · cases h
      · next hc =>
        refine isWhole_of_cutBracesFrom 0 (c :: current) cs h ⟨?_, ?_⟩
        · exact fun hm => (List.mem_cons.1 hm).elim (ho ·.symm) hcur.1
        · exact fun hm => (List.mem_cons.1 hm).elim (hc ·.symm) hcur.2
  | 1, current, c :: cs, pieces, h, hcur => by
    rw [cutBracesFrom] at h
    split at h
    · obtain ⟨rest, hr, rfl⟩ := Option.map_eq_some_iff.1 h
      rw [List.forall_mem_cons]
      exact ⟨balanced_iff.2 hcur, isWhole_of_cutBracesFrom 0 [] cs hr isPending_nil⟩
    · next hc =>
      split at h
      · next ho =>
        exact isWhole_of_cutBracesFrom 2 (c :: current) cs h (hcur.cons (by rw [ho]; rfl))
      · next ho =>
        exact isWhole_of_cutBracesFrom 1 (c :: current) cs h (hcur.cons (depthAfter_other ho hc))
  | depth + 2, current, c :: cs, pieces, h, hcur => by
    rw [cutBracesFrom] at h
    split at h
    · next hc =>
      exact isWhole_of_cutBracesFrom (depth + 1) (c :: current) cs h (hcur.cons (by rw [hc]; rfl))
    · next hc =>
      split at h
      · next ho =>
        exact isWhole_of_cutBracesFrom (depth + 3) (c :: current) cs h (hcur.cons (by rw [ho]; rfl))
      · next ho =>
        exact isWhole_of_cutBracesFrom (depth + 2) (c :: current) cs h
          (hcur.cons (depthAfter_other ho hc))

theorem Piece.IsWhole.balanced {p : Piece} (h : p.IsWhole) : Balanced p.source := by
  cases p with
  | plain text => exact balanced_iff.2 (depthAfter_of_notMem h.1 h.2)
  | braced inner => exact Balanced.braces h

/-! ### The spans of a text -/

/-- The braced pieces of a text as spans, if `before` is before the first piece. -/
def spansOf (before : List Char) : List Piece → List Span
  | [] => []
  | .plain text :: pieces => spansOf (before ++ text) pieces
  | .braced inner :: pieces =>
    ⟨before, inner, pieces.flatMap Piece.source⟩ ::
      spansOf (before ++ (Piece.braced inner).source) pieces

/-- The front of a text is over before a character of the text, or holds it. -/
theorem prefix_or_eq_append {front back : List Char} (h : cs ++ ds = front ++ c :: back) :
    cs <+: front ∨ ∃ more, cs = front ++ c :: more ∧ back = more ++ ds := by
  rcases List.append_eq_append_iff.1 h with ⟨more, hf, -⟩ | ⟨_ | ⟨c', more⟩, hcs, hback⟩
  · exact .inl ⟨more, hf.symm⟩
  · exact .inl ⟨[], by rw [hcs, List.append_nil, List.append_nil]⟩
  · cases hback
    exact .inr ⟨more, hcs, rfl⟩

/-- No part of a balanced text closes the brace before it. -/
theorem Balanced.not_prefix {front : List Char} (h : Balanced cs) (hf : depthAfter 1 front = some 0) :
    ¬ front <+: cs := by
  rintro ⟨back, rfl⟩
  have hcs := balanced_iff.1 h
  rw [depthAfter_append] at hcs
  obtain ⟨k, hk, -⟩ := Option.bind_eq_some_iff.1 hcs
  have hmore := depthAfter_add 1 hk
  rw [hf] at hmore
  cases hmore

theorem Balanced.prefix_of_close {inner inner' after after' : List Char} (h : Balanced inner)
    (h' : Balanced inner') (he : inner ++ '}' :: after = inner' ++ '}' :: after') :
    inner <+: inner' := by
  refine (prefix_or_eq_append he).resolve_right fun ⟨more, hmore, _⟩ => ?_
  have hclosed : depthAfter 1 (inner' ++ ['}']) = some 0 := by
    rw [depthAfter_append, h'.depthAfter_succ]
    rfl
  exact h.not_prefix hclosed ⟨more, by simp [hmore]⟩

/-- The brace before a balanced text is closed at the end of the text only. -/
theorem Balanced.eq_of_close {inner inner' after after' : List Char} (h : Balanced inner)
    (h' : Balanced inner') (he : inner ++ '}' :: after = inner' ++ '}' :: after') :
    inner = inner' ∧ after = after' := by
  obtain rfl := (h.prefix_of_close h' he).eq_of_length_le (h'.prefix_of_close h he.symm).length_le
  exact ⟨rfl, (List.cons.inj (List.append_cancel_left he)).2⟩

/-- A span is after the piece at the beginning of a text, unless it is that piece. -/
theorem Piece.IsWhole.prefix_or_eq {p : Piece} {x : Span} {rest front : List Char} (hp : p.IsWhole)
    (hfront : Balanced front) (hinner : Balanced x.inner)
    (he : p.source ++ rest = front ++ x.text ++ x.after) :
    p.source <+: front ∨ p = .braced x.inner ∧ front = [] ∧ rest = x.after := by
  have he' : p.source ++ rest = front ++ '{' :: (x.inner ++ ['}'] ++ x.after) := by
    simpa [Span.text, Piece.source] using he
  rcases prefix_or_eq_append he' with hpre | ⟨more, hsource, hmore⟩
  · exact .inl hpre
  cases p with
  | plain text =>
    have hopen : '{' ∈ (Piece.plain text).source :=
      hsource ▸ List.mem_append_right _ (List.mem_cons_self ..)
    exact absurd hopen hp.1
  | braced inner =>
    rcases front with _ | ⟨o, front⟩
    · obtain rfl : inner ++ ['}'] = more := (List.cons.inj hsource).2
      have hclose : inner ++ '}' :: rest = x.inner ++ '}' :: x.after := by simpa using hmore.symm
      obtain ⟨rfl, rfl⟩ := Balanced.eq_of_close hp hinner hclose
      exact .inr ⟨rfl, rfl, rfl⟩
    · -- the brace of the piece is closed in `front`, which then is longer than what is in the braces
      obtain ⟨rfl, hclose⟩ : '{' = o ∧ inner ++ ['}'] = front ++ '{' :: more := by
        simpa [Piece.source] using hsource
      have hclosed : depthAfter 1 front = some 0 := balanced_iff.1 hfront
      rcases prefix_or_eq_append hclose.symm with hpre | ⟨tail, -, htail⟩
      · exact absurd hpre (Balanced.not_prefix hp hclosed)
      · exact absurd htail (by simp)

/-- The braced pieces are the outermost spans. -/
theorem mem_spansOf_iff {x : Span} : ∀ {pieces : List Piece} {before : List Char},
    (∀ p ∈ pieces, p.IsWhole) → Balanced before →
    (x ∈ spansOf before pieces ↔
      x.IsOutermost (before ++ pieces.flatMap Piece.source) ∧ before <+: x.before)
  | [], before, _, _ => by
    simp only [spansOf, List.not_mem_nil, List.flatMap_nil, List.append_nil, false_iff, not_and]
    rintro hx ⟨front, hfront⟩
    have hlength := congrArg List.length hx.eq
    rw [← hfront] at hlength
    simp [Span.text, Piece.source] at hlength
  | p :: pieces, before, hp, hb => by
    rw [List.forall_mem_cons] at hp
    have ih := mem_spansOf_iff (x := x) hp.2 (hb.append hp.1.balanced)
    rw [List.append_assoc, ← List.flatMap_cons] at ih
    have hlater : x ∈ spansOf (before ++ p.source) pieces →
        x.IsOutermost (before ++ (p :: pieces).flatMap Piece.source) ∧ before <+: x.before :=
      fun hx => ⟨(ih.1 hx).1, (List.prefix_append _ _).trans (ih.1 hx).2⟩
    have hcases : x.IsOutermost (before ++ (p :: pieces).flatMap Piece.source) → before <+: x.before →
        x ∈ spansOf (before ++ p.source) pieces ∨
          p = .braced x.inner ∧ x = ⟨before, x.inner, pieces.flatMap Piece.source⟩ := by
      rintro hx ⟨front, hfront⟩
      have heq : p.source ++ pieces.flatMap Piece.source = front ++ x.text ++ x.after := by
        simpa [← hfront] using hx.eq
      rcases hp.1.prefix_or_eq (hb.of_append (hfront ▸ hx.before)) hx.inner heq with
        hafter | ⟨hp', rfl, hrest⟩
      · exact .inl (ih.2 ⟨hx, hfront ▸ (List.prefix_append_right_inj before).2 hafter⟩)
      · rw [List.append_nil] at hfront
        exact .inr ⟨hp', by rw [hfront, hrest]⟩
    cases p with
    | plain text =>
      refine ⟨hlater, fun h => (hcases h.1 h.2).resolve_right fun h' => ?_⟩
      cases h'.1
    | braced inner =>
      rw [spansOf, List.mem_cons]
      constructor
      · rintro (rfl | hx)
        · exact ⟨⟨by simp [Span.text], hb, hp.1⟩, List.prefix_rfl⟩
        · exact hlater hx
      · rintro ⟨hx, hpre⟩
        rcases hcases hx hpre with h | ⟨hp', hx'⟩
        · exact .inr h
        · cases hp'
          exact .inl hx'

theorem start_le_of_mem_spansOf {x : Span} : ∀ {pieces : List Piece} {before : List Char},
    x ∈ spansOf before pieces → utf8Length before ≤ x.start
  | .plain text :: pieces, before, hx => by
    have hle : utf8Length (before ++ text) ≤ x.start := start_le_of_mem_spansOf hx
    rw [Text.utf8Length_append] at hle
    omega
  | .braced inner :: pieces, before, hx => by
    rcases List.mem_cons.1 hx with rfl | hx
    · exact Nat.le_refl _
    · have hle : utf8Length (before ++ (Piece.braced inner).source) ≤ x.start :=
        start_le_of_mem_spansOf hx
      rw [Text.utf8Length_append] at hle
      omega

/-- The spans do not overlap. -/
theorem pairwise_spansOf : ∀ (pieces : List Piece) (before : List Char),
    (spansOf before pieces).Pairwise fun x y => x.stop ≤ y.start
  | [], _ => .nil
  | .plain text :: pieces, before => pairwise_spansOf pieces (before ++ text)
  | .braced inner :: pieces, before =>
    .cons (fun _ => start_le_of_mem_spansOf)
      (pairwise_spansOf pieces (before ++ (Piece.braced inner).source))

/-- There are no braces outside of the spans. -/
theorem exists_span_of_brace {front back : List Char} (hc : c = '{' ∨ c = '}') :
    ∀ {pieces : List Piece} {before : List Char}, (∀ p ∈ pieces, p.IsWhole) →
    before ++ pieces.flatMap Piece.source = front ++ c :: back → before <+: front →
    ∃ x ∈ spansOf before pieces, x.start ≤ utf8Length front ∧ utf8Length front < x.stop
  | [], before, _, h, ⟨more, hmore⟩ => by
    have hlength := congrArg List.length h
    rw [← hmore] at hlength
    simp at hlength
  | p :: pieces, before, hp, h, ⟨more, hmore⟩ => by
    rw [List.forall_mem_cons] at hp
    have hrest : p.source ++ pieces.flatMap Piece.source = more ++ c :: back := by
      simpa [← hmore] using h
    rcases prefix_or_eq_append hrest with hpre | ⟨tail, htail, -⟩
    · have heq : before ++ p.source ++ pieces.flatMap Piece.source = front ++ c :: back := by
        rw [← h, List.append_assoc, List.flatMap_cons]
      have hpre' : before ++ p.source <+: front := hmore ▸ (List.prefix_append_right_inj before).2 hpre
      obtain ⟨x, hx, hin⟩ := exists_span_of_brace hc hp.2 heq hpre'
      refine ⟨x, ?_, hin⟩
      cases p with
      | plain text => exact hx
      | braced inner => exact List.mem_cons_of_mem _ hx
    · have hmem : c ∈ p.source := htail ▸ List.mem_append_right _ (List.mem_cons_self ..)
      cases p with
      | plain text => exact absurd hmem (hc.elim (· ▸ hp.1.1) (· ▸ hp.1.2))
      | braced inner =>
        refine ⟨_, List.mem_cons_self .., ?_, ?_⟩
        · show utf8Length before ≤ utf8Length front
          rw [← hmore, Text.utf8Length_append]
          omega
        · have hsize : 0 < c.utf8Size := c.utf8Size_pos
          show utf8Length front < utf8Length (before ++ (Piece.braced inner).source)
          rw [htail, ← List.append_assoc, hmore, Text.utf8Length_append, utf8Length]
          omega

/-- The outermost spans of a text with balanced braces, in order. -/
def spans (cs : List Char) : List Span := spansOf [] ((cutBraces cs).getD [])

/-- What there is of a text that is cut. -/
theorem exists_cutBraces (h : Balanced cs) : ∃ pieces, cutBraces cs = some pieces ∧
    (∀ p ∈ pieces, p.IsWhole) ∧ pieces.flatMap Piece.source = cs ∧
    spans cs = spansOf [] pieces := by
  have hsome := (isSome_cutBracesFrom 0 [] cs).2 (balanced_iff.1 h)
  obtain ⟨pieces, hcut⟩ := Option.isSome_iff_exists.1 hsome
  refine ⟨pieces, hcut, isWhole_of_cutBracesFrom 0 [] cs hcut isPending_nil,
    source_of_cutBracesFrom 0 [] cs hcut, ?_⟩
  rw [spans, cutBraces, hcut]
  rfl

theorem mem_spans_iff {x : Span} (h : Balanced cs) : x ∈ spans cs ↔ x.IsOutermost cs := by
  obtain ⟨pieces, -, hwhole, hsource, hspans⟩ := exists_cutBraces h
  rw [hspans, mem_spansOf_iff hwhole (balanced_iff.2 rfl), List.nil_append, hsource]
  exact and_iff_left List.nil_prefix

theorem pairwise_spans (cs : List Char) : (spans cs).Pairwise fun x y => x.stop ≤ y.start :=
  pairwise_spansOf _ _

/-! ### Placeholders -/

/-- A placeholder is what is written in a span: the name is up to the first colon. -/
structure Placeholder.Fills (p : Placeholder) (x : Span) : Prop where
  start : p.start = x.start
  stop : p.stop = x.stop
  inner : p.inner = x.inner
  name_ne : p.name ≠ ""
  notMem_name : ':' ∉ p.name.toList
  pattern_ne : p.pattern ≠ some ""

namespace Template

/-- The placeholder of a span. -/
def readSpan (x : Span) : Except Fault Placeholder :=
  (readPlaceholder x.inner).map fun (name, pattern) => ⟨name, pattern, x.start, x.stop⟩

/-- A span is refused if it lacks a part. -/
theorem readSpan_of_lacksPart {x : Span} (h : x.LacksPart) :
    readSpan x = .error (.missingPart (String.ofList x.text)) := by
  rw [readSpan, readPlaceholder]
  rcases h with h | ⟨name, pattern, h, hname, hempty⟩
  · simp [h, Text.cutAt, Except.map, Span.text]
  · rw [h, Text.cutAt_append hname]
    have hlacks : (name.isEmpty || pattern.isEmpty) = true := by simpa using hempty
    simp [hlacks, Except.map, Span.text, h]

theorem readSpan_of_not_lacksPart {x : Span} (h : ¬ x.LacksPart) :
    ∃ p, readSpan x = .ok p ∧ p.Fills x := by
  rw [readSpan, readPlaceholder]
  rw [Span.LacksPart, not_or, not_exists] at h
  obtain ⟨hinner, hparts⟩ := h
  cases hcut : Text.cutAt ':' x.inner with
  | none =>
    have hempty : x.inner.isEmpty = false := by simpa using hinner
    have hcolon : ':' ∉ x.inner := Text.cutAt_eq_none_iff.1 hcut
    exact ⟨⟨String.ofList x.inner, none, x.start, x.stop⟩, by simp [hempty, Except.map],
      rfl, rfl, String.toList_ofList, by simpa using hinner, by simpa using hcolon, by simp⟩
  | some cut =>
    obtain ⟨name, pattern⟩ := cut
    have heq := Text.eq_append_of_cutAt hcut
    have hcolon := Text.notMem_of_cutAt hcut
    obtain ⟨hname, hpattern⟩ : name ≠ [] ∧ pattern ≠ [] := by
      simpa using fun h => hparts name ⟨pattern, heq, hcolon, h⟩
    refine ⟨⟨String.ofList name, some (String.ofList pattern), x.start, x.stop⟩, ?_, rfl, rfl,
      ?_, ?_, ?_, ?_⟩
    · simp [hname, hpattern, Except.map]
    · simp [Placeholder.inner, heq]
    · simpa using hname
    · simpa using hcolon
    · simpa using hpattern

/-- The placeholders are read from the spans. -/
theorem segmentsFrom_map (source : String) : ∀ (pieces : List Piece) (before : List Char),
    (segmentsFrom (utf8Length before) pieces).map
        (fun segments => (Template.mk source segments).placeholders) =
      (spansOf before pieces).mapM readSpan
  | [], _ => rfl
  | .plain text :: pieces, before => by
    rw [spansOf, ← segmentsFrom_map source pieces, segmentsFrom, Text.utf8Length_append]
    cases segmentsFrom (utf8Length before + utf8Length text) pieces <;> rfl
  | .braced inner :: pieces, before => by
    have hstop : utf8Length before + utf8Length inner + 2 =
        utf8Length (before ++ (Piece.braced inner).source) := (Span.stop_eq ⟨before, inner, []⟩).symm
    rw [spansOf, List.mapM_cons, ← segmentsFrom_map source pieces, segmentsFrom, readSpan, hstop]
    cases readPlaceholder inner with
    | error fault => rfl
    | ok read =>
      show Except.map _ (segmentsFrom (utf8Length (before ++ (Piece.braced inner).source)) pieces >>= _) = _
      cases segmentsFrom (utf8Length (before ++ (Piece.braced inner).source)) pieces <;> rfl

variable {s : String}

/-- If there is a fault, it is that of the spans, and otherwise there is one placeholder for each span. -/
theorem map_parse (h : Balanced s.toList) :
    (parse s).map placeholders = (spans s.toList).mapM readSpan := by
  obtain ⟨pieces, hcut, -, -, hspans⟩ := exists_cutBraces h
  rw [hspans, parse, hcut, ← segmentsFrom_map s pieces []]
  cases hsegments : segmentsFrom 0 pieces <;> simp [hsegments, utf8Length, Except.map]

theorem parse_of_not_balanced (h : ¬ Balanced s.toList) : parse s = .error (.unbalancedBraces s) := by
  have hcut : cutBraces s.toList = none := by
    rw [← Option.not_isSome_iff_eq_none, cutBraces, isSome_cutBracesFrom, ← balanced_iff]
    exact h
  rw [parse, hcut]

theorem error_of_readSpan {x : Span} {fault : Fault} (h : readSpan x = .error fault) :
    x.LacksPart ∧ fault = .missingPart (String.ofList x.text) := by
  by_cases hx : x.LacksPart
  · rw [readSpan_of_lacksPart hx] at h
    cases h
    exact ⟨hx, rfl⟩
  · obtain ⟨p, hp, -⟩ := readSpan_of_not_lacksPart hx
    rw [hp] at h
    cases h

/-- The first span that lacks a part is the one that is refused. -/
theorem parse_eq_error_iff {fault : Fault} (h : Balanced s.toList) : parse s = .error fault ↔
    ∃ x : Span, x.IsOutermost s.toList ∧ x.LacksPart ∧
      (∀ y : Span, y.IsOutermost s.toList → y.LacksPart → x.start ≤ y.start) ∧
      fault = .missingPart (String.ofList x.text) := by
  have hmap : parse s = .error fault ↔ (spans s.toList).mapM readSpan = .error fault := by
    rw [← map_parse h]
    cases parse s <;> simp [Except.map]
  rw [hmap, mapM_eq_error_iff]
  have hordered := pairwise_spans s.toList
  constructor
  · rintro ⟨earlier, x, later, hsplit, hearlier, hx⟩
    obtain ⟨hlacks, rfl⟩ := error_of_readSpan hx
    have hmem : x ∈ spans s.toList := hsplit ▸ List.mem_append_right _ (List.mem_cons_self ..)
    refine ⟨x, (mem_spans_iff h).1 hmem, hlacks, fun y hy hylacks => ?_, rfl⟩
    rw [← mem_spans_iff h, hsplit] at hy
    rw [hsplit] at hordered
    rcases List.mem_append.1 hy with hy | hy
    · obtain ⟨p, hp⟩ := hearlier y hy
      rw [readSpan_of_lacksPart hylacks] at hp
      cases hp
    · rcases List.mem_cons.1 hy with rfl | hy
      · exact Nat.le_refl _
      · have hle := (List.pairwise_cons.1 (List.pairwise_append.1 hordered).2.1).1 y hy
        exact Nat.le_trans (Nat.le_of_lt x.start_lt_stop) hle
  · rintro ⟨x, hx, hlacks, hfirst, rfl⟩
    obtain ⟨earlier, later, hsplit⟩ := List.append_of_mem ((mem_spans_iff h).2 hx)
    refine ⟨earlier, x, later, hsplit, fun y hy => ?_, readSpan_of_lacksPart hlacks⟩
    have hmem : y ∈ spans s.toList := hsplit ▸ List.mem_append_left _ hy
    rw [hsplit] at hordered
    have hbefore := (List.pairwise_append.1 hordered).2.2 y hy x (List.mem_cons_self ..)
    by_cases hylacks : y.LacksPart
    · have hle := hfirst y ((mem_spans_iff h).1 hmem) hylacks
      exact absurd (Nat.lt_of_le_of_lt hle y.start_lt_stop) (Nat.not_lt.2 hbefore)
    · obtain ⟨p, hp, -⟩ := readSpan_of_not_lacksPart hylacks
      exact ⟨p, hp⟩

theorem exists_parse_iff (h : Balanced s.toList) :
    (∃ t, parse s = .ok t) ↔ ∀ x : Span, x.IsOutermost s.toList → ¬ x.LacksPart := by
  constructor
  · rintro ⟨t, ht⟩ x hx hlacks
    have hread := map_parse h
    rw [ht] at hread
    obtain ⟨p, -, hp⟩ := (mem_of_mapM hread.symm).2.1 x ((mem_spans_iff h).2 hx)
    rw [readSpan_of_lacksPart hlacks] at hp
    cases hp
  · intro hparts
    cases hparse : parse s with
    | ok t => exact ⟨t, rfl⟩
    | error fault =>
      obtain ⟨x, hx, hlacks, -⟩ := (parse_eq_error_iff h).1 hparse
      exact absurd hlacks (hparts x hx)

theorem source_of_parse {t : Template} (ht : parse s = .ok t) : t.source = s := by
  unfold parse at ht
  split at ht
  · cases ht
  · next pieces _ =>
    cases hsegments : segmentsFrom 0 pieces with
    | error fault => rw [hsegments] at ht; cases ht
    | ok segments =>
      rw [hsegments] at ht
      cases ht
      rfl

theorem fills_of_readSpan {x : Span} {p : Placeholder} (h : readSpan x = .ok p) : p.Fills x := by
  by_cases hx : x.LacksPart
  · rw [readSpan_of_lacksPart hx] at h
    cases h
  · obtain ⟨p', hp', hfills⟩ := readSpan_of_not_lacksPart hx
    rw [h] at hp'
    cases hp'
    exact hfills

end Template

/-- The placeholders are the outermost spans of the text, from left to right, and leave out no brace. -/
structure Decomposes (cs : List Char) (ps : List Placeholder) : Prop where
  fills : ∀ p ∈ ps, ∃ x : Span, x.IsOutermost cs ∧ p.Fills x
  complete : ∀ x : Span, x.IsOutermost cs → ∃ p ∈ ps, p.Fills x
  nonempty : ∀ p ∈ ps, p.start < p.stop
  ordered : ps.Pairwise fun p q => p.stop ≤ q.start
  covers : ∀ front c back, cs = front ++ c :: back → c = '{' ∨ c = '}' →
    ∃ p ∈ ps, p.start ≤ utf8Length front ∧ utf8Length front < p.stop

/-- A byte offset in a text that is not inside of a character. -/
def IsBoundary (cs : List Char) (n : Nat) : Prop :=
  ∃ front back, cs = front ++ back ∧ utf8Length front = n

/-- A span and what is between its braces can be taken from the text by their offsets. -/
theorem Span.IsOutermost.isBoundary {x : Span} {cs : List Char} (h : x.IsOutermost cs) :
    IsBoundary cs x.start ∧ IsBoundary cs (x.start + 1) ∧
      IsBoundary cs (x.stop - 1) ∧ IsBoundary cs x.stop := by
  have hopen : '{'.utf8Size = 1 := rfl
  refine ⟨⟨x.before, x.text ++ x.after, by rw [h.eq, List.append_assoc], rfl⟩,
    ⟨x.before ++ ['{'], x.inner ++ '}' :: x.after, ?_, ?_⟩,
    ⟨x.before ++ '{' :: x.inner, '}' :: x.after, ?_, ?_⟩,
    ⟨x.before ++ x.text, x.after, h.eq, rfl⟩⟩
  · simp [h.eq, Span.text, Piece.source]
  · simp [Span.start, utf8Length, hopen]
  · simp [h.eq, Span.text, Piece.source]
  · rw [x.stop_eq, Text.utf8Length_append, utf8Length, hopen]
    simp only [Span.start]
    omega

theorem Template.decomposes_of_parse {s : String} {t : Template} (h : Balanced s.toList)
    (ht : Template.parse s = .ok t) : Decomposes s.toList t.placeholders := by
  have hread : (spans s.toList).mapM Template.readSpan = .ok t.placeholders := by
    rw [← Template.map_parse h, ht]
    rfl
  obtain ⟨hof, hhas, -⟩ := mem_of_mapM hread
  have hfilled (x : Span) (hx : x ∈ spans s.toList) : ∃ p ∈ t.placeholders, p.Fills x := by
    obtain ⟨p, hp, hxp⟩ := hhas x hx
    exact ⟨p, hp, Template.fills_of_readSpan hxp⟩
  refine ⟨fun p hp => ?_, fun x hx => hfilled x ((mem_spans_iff h).2 hx), fun p hp => ?_, ?_, ?_⟩
  · obtain ⟨x, hx, hxp⟩ := hof p hp
    exact ⟨x, (mem_spans_iff h).1 hx, Template.fills_of_readSpan hxp⟩
  · obtain ⟨x, -, hxp⟩ := hof p hp
    have hfills := Template.fills_of_readSpan hxp
    rw [hfills.start, hfills.stop]
    exact x.start_lt_stop
  · refine pairwise_of_mapM (fun x y p q hle hp hq => ?_) hread (pairwise_spans s.toList)
    rw [(Template.fills_of_readSpan hp).stop, (Template.fills_of_readSpan hq).start]
    exact hle
  · intro front c back hs hc
    obtain ⟨pieces, -, hwhole, hsource, hspans⟩ := exists_cutBraces h
    have heq : [] ++ pieces.flatMap Piece.source = front ++ c :: back := by
      rw [hsource, List.nil_append, hs]
    obtain ⟨x, hx, hin⟩ := exists_span_of_brace hc hwhole heq List.nil_prefix
    obtain ⟨p, hp, hfills⟩ := hfilled x (hspans ▸ hx)
    rw [← hfills.start, ← hfills.stop] at hin
    exact ⟨p, hp, hin⟩

/-- A template with unbalanced braces is refused as a whole. One with balanced braces is refused for its
first outermost span without a name, or with a colon and no pattern, and if there is none its placeholders
are its outermost spans. No offset of a span is inside of a character. -/
theorem Template.parse_decomposes (s : String) :
    (∀ w, Template.parse s = .error (.unbalancedBraces w) ↔ ¬ Balanced s.toList ∧ w = s) ∧
    (∀ w, Template.parse s = .error (.missingPart w) ↔ Balanced s.toList ∧
      ∃ x : Span, x.IsOutermost s.toList ∧ x.LacksPart ∧
        (∀ y : Span, y.IsOutermost s.toList → y.LacksPart → x.start ≤ y.start) ∧
        w = String.ofList x.text) ∧
    ((∃ t, Template.parse s = .ok t) ↔ Balanced s.toList ∧
      ∀ x : Span, x.IsOutermost s.toList → ¬ x.LacksPart) ∧
    (∀ t, Template.parse s = .ok t → t.source = s ∧ Decomposes s.toList t.placeholders) ∧
    (∀ x : Span, x.IsOutermost s.toList → IsBoundary s.toList x.start ∧
      IsBoundary s.toList (x.start + 1) ∧ IsBoundary s.toList (x.stop - 1) ∧
      IsBoundary s.toList x.stop) := by
  have hbad (h : ¬ Balanced s.toList) := Template.parse_of_not_balanced h
  refine ⟨fun w => ?_, fun w => ?_, ?_, fun t ht => ?_, fun x hx => hx.isBoundary⟩
  · by_cases h : Balanced s.toList
    · simp only [Template.parse_eq_error_iff h, reduceCtorEq, and_false, exists_false, h,
        not_true_eq_false, false_and]
    · rw [hbad h]
      simp [h, eq_comm]
  · by_cases h : Balanced s.toList
    · simp only [Template.parse_eq_error_iff h, Template.Fault.missingPart.injEq, h, true_and]
    · rw [hbad h]
      simp [h]
  · by_cases h : Balanced s.toList
    · simp only [Template.exists_parse_iff h, h, true_and]
    · rw [hbad h]
      simp [h]
  · by_cases h : Balanced s.toList
    · exact ⟨Template.source_of_parse ht, Template.decomposes_of_parse h ht⟩
    · rw [hbad h] at ht
      cases ht

/-- Braces in the pattern of the first placeholder, and a character of two bytes between the two. -/
theorem Template.decomposes_nested : ∃ t, Template.parse "/{a:[{x}]+}é{b}" = .ok t ∧
    t.placeholders = [⟨"a", some "[{x}]+", 1, 11⟩, ⟨"b", none, 13, 16⟩] ∧
    Decomposes "/{a:[{x}]+}é{b}".toList t.placeholders := by
  have hparse : Template.parse "/{a:[{x}]+}é{b}" = .ok ⟨"/{a:[{x}]+}é{b}", [.literal "/",
      .placeholder ⟨"a", some "[{x}]+", 1, 11⟩, .literal "é", .placeholder ⟨"b", none, 13, 16⟩,
      .literal ""]⟩ := by decide +kernel
  exact ⟨_, hparse, rfl, ((Template.parse_decomposes _).2.2.2.1 _ hparse).2⟩

end TraefikUpgrade.Rule
