/-
# What the expression of a template matches

A text fits the segments of a template if it can be cut into the literal pieces as they stand, with a value
for each placeholder between them (`Fits`). The expression that a template without patterns compiles to is
found in just the texts that fit, or for path prefixes in those that begin with one that fits
(`isFoundIn_compiled_iff`); a query that ends with its first equals sign takes more text after it.

The expression is read as a row of items, which follows the segments (`run_regexOf`), and a row matches
what its items match in turn. So it comes to what the items of one segment match
(`matches_item_iff`): the characters of a literal piece, whatever they are, and the default pattern of
the kind.

Key definitions: `MatchKind.Allows`, `Fits`.
Key theorems: `matches_segments_iff`, `matches_endItems_iff`, `isFoundIn_compiled_iff`.
-/
import TraefikUpgrade.Proofs.Regex.Matching
import TraefikUpgrade.Proofs.Rule.Braces
import TraefikUpgrade.Proofs.Rule.Compiling

namespace TraefikUpgrade.Rule

open Regex (Ast)

/-- What a placeholder without a pattern stands for: a path segment, a label of a host name, or any text
on one line. -/
def MatchKind.Allows (kind : MatchKind) (value : List Char) : Prop :=
  match kind with
  | .path | .pathPrefix => value ≠ [] ∧ '/' ∉ value
  | .host => value ≠ [] ∧ '.' ∉ value
  | .query => '\n' ∉ value

instance : (kind : MatchKind) → (value : List Char) → Decidable (kind.Allows value)
  | .path, value | .pathPrefix, value => inferInstanceAs (Decidable (value ≠ [] ∧ '/' ∉ value))
  | .host, value => inferInstanceAs (Decidable (value ≠ [] ∧ '.' ∉ value))
  | .query, value => inferInstanceAs (Decidable ('\n' ∉ value))

/-- The text is the literal pieces of the segments, with a value that the kind allows for each placeholder
between them. -/
inductive Fits (kind : MatchKind) : List Template.Segment → List Char → Prop
  | nil : Fits kind [] []
  | literal {segments : List Template.Segment} {rest : List Char} (text : String) :
    Fits kind segments rest → Fits kind (.literal text :: segments) (text.toList ++ rest)
  | placeholder {segments : List Template.Segment} {value rest : List Char} (p : Placeholder) :
    kind.Allows value → Fits kind segments rest →
      Fits kind (.placeholder p :: segments) (value ++ rest)

variable {kind : MatchKind} {p : Placeholder} {segments : List Template.Segment} {t : Template}
  {before text after : List Char}

/-! ### The segments of a template -/

/-- The braces of a template are those of its placeholders. -/
theorem Template.notMem_of_literal {template : String} (ht : Template.parse template = .ok t)
    {text : String} (hmem : .literal text ∈ t.segments) : '{' ∉ text.toList ∧ '}' ∉ text.toList := by
  have hpiece : .plain text.toList ∈ t.segments.map Template.Segment.piece :=
    List.mem_map.2 ⟨_, hmem, rfl⟩
  exact isWhole_of_cutBracesFrom 0 [] _ (Template.cutBraces_of_parse ht) isPending_nil _ hpiece

/-! ### What the items match -/

/-- One character or more, all of them different from the one that the set leaves out. -/
theorem matches_others_iff (d : Char) :
    (Ast.row [.repetition (.set (.complement (.union .empty (.range d d)))) 1 none true]).Matches
      before text after ↔ text ≠ [] ∧ d ∉ text := by
  have hset : ∀ c, (Regex.CharSet.complement (.union .empty (.range d d))).has? c = some true ↔
      c ≠ d := by
    intro c
    have hrange : (decide (d ≤ c) && decide (c ≤ d)) = decide (c = d) := by
      rw [Bool.eq_iff_iff, Bool.and_eq_true]
      simp only [decide_eq_true_eq]
      exact ⟨fun h => Char.le_antisymm h.2 h.1, by rintro rfl; exact ⟨Char.le_refl _, Char.le_refl _⟩⟩
    have hhas : (Regex.CharSet.complement (.union .empty (.range d d))).has? c =
        some (!(false || (decide (d ≤ c) && decide (c ≤ d)))) := rfl
    rw [hhas, hrange]
    simp
  rw [Ast.matches_row_singleton, Ast.matches_repetition_iff fun _ _ _ => Ast.matches_set_iff]
  simp only [hset]
  constructor
  · rintro ⟨hlength, hall⟩
    exact ⟨List.length_pos_iff.1 hlength, fun hmem => hall d hmem rfl⟩
  · rintro ⟨hne, hnot⟩
    exact ⟨List.length_pos_iff.2 hne, fun c hmem hc => hnot (hc ▸ hmem)⟩

theorem matches_anyText_iff :
    (Ast.repetition .dot 0 none true).Matches before text after ↔ '\n' ∉ text := by
  rw [Ast.matches_repetition_iff fun _ _ _ => Ast.matches_dot_iff]
  constructor
  · exact fun h hmem => h.2 _ hmem rfl
  · exact fun h => ⟨Nat.zero_le _, fun c hmem hc => h (hc ▸ hmem)⟩

theorem bodyOf_defaultPattern (kind : MatchKind) : Regex.bodyOf kind.defaultPattern =
    Ast.row [match kind with
      | .path | .pathPrefix => .repetition (.set (.complement (.union .empty (.range '/' '/')))) 1 none true
      | .host => .repetition (.set (.complement (.union .empty (.range '.' '.')))) 1 none true
      | .query => .repetition .dot 0 none true] := by
  cases kind with
  | path | pathPrefix | host | query => decide +kernel

/-- A placeholder without a pattern matches the values that the kind allows. -/
theorem matches_item_iff (hp : p.pattern = none) :
    (p.item kind).Matches before text after ↔ kind.Allows text := by
  rw [Placeholder.item, hp, Option.getD_none, bodyOf_defaultPattern, Ast.matches_group_iff]
  cases kind with
  | path | pathPrefix | host => exact matches_others_iff _
  | query => exact Ast.matches_row_singleton.trans matches_anyText_iff

/-- The items of segments match the texts that fit. -/
theorem matches_segments_iff (hp : ∀ p, .placeholder p ∈ segments → p.pattern = none) :
    (Ast.row (segments.flatMap (segmentItems kind))).Matches before text after ↔
      Fits kind segments text := by
  induction segments generalizing before text with
  | nil =>
    refine Ast.matches_empty_iff.trans ⟨?_, ?_⟩
    · rintro rfl
      exact .nil
    · rintro ⟨⟩
      rfl
  | cons segment segments ih =>
    have ih' := fun {before text} => @ih before text fun q hq => hp q (List.mem_cons_of_mem _ hq)
    rw [List.flatMap_cons, Ast.matches_row_append]
    cases segment with
    | literal piece =>
      constructor
      · rintro ⟨first, rest, rfl, hfirst, hrest⟩
        rw [(Ast.matches_literals_iff _).1 hfirst]
        exact .literal piece (ih'.1 hrest)
      · rintro ⟨⟩
        next rest hrest =>
        exact ⟨_, rest, rfl, (Ast.matches_literals_iff _).2 rfl, ih'.2 hrest⟩
    | placeholder q =>
      have hq := hp q (List.mem_cons_self ..)
      constructor
      · rintro ⟨first, rest, rfl, hfirst, hrest⟩
        rw [segmentItems, Ast.matches_row_singleton, matches_item_iff hq] at hfirst
        exact .placeholder q hfirst (ih'.1 hrest)
      · rintro ⟨⟩
        next value rest hvalue hrest =>
        refine ⟨value, rest, rfl, ?_, ih'.2 hrest⟩
        rwa [segmentItems, Ast.matches_row_singleton, matches_item_iff hq]

theorem endsAtFirstEquals_iff {cs : List Char} :
    endsAtFirstEquals cs = true ↔ ∃ key, '=' ∉ key ∧ cs = key ++ ['='] := by
  unfold endsAtFirstEquals
  constructor
  · intro h
    split at h
    · next key value hcut =>
      obtain rfl := List.isEmpty_iff.1 h
      exact ⟨key, Text.notMem_of_cutAt hcut, Text.eq_append_of_cutAt hcut⟩
    · cases h
  · rintro ⟨key, hkey, rfl⟩
    rw [Text.cutAt_append hkey]
    rfl

/-- What comes after the segments matches at the end of the text only, except for path prefixes, and
takes no text unless the query ends with its first equals sign. -/
theorem matches_endItems_iff : (Ast.row (endItems kind t)).Matches before text after ↔
    (kind = .pathPrefix ∨ after = []) ∧ (text = [] ∨ kind = .query ∧
      (∃ key, '=' ∉ key ∧ t.source.toList = key ++ ['=']) ∧ '\n' ∉ text) := by
  have hend : ∀ {before text}, (Ast.row [.assertion .lineEnd]).Matches before text after ↔
      text = [] ∧ after = [] := Ast.matches_row_singleton.trans Ast.matches_lineEnd_iff
  rw [← endsAtFirstEquals_iff]
  cases kind with
  | pathPrefix =>
    have hitems : endItems .pathPrefix t = [] := rfl
    simp [hitems, Ast.row, Ast.matches_empty_iff]
  | path | host =>
    refine hend.trans ?_
    simp [and_comm]
  | query =>
    by_cases hv : endsAtFirstEquals t.source.toList = true
    · have hitems : endItems .query t = [.repetition .dot 0 none true] ++ [.assertion .lineEnd] := by
        simp [endItems, hv, MatchKind.anchorsEnd]
      rw [hitems, Ast.matches_row_append]
      constructor
      · rintro ⟨value, rest, rfl, hvalue, hrest⟩
        obtain ⟨rfl, hafter⟩ := hend.1 hrest
        rw [Ast.matches_row_singleton, matches_anyText_iff] at hvalue
        exact ⟨.inr hafter, .inr ⟨rfl, hv, by rwa [List.append_nil]⟩⟩
      · rintro ⟨hafter, htext⟩
        have hvalue : '\n' ∉ text := htext.elim (fun h => by simp [h]) fun h => h.2.2
        refine ⟨text, [], (List.append_nil _).symm, ?_, hend.2 ⟨rfl, by simpa using hafter⟩⟩
        rwa [Ast.matches_row_singleton, matches_anyText_iff]
    · have hitems : endItems .query t = [.assertion .lineEnd] := by
        simp [endItems, hv, MatchKind.anchorsEnd]
      rw [hitems, hend]
      simp [hv, and_comm]

/-! ### The whole expression -/

/-- The expression is found in a text if the beginning of it fits, which must be all of it except for path
prefixes. -/
theorem isFoundIn_regexItems_iff (hp : ∀ p ∈ t.placeholders, p.pattern = none) (u : List Char) :
    (Ast.row (regexItems kind t)).IsFoundIn u ↔
      ∃ text more after, u = text ++ more ++ after ∧ (kind = .pathPrefix ∨ after = []) ∧
        Fits kind t.segments text ∧ (more = [] ∨ kind = .query ∧
          (∃ key, '=' ∉ key ∧ t.source.toList = key ++ ['=']) ∧ '\n' ∉ more) := by
  have hsegments : ∀ {before text after},
      (Ast.row (t.segments.flatMap (segmentItems kind))).Matches before text after ↔
        Fits kind t.segments text :=
    matches_segments_iff fun p hmem => hp p (Template.mem_placeholders.2 hmem)
  have hrow : Ast.row (regexItems kind t) = .sequence (.assertion .lineStart)
      (Ast.row (t.segments.flatMap (segmentItems kind) ++ endItems kind t)) := rfl
  rw [hrow]
  constructor
  · rintro ⟨before, found, after, rfl, hfound⟩
    obtain ⟨first, rest, rfl, hfirst, hrest⟩ := Ast.matches_sequence_iff.1 hfound
    obtain ⟨rfl, rfl⟩ := Ast.matches_lineStart_iff.1 hfirst
    obtain ⟨text, more, rfl, htext, hmore⟩ := (Ast.matches_row_append _).1 hrest
    obtain ⟨hafter, hmore⟩ := matches_endItems_iff.1 hmore
    exact ⟨text, more, after, rfl, hafter, hsegments.1 htext, hmore⟩
  · rintro ⟨text, more, after, rfl, hafter, htext, hmore⟩
    have hstart : (Ast.assertion .lineStart).Matches [] [] (text ++ more ++ after) := .lineStart _
    refine ⟨[], text ++ more, after, rfl,
      Ast.matches_sequence_iff.2 ⟨[], text ++ more, rfl, hstart, ?_⟩⟩
    exact (Ast.matches_row_append _).2
      ⟨text, more, rfl, hsegments.2 htext, matches_endItems_iff.2 ⟨hafter, hmore⟩⟩

section
variable [Regex.Limits] {template : String}

/-- A template without patterns whose names can be those of groups compiles to the row of its items. -/
theorem parse_of_compile {compiled : Pattern} (ht : Template.parse template = .ok t)
    (hp : ∀ p ∈ t.placeholders, p.pattern = none)
    (hn : ∀ p ∈ t.placeholders, IsGroupName (groupName p.name).toList)
    (h : compile template kind = .ok compiled) :
    Regex.parse compiled.source = some (Ast.row (regexItems kind t)) := by
  have hconfined : ∀ p ∈ t.placeholders, p.isConfined = true :=
    fun p hmem => isConfined_of_default (hp p hmem) (notMem_groupName.1 (hn p hmem).notMem)
  obtain ⟨t', ast, ht', hparse, -, rfl⟩ := compile_eq_ok_iff.1 h
  cases ht.symm.trans ht'
  rw [hparse, ((parse_regexOf_iff hconfined).1 hparse).2]

theorem exists_compile_of_names (kind : MatchKind) (ht : Template.parse template = .ok t)
    (hp : ∀ p ∈ t.placeholders, p.pattern = none)
    (hn : ∀ p ∈ t.placeholders, IsGroupName (groupName p.name).toList)
    (hnodup : (t.placeholders.map fun p => groupName p.name).Nodup) :
    (∃ compiled, compile template kind = .ok compiled) ↔
      Regex.Limits.fits (regexOf kind t) = true := by
  have hnames : ∀ p ∈ t.placeholders, p.pattern = none ∧ '>' ∉ p.name.toList :=
    fun p hmem => ⟨hp p hmem, notMem_groupName.1 (hn p hmem).notMem⟩
  rw [exists_compile_iff ht fun p hmem => isConfined_of_default (hnames p hmem).1 (hnames p hmem).2,
    and_iff_left]
  exact ⟨fun p hmem => ⟨p.isNamed_iff.2 (hn p hmem), isSole_of_default (hp p hmem)⟩, hnodup⟩

end

/-- The expression of a template without patterns is found in the texts that are its literal pieces, with a
value that the kind allows for each placeholder between them, and for path prefixes in those that begin
with such a text. For a query that ends with its first equals sign any more text on the line may follow.
Of paths and hosts, a template without braces is found in itself alone. There is such an expression if
it is within the limits. -/
theorem isFoundIn_compiled_iff [Regex.Limits] (template : String) (kind : MatchKind) :
    (∀ t, Template.parse template = .ok t → (∀ p ∈ t.placeholders, p.pattern = none) →
      (∀ p ∈ t.placeholders, IsGroupName (groupName p.name).toList) →
      (t.placeholders.map fun p => groupName p.name).Nodup →
      t.segments.flatMap Template.Segment.source = template.toList ∧
      (∀ text, .literal text ∈ t.segments → '{' ∉ text.toList ∧ '}' ∉ text.toList) ∧
      ((∃ compiled, compile template kind = .ok compiled) ↔
        Regex.Limits.fits (regexOf kind t) = true) ∧
      ∀ compiled, compile template kind = .ok compiled →
        ∃ ast, Regex.parse compiled.source = some ast ∧ ∀ u, ast.IsFoundIn u ↔
          ∃ text more after, u = text ++ more ++ after ∧ (kind = .pathPrefix ∨ after = []) ∧
            Fits kind t.segments text ∧ (more = [] ∨ kind = .query ∧
              (∃ key, '=' ∉ key ∧ template.toList = key ++ ['=']) ∧ '\n' ∉ more)) ∧
    ('{' ∉ template.toList → '}' ∉ template.toList → kind = .path ∨ kind = .host →
      ∀ compiled, compile template kind = .ok compiled →
        ∃ ast, Regex.parse compiled.source = some ast ∧ ∀ u, ast.IsFoundIn u ↔ u = template.toList) := by
  constructor
  · intro t ht hp hn hnodup
    refine ⟨Template.source_of_segments ht, fun text => Template.notMem_of_literal ht,
      exists_compile_of_names kind ht hp hn hnodup, fun compiled hcompile => ?_⟩
    refine ⟨_, parse_of_compile ht hp hn hcompile, fun u => ?_⟩
    rw [isFoundIn_regexItems_iff hp, Template.source_of_parse ht]
  · intro ho hc hkind compiled hcompile
    have hnone : ∀ p, p ∉ (Template.ofText template).placeholders := fun p hmem => nomatch hmem
    have hp : ∀ p ∈ (Template.ofText template).placeholders, p.pattern = none :=
      fun p hmem => absurd hmem (hnone p)
    refine ⟨_, parse_of_compile (Template.parse_of_notMem ho hc) hp
      (fun p hmem => absurd hmem (hnone p)) hcompile, fun u => ?_⟩
    rw [isFoundIn_regexItems_iff hp]
    constructor
    · rintro ⟨text, more, after, rfl, hafter, hfits, hmore⟩
      obtain rfl : after = [] := hafter.resolve_left (by rcases hkind with rfl | rfl <;> decide)
      obtain rfl : more = [] := by
        refine hmore.resolve_right fun h => ?_
        rcases hkind with rfl | rfl <;> cases h.1
      cases hfits with
      | literal _ hrest =>
        cases hrest
        simp
    · rintro rfl
      refine ⟨template.toList, [], [], by simp, .inr rfl, ?_, .inl rfl⟩
      have hfits : Fits kind [.literal template] (template.toList ++ []) := .literal template .nil
      rwa [List.append_nil] at hfits

/-- The dots stand for themselves, and the value of the placeholder is one label. -/
theorem isFoundIn_compiled_host : ∃ compiled ast,
    compile "{sub}.a.b" .host = .ok compiled ∧ Regex.parse compiled.source = some ast ∧
      ast.IsFoundIn "www.a.b".toList ∧ ¬ ast.IsFoundIn "www.aXb".toList := by
  have hparse : Template.parse "{sub}.a.b" = .ok ⟨"{sub}.a.b",
      [.literal "", .placeholder ⟨"sub", none, 0, 5⟩, .literal ".a.b"]⟩ :=
    eq_ok_of_toOption (by decide +kernel)
  have hnamed : ∀ p ∈ [Placeholder.mk "sub" none 0 5], p.isNamed = true := by decide +kernel
  obtain ⟨-, -, hexists, hmatches⟩ := (isFoundIn_compiled_iff "{sub}.a.b" .host).1
    _ hparse (by decide) (fun p hmem => p.isNamed_iff.1 (hnamed p hmem)) (by decide +kernel)
  obtain ⟨compiled, hcompile⟩ := hexists.2 (by decide +kernel)
  obtain ⟨ast, hast, hfound⟩ := hmatches compiled hcompile
  refine ⟨compiled, ast, hcompile, hast, (hfound _).2 ⟨"www.a.b".toList, [], [], rfl, .inr rfl, ?_,
    .inl rfl⟩, fun h => ?_⟩
  · have hvalue : MatchKind.host.Allows "www".toList := by decide
    exact .literal "" (.placeholder _ hvalue (.literal ".a.b" .nil))
  · obtain ⟨text, more, after, hu, hafter, hfits, hmore⟩ := (hfound _).1 h
    obtain rfl : after = [] := hafter.resolve_left (by decide)
    obtain rfl : more = [] := hmore.resolve_right fun h => nomatch h.1
    have hend : ".a.b".toList <:+ text := by
      obtain _ | ⟨_, hrest⟩ := hfits
      obtain _ | _ | ⟨_, _, hlast⟩ := hrest
      obtain _ | ⟨_, ⟨⟩⟩ := hlast
      rw [List.append_nil]
      exact (List.suffix_append _ _).trans (List.suffix_append _ _)
    rw [List.append_nil, List.append_nil] at hu
    exact absurd (hu ▸ hend) (by decide)

end TraefikUpgrade.Rule
