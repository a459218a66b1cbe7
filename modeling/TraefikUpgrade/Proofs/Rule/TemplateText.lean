/-
# The characters of a pattern

A template is cut into pieces, each of which is read as a segment, so the segments make up the template
(`Template.source_of_segments`). The expression of a template is made of the characters of its segments and
of a few fixed ones. So a character that is not one of these and not in the template is not in the
expression (`notMem_of_compile`), and since nothing of a template gets lost on the way, its expression is
longer than the template (`length_lt_of_compile`).

Key definitions: `Placeholder.inner`, `Template.Segment.piece`, `Template.Segment.source`,
`Template.Segment.All`.
Key theorems: `Template.cutBraces_of_parse`, `Template.source_of_segments`, `all_of_parse`,
`notMem_of_compile`, `length_lt_of_compile`.
-/
import TraefikUpgrade.Proofs.Traversal
import TraefikUpgrade.Rule.Pattern

namespace TraefikUpgrade.Rule

variable {P : Char → Prop}

/-- What a placeholder is written as between its braces. -/
def Placeholder.inner (p : Placeholder) : List Char :=
  match p.pattern with
  | none => p.name.toList
  | some pattern => p.name.toList ++ ':' :: pattern.toList

/-- The piece of a text that is read as the segment. -/
def Template.Segment.piece : Template.Segment → Piece
  | .literal text => .plain text.toList
  | .placeholder p => .braced p.inner

/-- What a segment is written as. -/
def Template.Segment.source (s : Template.Segment) : List Char := s.piece.source

/-- Every character that the segment takes from its template has the property. -/
def Template.Segment.All (P : Char → Prop) : Template.Segment → Prop
  | .literal text => ∀ c ∈ text.toList, P c
  | .placeholder p =>
    (∀ c ∈ p.name.toList, P c) ∧ ∀ pattern, p.pattern = some pattern → ∀ c ∈ pattern.toList, P c

/-! ### From the template to its segments -/

theorem inner_of_readPlaceholder {inner : List Char} {name : String} {pattern : Option String}
    (h : Template.readPlaceholder inner = .ok (name, pattern)) (start stop : Nat) :
    (Placeholder.mk name pattern start stop).inner = inner := by
  unfold Template.readPlaceholder at h
  split at h
  · split at h
    · cases h
    · cases h
      exact String.toList_ofList
  · next before after hcut =>
    split at h
    · cases h
    · cases h
      rw [Text.eq_append_of_cutAt hcut]
      simp [Placeholder.inner]

/-- The segments are what the pieces are read as. -/
theorem map_piece_of_segmentsFrom : ∀ (offset : Nat) (pieces : List Piece)
    {segments : List Template.Segment}, Template.segmentsFrom offset pieces = .ok segments →
    segments.map Template.Segment.piece = pieces
  | _, [], segments, h => by
    cases h
    rfl
  | offset, .plain text :: pieces, segments, h => by
    obtain ⟨rest, hrest, hsegments⟩ := bind_eq_ok h
    cases hsegments
    rw [List.map_cons, map_piece_of_segmentsFrom _ pieces hrest, Template.Segment.piece,
      String.toList_ofList]
  | offset, .braced inner :: pieces, segments, h => by
    obtain ⟨⟨name, pattern⟩, hread, h⟩ := bind_eq_ok h
    obtain ⟨rest, hrest, hsegments⟩ := bind_eq_ok h
    cases hsegments
    rw [List.map_cons, map_piece_of_segmentsFrom _ pieces hrest, Template.Segment.piece,
      inner_of_readPlaceholder hread]

/-- The pieces of a text make up the text. -/
theorem source_of_cutBracesFrom : ∀ (depth : Nat) (current cs : List Char) {pieces : List Piece},
    cutBracesFrom depth current cs = some pieces →
    pieces.flatMap Piece.source = (if depth = 0 then [] else ['{']) ++ current.reverse ++ cs
  | 0, current, [], pieces, h => by
    rw [cutBracesFrom] at h
    cases h
    simp [Piece.source]
  | _ + 1, _, [], _, h => by
    rw [cutBracesFrom] at h
    cases h
  | 0, current, c :: cs, pieces, h => by
    rw [cutBracesFrom] at h
    split at h
    · next hc =>
      obtain ⟨rest, hr, rfl⟩ := Option.map_eq_some_iff.1 h
      rw [List.flatMap_cons, source_of_cutBracesFrom 1 [] cs hr]
      simp [Piece.source, hc]
    · split at h
      · cases h
      · rw [source_of_cutBracesFrom 0 (c :: current) cs h]
        simp
  | 1, current, c :: cs, pieces, h => by
    rw [cutBracesFrom] at h
    split at h
    · next hc =>
      obtain ⟨rest, hr, rfl⟩ := Option.map_eq_some_iff.1 h
      rw [List.flatMap_cons, source_of_cutBracesFrom 0 [] cs hr]
      simp [Piece.source, hc]
    · split at h
      · rw [source_of_cutBracesFrom 2 (c :: current) cs h]
        simp
      · rw [source_of_cutBracesFrom 1 (c :: current) cs h]
        simp
  | depth + 2, current, c :: cs, pieces, h => by
    rw [cutBracesFrom] at h
    split at h
    · rw [source_of_cutBracesFrom (depth + 1) (c :: current) cs h]
      simp
    · split at h
      · rw [source_of_cutBracesFrom (depth + 3) (c :: current) cs h]
        simp
      · rw [source_of_cutBracesFrom (depth + 2) (c :: current) cs h]
        simp

theorem Template.cutBraces_of_parse {source : String} {t : Template}
    (h : Template.parse source = .ok t) :
    cutBraces source.toList = some (t.segments.map Template.Segment.piece) := by
  unfold Template.parse at h
  split at h
  · cases h
  · next pieces hcut =>
    cases hsegments : Template.segmentsFrom 0 pieces with
    | error fault => rw [hsegments] at h; cases h
    | ok segments =>
      rw [hsegments] at h
      cases h
      rw [hcut, map_piece_of_segmentsFrom 0 pieces hsegments]

/-- The segments make up the template. -/
theorem Template.source_of_segments {source : String} {t : Template}
    (h : Template.parse source = .ok t) :
    t.segments.flatMap Template.Segment.source = source.toList :=
  calc t.segments.flatMap Template.Segment.source
      = (t.segments.map Template.Segment.piece).flatMap Piece.source := by rw [List.flatMap_map]; rfl
    _ = source.toList := source_of_cutBracesFrom 0 [] _ (Template.cutBraces_of_parse h)

theorem Template.Segment.all_of_source {s : Template.Segment} (h : ∀ c ∈ s.source, P c) : s.All P := by
  cases s with
  | literal text => exact h
  | placeholder p =>
    have hinner : ∀ c ∈ p.inner, P c := fun c hc =>
      h c (List.mem_cons_of_mem _ (List.mem_append_left _ hc))
    unfold Placeholder.inner at hinner
    cases hp : p.pattern with
    | none =>
      rw [hp] at hinner
      exact ⟨hinner, by simp [hp]⟩
    | some pattern =>
      rw [hp, List.forall_mem_append, List.forall_mem_cons] at hinner
      refine ⟨hinner.1, fun pattern' hpattern => ?_⟩
      cases hp.symm.trans hpattern
      exact hinner.2.2

/-- Reading a template invents no character. -/
theorem all_of_parse {source : String} {t : Template} (h : Template.parse source = .ok t)
    (hs : ∀ c ∈ source.toList, P c) : ∀ s ∈ t.segments, s.All P := by
  intro s hmem
  refine Template.Segment.all_of_source fun c hc => hs c ?_
  rw [← Template.source_of_segments h]
  exact List.mem_flatMap.2 ⟨s, hmem, hc⟩

/-! ### Templates without braces -/

theorem cutBracesFrom_of_notMem {cs : List Char} (ho : '{' ∉ cs) (hc : '}' ∉ cs) :
    ∀ current : List Char, cutBracesFrom 0 current cs = some [.plain (current.reverse ++ cs)] := by
  induction cs with
  | nil => simp [cutBracesFrom]
  | cons c cs ih =>
    intro current
    rw [List.mem_cons, not_or] at ho hc
    rw [cutBracesFrom, if_neg (Ne.symm ho.1), if_neg (Ne.symm hc.1), ih ho.2 hc.2]
    simp

/-- The template that is just a text. -/
def Template.ofText (text : String) : Template := ⟨text, [.literal text]⟩

/-- A text without braces is a template without placeholders. -/
theorem Template.parse_of_notMem {source : String} (ho : '{' ∉ source.toList)
    (hc : '}' ∉ source.toList) : parse source = .ok (.ofText source) := by
  rw [parse, cutBraces, cutBracesFrom_of_notMem ho hc, List.reverse_nil, List.nil_append]
  show Except.ok (Template.mk source [.literal (String.ofList source.toList)]) = _
  rw [String.ofList_toList]
  rfl

/-! ### From the segments to the expression -/

/-- The characters that expressions are written with around the text of their templates. -/
def patternChars : List Char := "\\(?P<_>[^/]+[^.]+.*)^$".toList

theorem mem_patternChars_of_all {text : List Char} (h : text.all patternChars.contains = true) :
    ∀ c ∈ text, c ∈ patternChars := by
  intro c hc
  simpa using List.all_eq_true.1 h c hc

theorem mem_patternChars_of_defaultPattern (kind : MatchKind) :
    ∀ c ∈ kind.defaultPattern.toList, c ∈ patternChars :=
  mem_patternChars_of_all (by cases kind <;> decide)

theorem segmentPattern_literal (kind : MatchKind) (text : String) :
    segmentPattern kind (.literal text) = escapeMeta text.toList := rfl

theorem segmentPattern_placeholder (kind : MatchKind) (p : Placeholder) :
    segmentPattern kind (.placeholder p) = "(?P<".toList ++ (groupName p.name).toList ++ '>' ::
      (p.pattern.getD kind.defaultPattern).toList ++ [')'] := rfl

theorem mem_segmentPattern {kind : MatchKind} {s : Template.Segment} (hs : s.All P)
    (hP : ∀ c ∈ patternChars, P c) : ∀ c ∈ segmentPattern kind s, P c := by
  cases s with
  | literal text =>
    intro c hc
    obtain ⟨d, hd, hc⟩ := List.mem_flatMap.1 hc
    split at hc
    · rcases List.mem_cons.1 hc with rfl | hc
      · exact hP _ (by decide)
      · rw [List.mem_singleton.1 hc]
        exact hs d hd
    · rw [List.mem_singleton.1 hc]
      exact hs d hd
  | placeholder p =>
    obtain ⟨hname, hpat⟩ := hs
    have hgroup : ∀ c ∈ (groupName p.name).toList, P c := by
      rw [groupName, String.toList_ofList]
      intro c hc
      obtain ⟨d, hd, rfl⟩ := List.mem_map.1 hc
      split
      · exact hP _ (by decide)
      · exact hname d hd
    have hbody : ∀ c ∈ (p.pattern.getD kind.defaultPattern).toList, P c := by
      cases hp : p.pattern with
      | none => exact fun c hc => hP c (mem_patternChars_of_defaultPattern kind c hc)
      | some pattern => exact hpat pattern hp
    intro c hc
    simp only [segmentPattern_placeholder, List.mem_append, List.mem_cons, List.not_mem_nil,
      or_false] at hc
    rcases hc with ((hc | hc) | rfl | hc) | rfl
    · exact hP c (mem_patternChars_of_all (by decide) c hc)
    · exact hgroup c hc
    · exact hP _ (by decide)
    · exact hbody c hc
    · exact hP _ (by decide)

theorem mem_regexOf {kind : MatchKind} {t : Template} (ht : ∀ s ∈ t.segments, s.All P)
    (hP : ∀ c ∈ patternChars, P c) : ∀ c ∈ (regexOf kind t).toList, P c := by
  have hany : ∀ c ∈ (if kind = .query && endsAtFirstEquals t.source.toList then
      kind.defaultPattern.toList else []), P c := by
    intro c hc
    split at hc
    · exact hP c (mem_patternChars_of_defaultPattern kind c hc)
    · cases hc
  have hend : ∀ c ∈ (if kind.anchorsEnd then ['$'] else []), P c := by
    intro c hc
    split at hc
    · rw [List.mem_singleton.1 hc]
      exact hP _ (by decide)
    · cases hc
  intro c hc
  rw [regexOf, String.toList_ofList] at hc
  rcases List.mem_append.1 hc with hc | hc
  · rcases List.mem_append.1 hc with hc | hc
    · rcases List.mem_cons.1 hc with rfl | hc
      · exact hP _ (by decide)
      · obtain ⟨s, hs, hc⟩ := List.mem_flatMap.1 hc
        exact mem_segmentPattern (ht s hs) hP c hc
    · exact hany c hc
  · exact hend c hc

/-- What `compile` gives, if it gives anything. -/
theorem compile_eq_ok_iff [Regex.Limits] {template : String} {kind : MatchKind} {p : Pattern} :
    compile template kind = .ok p ↔ ∃ t ast, Template.parse template = .ok t ∧
      Regex.parse (regexOf kind t) = some ast ∧ ast.captures.length = t.placeholders.length ∧
      p = ⟨regexOf kind t, ast.captures.length, kind⟩ := by
  unfold compile
  cases Template.parse template with
  | error fault => simp
  | ok t =>
    cases hr : Regex.parse (regexOf kind t) with
    | none => simp [hr]
    | some ast =>
      by_cases hl : ast.captures.length = t.placeholders.length
      · simp [hr, hl, eq_comm]
      · simp [hr, hl]

/-- A character of an expression is a fixed one or one of the template. -/
theorem notMem_of_compile [Regex.Limits] {c : Char} {template : String} {kind : MatchKind} {p : Pattern}
    (h : compile template kind = .ok p) (ht : c ∉ template.toList) (hc : c ∉ patternChars) :
    c ∉ p.source.toList := by
  obtain ⟨t, ast, hparse, -, -, rfl⟩ := compile_eq_ok_iff.1 h
  have hs := all_of_parse (P := (· ≠ c)) hparse fun d hd he => ht (he ▸ hd)
  exact fun hm => mem_regexOf hs (fun d hd he => hc (he ▸ hd)) c hm rfl

/-! ### The length of an expression -/

theorem length_le_escapeMeta (text : List Char) : text.length ≤ (escapeMeta text).length := by
  induction text with
  | nil => exact Nat.zero_le _
  | cons c text ih =>
    have hc : 1 ≤ (if escapedChars.contains c then ['\\', c] else [c]).length := by
      split <;> simp
    rw [escapeMeta, List.flatMap_cons, List.length_append, List.length_cons]
    rw [escapeMeta] at ih
    omega

/-- The part of the expression for a segment is not shorter than the segment. -/
theorem length_source_le (kind : MatchKind) (s : Template.Segment) :
    s.source.length ≤ (segmentPattern kind s).length := by
  cases s with
  | literal text => exact length_le_escapeMeta text.toList
  | placeholder p =>
    have hgroup : (groupName p.name).toList.length = p.name.toList.length := by simp [groupName]
    have hparen : "(?P<".toList.length = 4 := rfl
    have hinner : p.inner.length ≤
        p.name.toList.length + 1 + (p.pattern.getD kind.defaultPattern).toList.length := by
      unfold Placeholder.inner
      cases p.pattern with
      | none =>
        show p.name.toList.length ≤ _
        omega
      | some pattern =>
        show (p.name.toList ++ ':' :: pattern.toList).length ≤ p.name.toList.length + 1 + pattern.toList.length
        rw [List.length_append, List.length_cons]
        omega
    show ('{' :: p.inner ++ ['}']).length ≤ _
    rw [segmentPattern_placeholder]
    simp only [List.length_append, List.length_cons, List.length_nil, hgroup, hparen]
    omega

theorem length_segments_le (kind : MatchKind) (segments : List Template.Segment) :
    (segments.flatMap Template.Segment.source).length ≤
      (segments.flatMap (segmentPattern kind)).length := by
  induction segments with
  | nil => exact Nat.le_refl _
  | cons s segments ih =>
    have hs := length_source_le kind s
    rw [List.flatMap_cons, List.flatMap_cons, List.length_append, List.length_append]
    omega

/-- An expression is longer than its template. -/
theorem length_lt_of_compile [Regex.Limits] {template : String} {kind : MatchKind} {p : Pattern}
    (h : compile template kind = .ok p) : template.toList.length < p.source.toList.length := by
  obtain ⟨t, ast, hparse, -, -, rfl⟩ := compile_eq_ok_iff.1 h
  have hle := length_segments_le kind t.segments
  rw [Template.source_of_segments hparse] at hle
  simp only [regexOf, String.toList_ofList, List.length_append, List.length_cons]
  omega

end TraefikUpgrade.Rule
