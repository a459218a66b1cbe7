/-
# When a template compiles

That the braces of a template pair up does not make a regular expression of it. If parentheses hold the
patterns of its placeholders, the expression is read just when the names of these can be those of groups
and no two groups have one name (`read_regexOf_iff`). What was read must be within the limits of what
can be compiled, too (`Compilable`). It has more groups than the template has placeholders as soon as one
of the patterns has a group (`length_made_eq_iff`), and `compile` wants just as many
(`compile_of_isConfined`).

The patterns that placeholders have by default are no obstacle. So only the names of the placeholders and
the limits decide if a template without patterns compiles (`compile_of_defaults`). A text without braces
has no placeholders, so there the limits decide alone, and a long text is not within them
(`compile_of_long_text`).

Key definitions: `Placeholder.isSole`, `Compilable`, `IsGroupName`, `IsKeyValue`.
Key theorems: `read_regexOf_iff`, `compile_of_isConfined`, `exists_compile_iff`, `compile_of_notMem`,
`exists_upgrade_query_iff`, `compile_of_defaults`, `fits_ofText_eq_false`.
-/
import TraefikUpgrade.Proofs.Regex.Matching
import TraefikUpgrade.Proofs.Rule.Groups
import TraefikUpgrade.Proofs.Traversal
import TraefikUpgrade.Rule.Matcher

namespace TraefikUpgrade.Rule

open Regex (Ast State)

/-- Whether the pattern of a placeholder has no groups of its own. -/
def Placeholder.isSole (p : Placeholder) : Bool :=
  p.pattern.all fun pattern => (Regex.groupsWithin pattern).isEmpty

variable {kind : MatchKind} {template : String} {t : Template} {p : Placeholder}

/-! ### The groups of placeholders -/

theorem groupsWithin_defaultPattern (kind : MatchKind) :
    Regex.groupsWithin kind.defaultPattern = [] := by
  cases kind with
  | path | pathPrefix | host | query => decide +kernel

theorem isSole_iff (kind : MatchKind) : p.isSole = true ↔
    Regex.groupsWithin (p.pattern.getD kind.defaultPattern) = [] := by
  cases hp : p.pattern with
  | none => simp [Placeholder.isSole, hp, groupsWithin_defaultPattern]
  | some pattern => simp [Placeholder.isSole, hp]

/-- Each pattern with groups of its own makes more of them than there are placeholders. -/
theorem length_made_eq_iff (kind : MatchKind) :
    (t.made kind).length = t.placeholders.length ↔ ∀ p ∈ t.placeholders, p.isSole = true := by
  -- there are never fewer groups than placeholders, so surpluses do not cancel out
  have hlength : ∀ ps : List Placeholder, ps.length ≤ (ps.flatMap (Placeholder.groups kind)).length ∧
      ((ps.flatMap (Placeholder.groups kind)).length = ps.length ↔ ∀ p ∈ ps, p.isSole = true) := by
    intro ps
    induction ps with
    | nil => simp
    | cons p ps ih =>
      have hcons : ((p :: ps).flatMap (Placeholder.groups kind)).length =
          (Regex.groupsWithin (p.pattern.getD kind.defaultPattern)).length + 1 +
            (ps.flatMap (Placeholder.groups kind)).length := by
        rw [List.flatMap_cons, List.length_append, Placeholder.groups, List.length_cons]
      rw [hcons, List.forall_mem_cons, isSole_iff kind, ← List.length_eq_zero_iff, ← ih.2,
        List.length_cons]
      omega
  exact (hlength t.placeholders).2

theorem made_of_isSole (kind : MatchKind) (h : ∀ p ∈ t.placeholders, p.isSole = true) :
    t.made kind = t.groups := by
  refine ((t.groups_sublist_made kind).eq_of_length ?_).symm
  rw [(length_made_eq_iff kind).2 h, Template.groups, List.length_map]

/-! ### The expression of a template -/

/-- With confined placeholders the expression can be read if and only if they have the names of groups,
and no two of the groups that they make have one name. It is then the row of its items. -/
theorem read_regexOf_iff {ast : Ast} (hp : ∀ p ∈ t.placeholders, p.isConfined = true) :
    Regex.read (regexOf kind t) = some ast ↔
      ((∀ p ∈ t.placeholders, p.isNamed = true) ∧ ((t.made kind).filterMap id).Nodup) ∧
        ast = Ast.row (regexItems kind t) := by
  constructor
  · intro h
    have hn := isNamed_of_read h hp
    obtain ⟨branches, mode, hrun, hnodup, rfl⟩ := Regex.read_eq_some_iff.1 h
    rw [captures_of_read h hp] at hnodup
    rw [(run_regexOf kind hp hn).1, Option.some.injEq] at hrun
    refine ⟨⟨hn, hnodup⟩, ?_⟩
    rw [← Regex.close_pushAll, hrun]
  · rintro ⟨⟨hn, hnodup⟩, rfl⟩
    obtain ⟨hrun, hmade⟩ := run_regexOf kind hp hn
    refine Regex.read_eq_some_iff.2
      ⟨(State.pushAll {} (regexItems kind t)).branches, {}, ?_, ?_, (Regex.close_pushAll _).symm⟩
    · rw [hrun, State.pushAll_eq]
    · rw [Regex.captures_pushAll, hmade]
      exact hnodup

section
variable [Regex.Limits]

/-- What it takes for the expression of a template with confined placeholders to be compiled. -/
def Compilable (kind : MatchKind) (t : Template) : Prop :=
  Regex.Limits.fits (regexOf kind t) = true ∧ (∀ p ∈ t.placeholders, p.isNamed = true) ∧
    ((t.made kind).filterMap id).Nodup

instance : Decidable (Compilable kind t) :=
  inferInstanceAs (Decidable (Regex.Limits.fits (regexOf kind t) = true ∧
    (∀ p ∈ t.placeholders, p.isNamed = true) ∧ ((t.made kind).filterMap id).Nodup))

theorem parse_regexOf_iff {ast : Ast} (hp : ∀ p ∈ t.placeholders, p.isConfined = true) :
    Regex.parse (regexOf kind t) = some ast ↔
      Compilable kind t ∧ ast = Ast.row (regexItems kind t) := by
  rw [Regex.parse_eq_some_iff, read_regexOf_iff hp, Compilable, ← and_assoc]

theorem compile_of_parse_eq_none (ht : Template.parse template = .ok t)
    (h : Regex.parse (regexOf kind t) = none) :
    compile template kind = .error (.invalid (regexOf kind t)) := by
  simp [compile, ht, h]

/-- What compiling a template with confined placeholders comes to. -/
theorem compile_of_isConfined (ht : Template.parse template = .ok t)
    (hp : ∀ p ∈ t.placeholders, p.isConfined = true) : compile template kind =
      if Compilable kind t then
        if ∀ p ∈ t.placeholders, p.isSole = true then
          .ok ⟨regexOf kind t, t.placeholders.length, kind⟩
        else .error (.groupCount template t.placeholders.length (t.made kind).length)
      else .error (.invalid (regexOf kind t)) := by
  cases hparse : Regex.parse (regexOf kind t) with
  | none =>
    have hnot : ¬ Compilable kind t := fun h => by
      simpa [hparse] using (parse_regexOf_iff hp).2 ⟨h, rfl⟩
    rw [if_neg hnot, compile_of_parse_eq_none ht hparse]
  | some ast =>
    rw [if_pos ((parse_regexOf_iff hp).1 hparse).1, compile, ht]
    dsimp only
    rw [hparse]
    dsimp only
    rw [captures_of_read (Regex.parse_eq_some_iff.1 hparse).2 hp]
    by_cases hsole : ∀ p ∈ t.placeholders, p.isSole = true
    · have hlength := (length_made_eq_iff kind).2 hsole
      rw [if_pos hlength, if_pos hsole, hlength]
    · rw [if_neg (mt (length_made_eq_iff kind).1 hsole), if_neg hsole]

/-- A template with confined placeholders compiles if and only if its expression is within the limits, the
placeholders have the names of groups that differ, and their patterns have no groups. -/
theorem exists_compile_iff (ht : Template.parse template = .ok t)
    (hp : ∀ p ∈ t.placeholders, p.isConfined = true) :
    (∃ compiled, compile template kind = .ok compiled) ↔
      Regex.Limits.fits (regexOf kind t) = true ∧
        (∀ p ∈ t.placeholders, p.isNamed = true ∧ p.isSole = true) ∧
        (t.placeholders.map fun p => groupName p.name).Nodup := by
  have hnames : t.groups.filterMap id = t.placeholders.map fun p => groupName p.name := by
    simp [Template.groups, List.filterMap_map]
  rw [compile_of_isConfined ht hp]
  constructor
  · rintro ⟨compiled, h⟩
    split at h
    · next hread =>
      split at h
      · next hsole =>
        obtain ⟨hfits, hn, hnodup⟩ := hread
        rw [made_of_isSole kind hsole, hnames] at hnodup
        exact ⟨hfits, fun p hmem => ⟨hn p hmem, hsole p hmem⟩, hnodup⟩
      · cases h
    · cases h
  · rintro ⟨hfits, hall, hnodup⟩
    have hsole : ∀ p ∈ t.placeholders, p.isSole = true := fun p hmem => (hall p hmem).2
    rw [← hnames, ← made_of_isSole kind hsole] at hnodup
    rw [if_pos ⟨hfits, fun p hmem => (hall p hmem).1, hnodup⟩, if_pos hsole]
    exact ⟨_, rfl⟩

end

/-! ### Templates without patterns -/

/-- A text that can be the name of a group: a letter or a low line, and after it letters, numbers, low
lines, dots and brackets. -/
def IsGroupName (cs : List Char) : Prop :=
  ∃ first others, cs = first :: others ∧ (first = '_' ∨ Unicode.isAlphabetic first = true) ∧
    ∀ c ∈ others, c ∈ ['_', '.', '[', ']'] ∨ Unicode.isAlphabetic c = true ∨
      Unicode.isNumeric c = true

theorem Placeholder.isNamed_iff : p.isNamed = true ↔ IsGroupName (groupName p.name).toList := by
  have hpart : ∀ c, Regex.isGroupNamePart c = true ↔ c ∈ ['_', '.', '[', ']'] ∨
      Unicode.isAlphabetic c = true ∨ Unicode.isNumeric c = true := by
    simp [Regex.isGroupNamePart, or_assoc]
  rw [isNamed]
  cases (groupName p.name).toList with
  | nil => simp [IsGroupName, Regex.isGroupName]
  | cons first others =>
    rw [Regex.isGroupName, Bool.and_eq_true, Regex.isGroupNameStart, Bool.or_eq_true, beq_iff_eq,
      List.all_eq_true]
    simp only [hpart]
    constructor
    · exact fun h => ⟨first, others, rfl, h⟩
    · rintro ⟨_, _, ⟨⟩, h⟩
      exact h

/-- The name of a group has no angle bracket, which would end it. -/
theorem IsGroupName.notMem {cs : List Char} (h : IsGroupName cs) : '>' ∉ cs := by
  have hletter : Unicode.isAlphabetic '>' = false := by decide +kernel
  have hnumber : Unicode.isNumeric '>' = false := by decide +kernel
  obtain ⟨first, others, rfl, hfirst, hothers⟩ := h
  intro hmem
  rcases List.mem_cons.1 hmem with rfl | hmem
  · simp [hletter] at hfirst
  · simpa [hletter, hnumber] using hothers _ hmem

theorem isConfined_of_default (hpattern : p.pattern = none) (hname : '>' ∉ p.name.toList) :
    p.isConfined = true := by
  rw [Placeholder.isConfined, hpattern]
  simpa using hname

theorem isSole_of_default (hpattern : p.pattern = none) : p.isSole = true := by
  rw [Placeholder.isSole, hpattern]
  rfl

section
variable [Regex.Limits]

theorem groupCount_of_compile {compiled : Pattern} (ht : Template.parse template = .ok t)
    (h : compile template kind = .ok compiled) : compiled.groupCount = t.placeholders.length := by
  obtain ⟨t', ast, ht', -, hlength, rfl⟩ := compile_eq_ok_iff.1 h
  cases ht.symm.trans ht'
  exact hlength

/-- Without braces only the limits can be in the way. -/
theorem compile_of_notMem (kind : MatchKind) (ho : '{' ∉ template.toList)
    (hc : '}' ∉ template.toList) : (∃ compiled, compile template kind = .ok compiled) ↔
      Regex.Limits.fits (regexOf kind (.ofText template)) = true := by
  have hnone : ∀ p, p ∉ (Template.ofText template).placeholders := fun p hp => nomatch hp
  rw [exists_compile_iff (Template.parse_of_notMem ho hc) fun p hp => absurd hp (hnone p),
    and_iff_left]
  exact ⟨fun p hp => absurd hp (hnone p), .nil⟩

/-- An argument that is a key, its first equals sign and a value. -/
def IsKeyValue (arg : String) (key value : List Char) : Prop :=
  arg.toList = key ++ '=' :: value ∧ '=' ∉ key

omit [Regex.Limits] in
theorem isKeyValue_iff {arg : String} {key value : List Char} :
    IsKeyValue arg key value ↔ Text.cutAt '=' arg.toList = some (key, value) := by
  constructor
  · rintro ⟨harg, hkey⟩
    rw [harg, Text.cutAt_append hkey]
  · exact fun h => ⟨Text.eq_append_of_cutAt h, Text.notMem_of_cutAt h⟩

/-- A query without braces fails only if its value is not within the limits. -/
theorem exists_queryCall_iff {arg : String}
    (h : ∀ key value, IsKeyValue arg key value → '{' ∉ value ∧ '}' ∉ value) :
    (∃ call, queryCall arg = .ok call) ↔ ∀ key value, IsKeyValue arg key value → value ≠ [] →
      Regex.Limits.fits (regexOf .query (.ofText (String.ofList value))) = true := by
  simp only [isKeyValue_iff] at h ⊢
  unfold queryCall
  split
  · next hcut => simp [hcut]
  · next key hcut => simp [hcut]
  · next key value hne hcut =>
    obtain ⟨ho, hc⟩ := h key value hcut
    rw [← String.toList_ofList (l := value)] at ho hc
    have hvalue : value ≠ [] := fun hnil => hne hnil
    have hcompile : (∃ call, (do
        let pattern ← compile (String.ofList value) .query
        if hasMetacharacter (String.ofList value) then
          return callText "QueryRegexp" [String.ofList key, pattern.source]
        else return callText "Query" [String.ofList key, String.ofList value]) = .ok call) ↔
        ∃ compiled, compile (String.ofList value) .query = .ok compiled := by
      cases compile (String.ofList value) .query with
      | error fault => exact ⟨fun ⟨_, h⟩ => (nomatch h), fun ⟨_, h⟩ => (nomatch h)⟩
      | ok compiled =>
        by_cases hm : hasMetacharacter (String.ofList value) = true
        · exact ⟨fun _ => ⟨_, rfl⟩, fun _ => ⟨_, if_pos hm⟩⟩
        · exact ⟨fun _ => ⟨_, rfl⟩, fun _ => ⟨_, if_neg hm⟩⟩
    rw [hcompile, compile_of_notMem .query ho hc, hcut]
    constructor
    · rintro hfits _ _ ⟨⟩ -
      exact hfits
    · exact fun hfits => hfits key value rfl hvalue

/-- A query of values without braces is upgraded if and only if the expressions of these are within the
limits. -/
theorem exists_upgrade_query_iff {args : List String}
    (h : ∀ arg ∈ args, ∀ key value, IsKeyValue arg key value → '{' ∉ value ∧ '}' ∉ value) :
    (∃ upgraded, Matcher.query.upgrade args = .ok upgraded) ↔
      ∀ arg ∈ args, ∀ key value, IsKeyValue arg key value → value ≠ [] →
        Regex.Limits.fits (regexOf .query (.ofText (String.ofList value))) = true := by
  have hcalls : (∃ upgraded, Matcher.query.upgrade args = .ok upgraded) ↔
      ∀ arg ∈ args, ∃ call, queryCall arg = .ok call := by
    rw [← exists_mapM_iff, Matcher.upgrade]
    split
    · next hempty =>
      rw [List.isEmpty_iff.1 hempty]
      exact ⟨fun _ => ⟨[], rfl⟩, fun _ => ⟨none, rfl⟩⟩
    · cases args.mapM queryCall with
      | ok calls => exact ⟨fun _ => ⟨calls, rfl⟩, fun _ => ⟨some (anyOf calls), rfl⟩⟩
      | error fault => exact ⟨fun ⟨_, h⟩ => (nomatch h), fun ⟨_, h⟩ => (nomatch h)⟩
  rw [hcalls]
  exact forall₂_congr fun arg harg => exists_queryCall_iff (h arg harg)

end

/-- A template without patterns compiles if and only if the names of its placeholders, with low lines for
hyphens, can be those of groups and differ, and its expression is within the limits. It then has one
group for each placeholder, and otherwise no regular expression. A text without braces is a template
without placeholders, so only the limits decide if it compiles, and if a query with such a text for a
value is upgraded. -/
theorem compile_of_defaults [Regex.Limits] (template : String) (kind : MatchKind) :
    (∀ t, Template.parse template = .ok t →
      (∀ p ∈ t.placeholders, p.pattern = none ∧ '>' ∉ p.name.toList) →
      ((∃ compiled, compile template kind = .ok compiled) ↔
        ((∀ p ∈ t.placeholders, IsGroupName (groupName p.name).toList) ∧
          (t.placeholders.map fun p => groupName p.name).Nodup) ∧
        Regex.Limits.fits (regexOf kind t) = true) ∧
      (∀ compiled, compile template kind = .ok compiled →
        compiled.groupCount = t.placeholders.length) ∧
      ∀ fault, compile template kind = .error fault → fault = .invalid (regexOf kind t)) ∧
    ('{' ∉ template.toList → '}' ∉ template.toList →
      Template.parse template = .ok (.ofText template) ∧
      ((∃ compiled, compile template kind = .ok compiled) ↔
        Regex.Limits.fits (regexOf kind (.ofText template)) = true)) ∧
    ∀ args : List String,
      (∀ arg ∈ args, ∀ key value, IsKeyValue arg key value → '{' ∉ value ∧ '}' ∉ value) →
      ((∃ upgraded, Matcher.query.upgrade args = .ok upgraded) ↔
        ∀ arg ∈ args, ∀ key value, IsKeyValue arg key value → value ≠ [] →
          Regex.Limits.fits (regexOf .query (.ofText (String.ofList value))) = true) := by
  refine ⟨fun t ht hp => ?_, fun ho hc => ⟨Template.parse_of_notMem ho hc,
    compile_of_notMem kind ho hc⟩, fun args => exists_upgrade_query_iff⟩
  have hconfined : ∀ p ∈ t.placeholders, p.isConfined = true :=
    fun p hmem => isConfined_of_default (hp p hmem).1 (hp p hmem).2
  have hsole : ∀ p ∈ t.placeholders, p.isSole = true :=
    fun p hmem => isSole_of_default (hp p hmem).1
  refine ⟨?_, fun compiled => groupCount_of_compile ht, fun fault h => ?_⟩
  · rw [exists_compile_iff ht hconfined, and_comm]
    apply and_congr_left'
    apply and_congr_left'
    exact forall₂_congr fun p hmem => by rw [and_iff_left (hsole p hmem), p.isNamed_iff]
  · rw [compile_of_isConfined ht hconfined, if_pos hsole] at h
    split at h
    · cases h
    · cases h
      rfl

/-- Hyphens become low lines, which is where the two names of the second template meet. -/
theorem compile_of_defaults_hyphens :
    (∃ compiled, compile "/{a-b}/{c}" .path = .ok compiled ∧ compiled.groupCount = 2) ∧
      (¬ ∃ compiled, compile "/{a-b}/{a_b}" .path = .ok compiled) ∧
      (∃ compiled, compile "/a.b" .path = .ok compiled) ∧
      ∃ upgraded, Matcher.query.upgrade ["q=(1|2)"] = .ok upgraded := by
  have hparse : Template.parse "/{a-b}/{c}" = .ok ⟨"/{a-b}/{c}", [.literal "/",
      .placeholder ⟨"a-b", none, 1, 6⟩, .literal "/", .placeholder ⟨"c", none, 7, 10⟩, .literal ""]⟩ :=
    eq_ok_of_toOption (by decide +kernel)
  have hparse' : Template.parse "/{a-b}/{a_b}" = .ok ⟨"/{a-b}/{a_b}", [.literal "/",
      .placeholder ⟨"a-b", none, 1, 6⟩, .literal "/", .placeholder ⟨"a_b", none, 7, 12⟩,
      .literal ""]⟩ := eq_ok_of_toOption (by decide +kernel)
  obtain ⟨hfirst, -, hquery⟩ := compile_of_defaults "/{a-b}/{c}" .path
  obtain ⟨hsecond, -⟩ := compile_of_defaults "/{a-b}/{a_b}" .path
  obtain ⟨-, hplain, -⟩ := compile_of_defaults "/a.b" .path
  obtain ⟨hiff, hcount, -⟩ := hfirst _ hparse (by decide)
  obtain ⟨hiff', -⟩ := hsecond _ hparse' (by decide)
  have hnamed : ∀ p ∈ [Placeholder.mk "a-b" none 1 6, ⟨"c", none, 7, 10⟩], p.isNamed = true := by
    decide +kernel
  have hcut : Text.cutAt '=' "q=(1|2)".toList = some (['q'], "(1|2)".toList) := by decide
  refine ⟨?_, fun h => absurd (hiff'.1 h).1.2 (by decide +kernel),
    (hplain (by decide) (by decide)).2.2 (by decide +kernel), (hquery ["q=(1|2)"] ?_).2 ?_⟩
  · obtain ⟨compiled, h⟩ := hiff.2
      ⟨⟨fun p hmem => p.isNamed_iff.1 (hnamed p hmem), by decide +kernel⟩, by decide +kernel⟩
    exact ⟨compiled, h, hcount compiled h⟩
  · intro arg harg key value hvalue
    rw [List.mem_singleton.1 harg, isKeyValue_iff, hcut] at hvalue
    cases hvalue
    decide
  · intro arg harg key value hvalue _
    rw [List.mem_singleton.1 harg, isKeyValue_iff, hcut] at hvalue
    cases hvalue
    decide +kernel

/-! ### Texts that are too long -/

theorem size_row_append (word : Nat) (more : List Ast) : ∀ items : List Ast,
    (Ast.row (items ++ more)).size word = (Ast.row items).size word + (Ast.row more).size word
  | [] => (Nat.zero_add _).symm
  | item :: items => by
    show item.size word + (Ast.row (items ++ more)).size word =
      item.size word + (Ast.row items).size word + _
    rw [size_row_append word more items, Nat.add_assoc]

theorem size_literals (word : Nat) : ∀ cs : List Char,
    (Ast.row (cs.map .literal)).size word = 32 * Text.utf8Length cs
  | [] => rfl
  | c :: cs => by
    show 32 * c.utf8Size + (Ast.row (cs.map .literal)).size word = _
    rw [size_literals word cs, Text.utf8Length, Nat.mul_add]

/-- The program for a text that stands for itself has a state for each byte of it. -/
theorem fits_ofText_eq_false {text : String} (kind : MatchKind)
    (h : 10 * 1024 * 1024 ≤ 32 * Text.utf8Length text.toList) :
    Regex.Limits.documented.fits (regexOf kind (.ofText text)) = false := by
  have hnone : ∀ p, p ∉ (Template.ofText text).placeholders := fun p hp => nomatch hp
  have hread : Regex.read (regexOf kind (.ofText text)) =
      some (Ast.row (regexItems kind (.ofText text))) :=
    (read_regexOf_iff fun p hp => absurd hp (hnone p)).2
      ⟨⟨fun p hp => absurd hp (hnone p), .nil⟩, rfl⟩
  have hsize : ∀ word, 32 * Text.utf8Length text.toList ≤
      (Ast.row (regexItems kind (.ofText text))).size word := by
    intro word
    have hitems : regexItems kind (.ofText text) =
        [.assertion .lineStart] ++ (text.toList.map .literal ++ endItems kind (.ofText text)) := by
      rw [regexItems, Template.ofText, List.flatMap_singleton, segmentItems, List.singleton_append]
    rw [hitems, size_row_append, size_row_append, size_literals]
    omega
  have hlarge := hsize (if (Ast.row (regexItems kind (.ofText text))).switchesFlags then 32 else 45000)
  show (Regex.read (regexOf kind (.ofText text))).all Ast.mayFit = false
  rw [hread, Option.all_some, Ast.mayFit, Bool.and_eq_false_iff]
  exact .inr (decide_eq_false (by omega))

/-- Half a million letters are too many. -/
theorem compile_of_long_text : ∃ text : String, '{' ∉ text.toList ∧ '}' ∉ text.toList ∧
    text.toList = List.replicate 500000 'a' ∧
    compile text .path = .error (.invalid (regexOf .path (.ofText text))) := by
  have hnotMem : ∀ c, c ≠ 'a' → c ∉ (String.ofList (List.replicate 500000 'a')).toList := by
    intro c hc hmem
    rw [String.toList_ofList] at hmem
    exact hc (List.eq_of_mem_replicate hmem)
  have ho := hnotMem '{' (by decide)
  have hc := hnotMem '}' (by decide)
  refine ⟨String.ofList (List.replicate 500000 'a'), ho, hc, String.toList_ofList, ?_⟩
  refine compile_of_parse_eq_none (Template.parse_of_notMem ho hc) ?_
  have hlong : 10 * 1024 * 1024 ≤
      32 * Text.utf8Length (String.ofList (List.replicate 500000 'a')).toList := by
    have hbyte : ∀ c ∈ List.replicate 500000 'a', c.utf8Size = 1 := by
      intro c hmem
      rw [List.eq_of_mem_replicate hmem]
      rfl
    rw [String.toList_ofList, Text.utf8Length_eq_length hbyte, List.length_replicate]
    decide
  have hfits := fits_ofText_eq_false .path hlong
  rw [Regex.parse, hfits]
  rfl

end TraefikUpgrade.Rule
