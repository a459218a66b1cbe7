/-
# The upgrade of a text is the expansion of its expression

The upgrade of a rule edits its text and never looks at its tokens or its expression. `Respelled` says
what that does to the tokens: the calls that are found are replaced by their forms, and every other token
stays (`Scanned.respelled`). On the tokens of an expression this is the expansion of the expression
(`Derives.expanded`), so the new text of a rule is read as the expansion of the rule (`upgradeText_spec`).
What is found elsewhere, as in a string, does no harm if it stays as it is (`newText_keepCalls`).

Key definitions: `Respelled`, `newText`.
Key theorems: `Scanned.respelled`, `Derives.expanded`, `newText_of_scanned`, `upgradeText_spec`,
`upgradeText_of_plain`.
-/
import TraefikUpgrade.Proofs.Rule.Expansion
import TraefikUpgrade.Proofs.Rule.Validation

namespace TraefikUpgrade.Rule

open Text (utf8Length)

variable [Regex.Limits] {found : Nat → Bool} {total : Nat}

/-- What becomes of the tokens when the calls at the places `found` are replaced by their forms. -/
inductive Respelled (found : Nat → Bool) :
    List Located → Except Pattern.Fault (List Token) → Prop
  | nil : Respelled found [] (.ok [])
  | copy {t : Located} {tokens : List Located} {result : Except Pattern.Fault (List Token)} :
    found t.offset = false → Respelled found tokens result →
      Respelled found (t :: tokens) (result.map (t.token :: ·))
  | fault {c : Call} {tokens rest : List Located} {fault : Pattern.Fault} :
    found c.offset = true → Arguments tokens c.args rest → c.forms = .error fault →
      Respelled found (⟨c.offset, .identifier c.name⟩ :: tokens) (.error fault)
  | call {c : Call} {tokens rest : List Located} {fs : List Call}
    {result : Except Pattern.Fault (List Token)} :
    found c.offset = true → Arguments tokens c.args rest → c.forms = .ok fs → fs ≠ [] →
      Respelled found rest result →
      Respelled found (⟨c.offset, .identifier c.name⟩ :: tokens) (result.map (anyTokens fs ++ ·))

/-! ### The new text and the new tokens -/

/-- The pieces of an upgraded text are read as the tokens, and begin no name unless the text did. -/
def Reread (cs : List Char) (result : Except Pattern.Fault (List Token))
    (pieces : Except Pattern.Fault (List (List Char))) : Prop :=
  match result, pieces with
  | .error fault, .error fault' => fault = fault'
  | .ok tokens, .ok pieces =>
    (beginsInName pieces.flatten = true → beginsInName cs = true) ∧
      ∀ total, ∃ located : List Located, located.map Located.token = tokens ∧
        tokensFrom total pieces.flatten = .ok located
  | _, _ => False

theorem mapM_other (cs : List Char) (pieces : List Fragment) :
    (cs.map Fragment.other ++ pieces).mapM upgradeFragment =
      (pieces.mapM upgradeFragment).map (cs.map ([·]) ++ ·) := by
  induction cs with
  | nil => cases h : pieces.mapM upgradeFragment <;> simp [h, Except.map]
  | cons c cs ih =>
    rw [List.map_cons, List.cons_append, List.mapM_cons, ih]
    cases pieces.mapM upgradeFragment <;> rfl

omit [Regex.Limits] in
theorem flatten_map_singleton (cs : List Char) : (cs.map fun c => [c]).flatten = cs := by
  induction cs with
  | nil => rfl
  | cons c cs ih => rw [List.map_cons, List.flatten_cons, ih]; rfl

omit [Regex.Limits] in
theorem Reread.copy {blanks : List Char} {c : Char} {text ds : List Char} {t : Token}
    {result : Except Pattern.Fault (List Token)} {pieces : Except Pattern.Fault (List (List Char))}
    (hb : ∀ b ∈ blanks, Unicode.isWhiteSpace b = true)
    (ht : tokenAt c (text ++ ds) = .ok (some t, ds)) (h : Reread ds result pieces) :
    Reread (blanks ++ c :: text ++ ds) (result.map (t :: ·))
      (pieces.map ((blanks ++ c :: text).map ([·]) ++ ·)) := by
  rcases result with fault | tokens <;> rcases pieces with fault' | pieces
  · exact h
  · exact h
  · exact h
  obtain ⟨hbegins, hread⟩ := h
  have hout : ((blanks ++ c :: text).map ([·]) ++ pieces).flatten =
      blanks ++ (c :: (text ++ pieces.flatten)) := by
    rw [List.flatten_append, flatten_map_singleton, List.append_assoc, List.cons_append]
  obtain ⟨text', he, hends, htoken⟩ := exists_text_of_tokenAt ht
  obtain rfl := List.append_cancel_right he
  refine ⟨fun hbegin => ?_, fun total => ?_⟩
  · rw [hout] at hbegin
    cases blanks <;> exact hbegin
  · -- A name that is copied still ends where it did.
    have htail := htoken pieces.flatten fun hn => by
      by_cases hp : beginsInName pieces.flatten = true
      · rw [hends hn] at hbegins
        exact absurd (hbegins hp) (by simp)
      · simpa using hp
    obtain ⟨none, hnone, hblank⟩ := Spells.blanks hb total (c :: (text ++ pieces.flatten))
    obtain ⟨located, hl, hr⟩ := hread total
    rw [List.map_eq_nil_iff.1 hnone, tokensFrom_token htail, hr] at hblank
    refine ⟨⟨total - Text.utf8Length (c :: (text ++ pieces.flatten)), t⟩ :: located, ?_, ?_⟩
    · rw [List.map_cons, hl]
    · rw [hout, hblank]
      rfl

omit [Regex.Limits] in
theorem Reread.call {blanks source piece ds : List Char} {tokens : List Token}
    {result : Except Pattern.Fault (List Token)} {pieces : Except Pattern.Fault (List (List Char))}
    (hb : ∀ b ∈ blanks, Unicode.isWhiteSpace b = true) (hn : beginsInName source = true)
    (hs : Spells piece tokens) (h : Reread ds result pieces) :
    Reread (blanks ++ (source ++ ds)) (result.map (tokens ++ ·))
      ((pieces.map (piece :: ·)).map (blanks.map ([·]) ++ ·)) := by
  rcases result with fault | rest <;> rcases pieces with fault' | pieces
  · exact h
  · exact h
  · exact h
  obtain ⟨-, hread⟩ := h
  have hout : (blanks.map ([·]) ++ piece :: pieces).flatten =
      blanks ++ piece ++ pieces.flatten := by
    rw [List.flatten_append, flatten_map_singleton, List.flatten_cons, List.append_assoc]
  refine ⟨fun hbegin => ?_, fun total => ?_⟩
  · rw [hout] at hbegin
    cases blanks with
    | nil =>
      cases source with
      | nil => cases hn
      | cons c cs => exact hn
    | cons b bs => exact hbegin
  · obtain ⟨located, hl, hr⟩ := hread total
    obtain ⟨located', hl', hr'⟩ := (Spells.blanks hb).append hs total pieces.flatten
    refine ⟨located' ++ located, ?_, ?_⟩
    · rw [List.map_append, hl, hl']
      rfl
    · rw [hout, hr', hr]
      rfl

/-- The upgrade of the text of a rule replaces the tokens of the calls that are found. -/
theorem Scanned.respelled : ∀ (tokens : List Located) {cs : List Char} {pieces : List Fragment},
    Scanned found total cs pieces tokens →
    ∃ result, Respelled found tokens result ∧ Reread cs result (pieces.mapM upgradeFragment)
  | [], cs, pieces, h => by
    obtain ⟨hf, hb⟩ := h.nil
    have hm : (cs.map Fragment.other).mapM upgradeFragment = .ok (cs.map ([·])) := by
      have hm := mapM_other cs []
      rw [List.append_nil, List.mapM_nil] at hm
      rw [hm]
      show Except.ok (cs.map ([·]) ++ []) = _
      rw [List.append_nil]
    refine ⟨.ok [], .nil, ?_⟩
    rw [hf, hm]
    refine ⟨fun hbegin => ?_, fun total => ?_⟩
    · rwa [flatten_map_singleton] at hbegin
    · rw [flatten_map_singleton]
      exact tokens_of_spells (.blanks hb) total
  | ⟨o, token⟩ :: tokens, cs, pieces, h => by
    by_cases hfound : found o = true
    · obtain ⟨blanks, site, source, ds, pieces', rest, hf, hb, ht, hargs, hp, hn, hs, hscan⟩ :=
        h.call hfound
      dsimp only at ht hargs
      subst ht
      have hcs : cs = blanks ++ (source ++ ds) := by
        have hcs := h.cut.flatMap_source
        rw [hf, List.flatMap_append, List.flatMap_cons, hscan.cut.flatMap_source] at hcs
        rw [← hcs, List.flatMap_map]
        simp [Fragment.source]
      rw [hf, mapM_other, List.mapM_cons]
      rcases spells_upgraded hp hs with ⟨fault, hforms, hu⟩ | ⟨fs, piece, hne, hforms, hu, hsp⟩
      · refine ⟨.error fault, .fault (c := site.call o) hfound hargs hforms, ?_⟩
        rw [hu]
        rfl
      · have hlt := hargs.length_lt
        obtain ⟨result, hr, hread⟩ := Scanned.respelled rest hscan
        refine ⟨_, .call (c := site.call o) hfound hargs hforms hne hr, ?_⟩
        have hcall := hread.call hb hn hsp
        rw [← hcs] at hcall
        rw [hu]
        cases hm : pieces'.mapM upgradeFragment <;> rw [hm] at hcall <;> exact hcall
    · have hnot : found o = false := by simpa using hfound
      obtain ⟨blanks, c, text, ds, pieces', rfl, hb, ht, hf, hscan⟩ := h.copy hnot
      obtain ⟨result, hr, hread⟩ := Scanned.respelled tokens hscan
      refine ⟨_, .copy (t := ⟨o, token⟩) hnot hr, ?_⟩
      rw [hf, mapM_other]
      exact hread.copy hb ht
termination_by tokens => tokens.length

/-! ### The new tokens and the expansion -/

omit [Regex.Limits] in
theorem map_append_append (tokens tokens' : List Token)
    (result : Except Pattern.Fault (List Token)) :
    (result.map (tokens' ++ ·)).map (tokens ++ ·) = result.map (tokens ++ tokens' ++ ·) := by
  cases result with
  | error fault => rfl
  | ok rest => exact congrArg Except.ok (List.append_assoc ..).symm

theorem Respelled.of_cons {o : Nat} {token : Token} {tokens : List Located}
    {result : Except Pattern.Fault (List Token)} (h : Respelled found (⟨o, token⟩ :: tokens) result)
    (hn : ∀ name, token ≠ .identifier name) :
    ∃ result', Respelled found tokens result' ∧ result = result'.map ([token] ++ ·) := by
  cases h with
  | copy _ h => exact ⟨_, h, rfl⟩
  | fault => exact absurd rfl (hn _)
  | call => exact absurd rfl (hn _)

theorem Respelled.of_strings {tokens rest : List Located} {values : List String}
    (hs : Strings tokens values rest) : ∀ {result : Except Pattern.Fault (List Token)},
    Respelled found tokens result →
    ∃ result', Respelled found rest result' ∧ result = result'.map (argumentTokens values ++ ·) := by
  induction hs with
  | last o q value rest =>
    intro result h
    obtain ⟨_, h1, rfl⟩ := h.of_cons (by simp)
    obtain ⟨result', h2, rfl⟩ := h1.of_cons (by simp)
    exact ⟨result', h2, map_append_append ..⟩
  | more o q value hs ih =>
    intro result h
    obtain ⟨_, h1, rfl⟩ := h.of_cons (by simp)
    obtain ⟨_, h2, rfl⟩ := h1.of_cons (by simp)
    obtain ⟨result', h3, rfl⟩ := ih h2
    refine ⟨result', h3, ?_⟩
    rw [map_append_append, map_append_append]
    cases hs <;> rfl

theorem Respelled.of_arguments {tokens rest : List Located} {args : List String}
    (ha : Arguments tokens args rest) {result : Except Pattern.Fault (List Token)}
    (h : Respelled found tokens result) :
    ∃ result', Respelled found rest result' ∧
      result = result'.map (.openParen :: argumentTokens args ++ ·) := by
  cases ha with
  | none o q =>
    obtain ⟨_, h1, rfl⟩ := h.of_cons (by simp)
    obtain ⟨result', h2, rfl⟩ := h1.of_cons (by simp)
    exact ⟨result', h2, map_append_append ..⟩
  | some o hs =>
    obtain ⟨_, h1, rfl⟩ := h.of_cons (by simp)
    obtain ⟨result', h2, rfl⟩ := Respelled.of_strings hs h1
    exact ⟨result', h2, map_append_append ..⟩

/-- The tokens of an expression become tokens of its expansion, if every form of it can be built. -/
def Expands (found : Nat → Bool) (level : Level) (e : Expr) (rest : List Located)
    (result : Except Pattern.Fault (List Token)) : Prop :=
  (∃ fault, e.expandAt found = .error fault ∧ result = .error fault) ∨
  ∃ x tokens result', e.expandAt found = .ok x ∧ Means level tokens x ∧
    Respelled found rest result' ∧ result = result'.map (tokens ++ ·)

theorem expands_call {o : Nat} {name : String} {tokens rest : List Located} {args : List String}
    {result : Except Pattern.Fault (List Token)} (ha : Arguments tokens args rest)
    (h : Respelled found (⟨o, .identifier name⟩ :: tokens) result) :
    Expands found .operand (.call ⟨name, args, o⟩) rest result := by
  unfold Expands
  rw [Expr.expandAt]
  cases h with
  | copy hnot h1 =>
    obtain ⟨result', h2, rfl⟩ := Respelled.of_arguments ha h1
    rw [if_neg (by simpa using hnot)]
    exact .inr ⟨_, _, result', rfl, Means.call ⟨name, args, o⟩, h2,
      map_append_append [.identifier name] ..⟩
  | @fault c _ _ fault hfound ha' hf =>
    obtain ⟨rfl, rfl⟩ := ha.unique ha'
    rw [if_pos hfound, Call.expand, hf]
    exact .inl ⟨fault, rfl, rfl⟩
  | @call c _ _ fs result' hfound ha' hf hne h =>
    obtain ⟨rfl, rfl⟩ := ha.unique ha'
    obtain ⟨first, others, rfl⟩ := List.exists_cons_of_ne_nil hne
    rw [if_pos hfound, Call.expand, hf]
    exact .inr ⟨_, _, result', rfl, means_anyTokens first others, h, rfl⟩

theorem Derives.expanded {level : Level} {tokens rest : List Located} {e : Expr}
    (hd : Derives level tokens e rest) : ∀ {result : Except Pattern.Fault (List Token)},
    Respelled found tokens result → Expands found level e rest result := by
  induction hd with
  | call o name ha => exact expands_call ha
  | not o _ ih =>
    intro result h
    obtain ⟨_, h1, rfl⟩ := h.of_cons (by simp)
    rcases ih h1 with ⟨fault, he, rfl⟩ | ⟨x, us, result', he, hm, h2, rfl⟩
    · exact .inl ⟨fault, by rw [Expr.expandAt, he]; rfl, rfl⟩
    · exact .inr ⟨_, _, result', by rw [Expr.expandAt, he]; rfl, hm.not, h2,
        map_append_append ..⟩
  | parens o q _ ih =>
    intro result h
    obtain ⟨_, h1, rfl⟩ := h.of_cons (by simp)
    rcases ih h1 with ⟨fault, he, rfl⟩ | ⟨x, us, _, he, hm, h2, rfl⟩
    · exact .inl ⟨fault, he, rfl⟩
    · obtain ⟨result', h3, rfl⟩ := h2.of_cons (by simp)
      refine .inr ⟨x, _, result', he, hm.parens, h3, ?_⟩
      rw [map_append_append, map_append_append]
      rfl
  | operand _ ih =>
    intro result h
    rcases ih h with hf | ⟨x, us, result', he, hm, h1, rfl⟩
    · exact .inl hf
    · exact .inr ⟨x, us, result', he, hm.operand, h1, rfl⟩
  | and o _ _ ihl ihr =>
    intro result h
    rcases ihl h with ⟨fault, he, rfl⟩ | ⟨x, us, _, hel, hml, h1, rfl⟩
    · exact .inl ⟨fault, by rw [Expr.expandAt, he]; rfl, rfl⟩
    obtain ⟨_, h2, rfl⟩ := h1.of_cons (by simp)
    rcases ihr h2 with ⟨fault, he, rfl⟩ | ⟨y, us', result', her, hmr, h3, rfl⟩
    · exact .inl ⟨fault, by rw [Expr.expandAt, hel, he]; rfl, rfl⟩
    · refine .inr ⟨_, _, result', by rw [Expr.expandAt, hel, her]; rfl, hml.and hmr, h3, ?_⟩
      rw [map_append_append, map_append_append, List.append_assoc, List.singleton_append]
  | conjunction _ ih =>
    intro result h
    rcases ih h with hf | ⟨x, us, result', he, hm, h1, rfl⟩
    · exact .inl hf
    · exact .inr ⟨x, us, result', he, hm.conjunction, h1, rfl⟩
  | or o _ _ ihl ihr =>
    intro result h
    rcases ihl h with ⟨fault, he, rfl⟩ | ⟨x, us, _, hel, hml, h1, rfl⟩
    · exact .inl ⟨fault, by rw [Expr.expandAt, he]; rfl, rfl⟩
    obtain ⟨_, h2, rfl⟩ := h1.of_cons (by simp)
    rcases ihr h2 with ⟨fault, he, rfl⟩ | ⟨y, us', result', her, hmr, h3, rfl⟩
    · exact .inl ⟨fault, by rw [Expr.expandAt, hel, he]; rfl, rfl⟩
    · refine .inr ⟨_, _, result', by rw [Expr.expandAt, hel, her]; rfl, hml.or hmr, h3, ?_⟩
      rw [map_append_append, map_append_append, List.append_assoc, List.singleton_append]

/-! ### Pieces that stay as they are -/

/-- The new text that the pieces of a text make up. -/
def newText (pieces : List Fragment) : Except Pattern.Fault (List Char) :=
  (pieces.mapM upgradeFragment).map List.flatten

theorem upgradeText_eq (rule : String) :
    upgradeText rule = (newText (fragments rule.toList)).map String.ofList := by
  unfold upgradeText newText
  cases (fragments rule.toList).mapM upgradeFragment <;> rfl

theorem newText_cons (piece : Fragment) (pieces : List Fragment) : newText (piece :: pieces) =
    upgradeFragment piece >>= fun new => (newText pieces).map (new ++ ·) := by
  unfold newText
  rw [List.mapM_cons]
  cases upgradeFragment piece with
  | error fault => rfl
  | ok new => cases pieces.mapM upgradeFragment <;> rfl

theorem newText_map_other (cs : List Char) (pieces : List Fragment) :
    newText (cs.map .other ++ pieces) = (newText pieces).map (cs ++ ·) := by
  unfold newText
  rw [mapM_other]
  cases pieces.mapM upgradeFragment with
  | error fault => rfl
  | ok new =>
    show Except.ok (cs.map ([·]) ++ new).flatten = Except.ok (cs ++ new.flatten)
    rw [List.flatten_append, flatten_map_singleton]

/-- A call that stays as it is need not be kept. -/
theorem newText_keepCalls {keep : Nat → Bool} {total : Nat} : ∀ {pieces : List Fragment},
    (∀ pre site source post, pieces = pre ++ .call site source :: post →
      keep (total - utf8Length (source ++ post.flatMap Fragment.source)) = true ∨
        upgradeFragment (.call site source) = .ok source) →
    newText (keepCalls keep total pieces) = newText pieces
  | [], _ => rfl
  | piece :: pieces, h => by
    have ih : newText (keepCalls keep total pieces) = newText pieces :=
      newText_keepCalls fun pre site source post he =>
        h (piece :: pre) site source post (congrArg (piece :: ·) he)
    cases piece with
    | other c => rw [keepCalls, newText_cons, newText_cons, ih]
    | call site source =>
      rw [keepCalls]
      split
      · rw [newText_cons, newText_cons, ih]
      · next hk =>
        have hsame := (h [] site source pieces rfl).resolve_left hk
        rw [newText_map_other, newText_cons, hsame, ih]
        rfl

/-! ### The new rule -/

omit [Regex.Limits] in
/-- A text whose tokens mean an expression is a rule with this expression. -/
theorem parse_of_means {tokens : List Token} {x : Expr} {located : List Located} {rule : String}
    (hm : Means .disjunction tokens x) (hl : located.map Located.token = tokens)
    (ht : tokenize rule = .ok located) : ∃ e, parse rule = .ok e ∧ e.unplaced = x.unplaced := by
  obtain ⟨e, hd, he⟩ := hm []
  have hmap : located.map Located.token =
      (tokens.map (Located.mk 0) ++ []).map Located.token := by
    rw [List.append_nil, List.map_map, hl]
    exact (List.map_id _).symm
  obtain ⟨e', rest', hd', he', hr⟩ := hd.congr hmap
  rw [List.map_nil, List.map_eq_nil_iff] at hr
  subst hr
  exact ⟨e', parse_of_derives ht hd', by rw [he', he]⟩

theorem expandAt_congr {f g : Nat → Bool} : ∀ {e : Expr},
    (∀ c ∈ e.calls, f c.offset = g c.offset) → e.expandAt f = e.expandAt g
  | .call c, h => by rw [Expr.expandAt, Expr.expandAt, h c (List.mem_singleton_self c)]
  | .not e, h => by rw [Expr.expandAt, Expr.expandAt, expandAt_congr (e := e) h]
  | .and l r, h => by
    rw [Expr.expandAt, Expr.expandAt, expandAt_congr fun c hc => h c (List.mem_append_left _ hc),
      expandAt_congr fun c hc => h c (List.mem_append_right _ hc)]
  | .or l r, h => by
    rw [Expr.expandAt, Expr.expandAt, expandAt_congr fun c hc => h c (List.mem_append_left _ hc),
      expandAt_congr fun c hc => h c (List.mem_append_right _ hc)]

/-- The new text of the pieces of a rule is read as the expansion of its expression at the places of the
calls among them. -/
theorem newText_of_scanned {pieces : List Fragment} {cs : List Char} {tokens : List Located} {e : Expr}
    (hd : Derives .disjunction tokens e []) (hscan : Scanned found total cs pieces tokens) :
    (∃ fault, e.expandAt found = .error fault ∧ newText pieces = .error fault) ∨
    ∃ x new e', e.expandAt found = .ok x ∧ newText pieces = .ok new ∧
      parse (String.ofList new) = .ok e' ∧ e'.unplaced = x.unplaced := by
  obtain ⟨result, hr, hread⟩ := hscan.respelled
  unfold newText
  cases hpieces : pieces.mapM upgradeFragment with
  | error fault' =>
    rw [hpieces] at hread
    rcases hd.expanded hr with ⟨fault, he, rfl⟩ | ⟨x, us, result', he, hm, hend, rfl⟩
    · cases hread
      exact .inl ⟨_, he, rfl⟩
    · cases hend
      cases hread
  | ok texts =>
    rw [hpieces] at hread
    rcases hd.expanded hr with ⟨fault, he, rfl⟩ | ⟨x, us, result', he, hm, hend, rfl⟩
    · cases hread
    cases hend
    obtain ⟨-, htokens⟩ := hread
    obtain ⟨located, hl, ht⟩ := htokens (utf8Length texts.flatten)
    have hl : located.map Located.token = us := hl.trans (List.append_nil us)
    have ht : tokenize (String.ofList texts.flatten) = .ok located := by
      rw [tokenize, String.toList_ofList, ht]
    obtain ⟨e', hparse, he'⟩ := parse_of_means hm hl ht
    exact .inr ⟨x, _, e', he, rfl, hparse, he'⟩

/-- The new text of a rule is read as the expansion of the rule at the places where a call is found, if
every call that is found is one of its expression or stays as it is. -/
theorem upgradeText_spec {rule : String} {e : Expr} (hp : parse rule = .ok e)
    (hn : ∀ pre site source post, fragments rule.toList = pre ++ .call site source :: post →
      (∃ c ∈ e.calls, c.offset = utf8Length (pre.flatMap Fragment.source)) ∨
        upgradeFragment (.call site source) = .ok source) :
    (∃ fault, e.expandAt (foundIn rule) = .error fault ∧ upgradeText rule = .error fault) ∨
    ∃ x rule' e', e.expandAt (foundIn rule) = .ok x ∧ upgradeText rule = .ok rule' ∧
      parse rule' = .ok e' ∧ e'.unplaced = x.unplaced := by
  obtain ⟨-, tokens, ht, hd⟩ := parse_eq_ok_iff.1 hp
  -- The calls of the expression are kept, and the others are taken for text between the tokens.
  obtain ⟨keep, hkeep⟩ : ∃ keep : Nat → Bool, ∀ n, keep n = true ↔ ∃ c ∈ e.calls, c.offset = n :=
    ⟨fun n => decide (∃ c ∈ e.calls, c.offset = n), fun n => decide_eq_true_iff⟩
  have hexpand : e.expandAt (fun n => foundIn rule n && keep n) = e.expandAt (foundIn rule) :=
    expandAt_congr fun c hc => by rw [(hkeep _).2 ⟨c, hc, rfl⟩, Bool.and_true]
  have htext : newText (keepCalls keep (utf8Length rule.toList) (fragments rule.toList)) =
      newText (fragments rule.toList) :=
    newText_keepCalls fun pre site source post hf =>
      (hn pre site source post hf).imp_left fun h => by
        rw [offset_of_fragments hf]
        exact (hkeep _).2 h
  have hscan := scanned_rule keep ht fun n _ hk => by
    obtain ⟨c, hc, rfl⟩ := (hkeep n).1 hk
    exact ⟨c.name, hd.named c hc⟩
  rw [upgradeText_eq, ← htext, ← hexpand]
  rcases newText_of_scanned hd hscan with ⟨fault, he, hnew⟩ | ⟨x, new, e', he, hnew, hparse, he'⟩
  · exact .inl ⟨fault, he, by rw [hnew]; rfl⟩
  · exact .inr ⟨x, _, e', he, by rw [hnew]; rfl, hparse, he'⟩

/-! ### Plainly written rules -/

/-- The new text of a plainly written rule is read as the expansion of all its calls. -/
theorem upgradeText_of_plain {rule : String} {e : Expr} (hp : parse rule = .ok e)
    (hc : ∀ c ∈ e.calls, Accepts .v2 c) (hplain : isPlain rule = true) :
    (∃ fault, e.expand = .error fault ∧ upgradeText rule = .error fault) ∨
    ∃ x rule' e', e.expand = .ok x ∧ upgradeText rule = .ok rule' ∧
      parse rule' = .ok e' ∧ e'.unplaced = x.unplaced := by
  have hfound := foundIn_iff hplain hp fun c hm => findable_of_accepts (hc c hm)
  have hexpand : e.expand = e.expandAt (foundIn rule) :=
    expandAt_congr fun c hm => ((hfound c.offset).2 ⟨c, hm, rfl⟩).symm
  rw [hexpand]
  exact upgradeText_spec hp fun pre site source post hf => .inl ((hfound _).1 (foundIn_of_fragments hf))

theorem upgrade_eq_ok_iff {rule rule' : String} {priority : Int} :
    upgrade rule priority = .ok rule' ↔
      upgradeText rule = .ok rule' ∧ ∃ route, validate rule' .v3 priority = .ok route := by
  unfold upgrade
  cases hu : upgradeText rule with
  | error fault => simp
  | ok text =>
    simp only [Except.ok.injEq]
    cases hv : validate text .v3 priority with
    | error refusal =>
      refine ⟨(nomatch ·), ?_⟩
      rintro ⟨rfl, route, h⟩
      rw [hv] at h
      cases h
    | ok route =>
      simp only [Except.ok.injEq]
      exact ⟨fun h => ⟨h, route, h ▸ hv⟩, And.left⟩

end TraefikUpgrade.Rule
