/-
# The version 3 form of an expression

A call of version 2 stands for the version 3 calls `Call.forms`, one for each of its arguments, and an
expression with its calls replaced by the disjunctions of these is its expansion. The text that replaces
a call is read as the disjunction of its forms: nothing in it ends a string early, since no backtick
comes into a pattern (`notMem_of_compile`).

Key definitions: `Call.forms`, `Call.expand`, `Expr.expandAt`, `Expr.expand`.
Key theorems: `upgrade_cases`, `spells_upgraded`, `means_anyTokens`.
-/
import TraefikUpgrade.Proofs.Rule.Scan
import TraefikUpgrade.Proofs.Rule.TemplateText
import TraefikUpgrade.Proofs.Traversal
import TraefikUpgrade.Rule.Upgrade

namespace TraefikUpgrade.Rule

section
variable [Regex.Limits]

/-! ### The forms of a call -/

/-- The call for a value: the matcher itself for a text, its counterpart for expressions for a
template. -/
def templatedForm (name regexpName : String) (kind : MatchKind) (offset : Nat) (arg : String) :
    Except Pattern.Fault Call :=
  if hasMetacharacter arg then (compile arg kind).map fun p => ⟨regexpName, [p.source], offset⟩
  else .ok ⟨name, [arg], offset⟩

/-- The call for a key, or a key and a value joined by an equals sign. -/
def queryForm (offset : Nat) (arg : String) : Except Pattern.Fault Call :=
  match Text.cutAt '=' arg.toList with
  | none => .ok ⟨"Query", [arg], offset⟩
  | some (key, []) => .ok ⟨"Query", [String.ofList key], offset⟩
  | some (key, value) => (compile (String.ofList value) .query).map fun p =>
    if hasMetacharacter (String.ofList value) then
      ⟨"QueryRegexp", [String.ofList key, p.source], offset⟩
    else ⟨"Query", [String.ofList key, String.ofList value], offset⟩

/-- The call for a header name and value; a call without them stays as it is. -/
def headerForm (name : String) (c : Call) : Call :=
  match c.args with
  | key :: value :: _ => ⟨name, [key, value], c.offset⟩
  | _ => c

/-- The version 3 calls that a call stands for, of which one must hold. -/
def Call.forms (c : Call) : Except Pattern.Fault (List Call) :=
  if c.args.isEmpty then .ok [c]
  else match Matcher.ofName c.name with
    | .path => c.args.mapM (templatedForm "Path" "PathRegexp" .path c.offset)
    | .pathPrefix => c.args.mapM (templatedForm "PathPrefix" "PathRegexp" .pathPrefix c.offset)
    | .host => c.args.mapM (templatedForm "Host" "HostRegexp" .host c.offset)
    | .clientIP => .ok (c.args.map fun arg => ⟨"ClientIP", [arg], c.offset⟩)
    | .method => .ok (c.args.map fun arg => ⟨"Method", [arg], c.offset⟩)
    | .headers => .ok [headerForm "Header" c]
    | .headersRegexp => .ok [headerForm "HeaderRegexp" c]
    | .query => c.args.mapM (queryForm c.offset)
    | .opaqueCall => .ok [c]

/-- A call or one of others, associated to the left. -/
def Expr.anyOf (first : Call) (others : List Call) : Expr :=
  others.foldl (fun e c => .or e (.call c)) (.call first)

/-- A call as the disjunction of its forms. -/
def Call.expand (c : Call) : Except Pattern.Fault Expr :=
  c.forms.map fun
    | [] => .call c
    | first :: others => .anyOf first others

/-- The expression with the calls expanded at the places that `found` names. -/
def Expr.expandAt (found : Nat → Bool) : Expr → Except Pattern.Fault Expr
  | .call c => if found c.offset then c.expand else .ok (.call c)
  | .not operand => do return .not (← operand.expandAt found)
  | .and left right => do return .and (← left.expandAt found) (← right.expandAt found)
  | .or left right => do return .or (← left.expandAt found) (← right.expandAt found)

/-- The expression with every call expanded. -/
def Expr.expand : Expr → Except Pattern.Fault Expr := Expr.expandAt fun _ => true

@[simp] theorem expand_call (c : Call) : (Expr.call c).expand = c.expand := rfl

@[simp] theorem expand_not (e : Expr) :
    (Expr.not e).expand = e.expand >>= fun x => .ok (.not x) := rfl

@[simp] theorem expand_and (l r : Expr) : (Expr.and l r).expand =
    l.expand >>= fun x => r.expand >>= fun y => .ok (.and x y) := rfl

@[simp] theorem expand_or (l r : Expr) : (Expr.or l r).expand =
    l.expand >>= fun x => r.expand >>= fun y => .ok (.or x y) := rfl

/-! ### The forms and the new text of a call -/

theorem templatedCall_eq (name regexpName : String) (kind : MatchKind) (offset : Nat)
    (arg : String) : templatedCall name regexpName kind arg =
      (templatedForm name regexpName kind offset arg).map Call.text := by
  unfold templatedCall templatedForm
  split
  · cases compile arg kind <;> rfl
  · rfl

theorem queryCall_eq (offset : Nat) (arg : String) :
    queryCall arg = (queryForm offset arg).map Call.text := by
  unfold queryCall queryForm
  rcases Text.cutAt '=' arg.toList with _ | ⟨key, _ | ⟨c, cs⟩⟩
  · rfl
  · rfl
  · dsimp only
    cases compile (String.ofList (c :: cs)) .query with
    | error fault => rfl
    | ok p =>
      by_cases hm : hasMetacharacter (String.ofList (c :: cs)) = true
      · simp only [Except.map, bind, Except.bind, hm, if_true]
        rfl
      · simp only [Except.map, bind, Except.bind, hm]
        rfl

omit [Regex.Limits] in
theorem headerCall?_eq (name : String) (c : Call) :
    headerCall? name c.args = some (anyOf [(headerForm name c).text]) ∨
      headerCall? name c.args = none ∧ headerForm name c = c := by
  unfold headerForm headerCall?
  rcases c.args with _ | ⟨key, _ | ⟨value, rest⟩⟩
  · exact .inr ⟨rfl, rfl⟩
  · exact .inr ⟨rfl, rfl⟩
  · exact .inl rfl

/-- What replaces a call is the disjunction of its forms; a call that is not replaced is its own form. -/
theorem upgrade_cases (c : Call) :
    (∃ fault, c.forms = .error fault ∧ (Matcher.ofName c.name).upgrade c.args = .error fault) ∨
    ∃ fs, fs ≠ [] ∧ c.forms = .ok fs ∧
      ((Matcher.ofName c.name).upgrade c.args = .ok (some (anyOf (fs.map Call.text))) ∨
        (Matcher.ofName c.name).upgrade c.args = .ok none ∧ fs = [c]) := by
  unfold Call.forms Matcher.upgrade
  by_cases hargs : c.args.isEmpty = true
  · rw [if_pos hargs, if_pos hargs]
    exact .inr ⟨[c], by simp, rfl, .inr ⟨rfl, rfl⟩⟩
  rw [if_neg hargs, if_neg hargs]
  have hne : c.args ≠ [] := fun he => hargs (by rw [he]; rfl)
  have hmap : ∀ {call : String → Except Pattern.Fault String}
      {form : String → Except Pattern.Fault Call},
      (∀ arg, call arg = (form arg).map Call.text) →
      (∃ fault, c.args.mapM form = .error fault ∧
        (c.args.mapM call >>= fun calls => pure (some (anyOf calls))) = .error fault) ∨
      ∃ fs, fs ≠ [] ∧ c.args.mapM form = .ok fs ∧
        ((c.args.mapM call >>= fun calls => pure (some (anyOf calls))) =
          .ok (some (anyOf (fs.map Call.text))) ∨
          (c.args.mapM call >>= fun calls => pure (some (anyOf calls))) = .ok none ∧ fs = [c]) := by
    intro call form hf
    rw [mapM_eq_map hf]
    cases hm : c.args.mapM form with
    | error fault => exact .inl ⟨fault, rfl, rfl⟩
    | ok fs => exact .inr ⟨fs, fun he => hne ((mem_of_mapM hm).2.2 he), rfl, .inl rfl⟩
  cases Matcher.ofName c.name with
  | path => exact hmap (templatedCall_eq _ _ _ c.offset)
  | pathPrefix => exact hmap (templatedCall_eq _ _ _ c.offset)
  | host => exact hmap (templatedCall_eq _ _ _ c.offset)
  | query => exact hmap (queryCall_eq c.offset)
  | clientIP =>
    exact .inr ⟨_, by simpa using hne, rfl, .inl (by rw [List.map_map]; rfl)⟩
  | method =>
    exact .inr ⟨_, by simpa using hne, rfl, .inl (by rw [List.map_map]; rfl)⟩
  | headers =>
    refine .inr ⟨_, List.cons_ne_nil _ _, rfl, ?_⟩
    exact (headerCall?_eq "Header" c).imp (congrArg _) fun h => ⟨congrArg _ h.1, by rw [h.2]⟩
  | headersRegexp =>
    refine .inr ⟨_, List.cons_ne_nil _ _, rfl, ?_⟩
    exact (headerCall?_eq "HeaderRegexp" c).imp (congrArg _) fun h => ⟨congrArg _ h.1, by rw [h.2]⟩
  | opaqueCall => exact .inr ⟨[c], by simp, rfl, .inr ⟨rfl, rfl⟩⟩

theorem forms_ne_nil {c : Call} : c.forms ≠ .ok [] := by
  intro h
  rcases upgrade_cases c with ⟨fault, hf, -⟩ | ⟨fs, hne, hf, -⟩
  · rw [h] at hf
    cases hf
  · rw [h] at hf
    cases hf
    exact hne rfl

/-! ### The calls of an expansion -/

omit [Regex.Limits] in
theorem calls_foldl : ∀ (others : List Call) (e : Expr),
    (others.foldl (fun e c => Expr.or e (.call c)) e).calls = e.calls ++ others
  | [], e => (List.append_nil _).symm
  | c :: others, e => by
    rw [List.foldl_cons, calls_foldl others, Expr.calls, Expr.calls, List.append_assoc]
    rfl

/-- The calls of the expansion of a call are its forms. -/
theorem calls_of_expand {c : Call} {x : Expr} (h : c.expand = .ok x) : c.forms = .ok x.calls := by
  unfold Call.expand at h
  cases hf : c.forms with
  | error fault => rw [hf] at h; cases h
  | ok fs =>
    rw [hf] at h
    cases fs with
    | nil => exact absurd hf forms_ne_nil
    | cons first others =>
      cases h
      exact congrArg Except.ok (calls_foldl others (.call first)).symm

/-! ### The text of the forms is read as them -/

theorem plain_of_templatedForm {name regexpName : String} {kind : MatchKind} {offset : Nat}
    {arg : String} {c : Call} (h : templatedForm name regexpName kind offset arg = .ok c)
    (hn : isName name = true) (hr : isName regexpName = true) (ha : '\x60' ∉ arg.toList) :
    c.Plain := by
  unfold templatedForm at h
  split at h
  · cases hp : compile arg kind with
    | error fault => rw [hp] at h; cases h
    | ok p =>
      rw [hp] at h
      cases h
      exact ⟨hr, by simpa using notMem_of_compile hp ha (by decide)⟩
  · cases h
    exact ⟨hn, by simpa using ha⟩

theorem plain_of_queryForm {offset : Nat} {arg : String} {c : Call}
    (h : queryForm offset arg = .ok c) (ha : '\x60' ∉ arg.toList) : c.Plain := by
  have hq : isName "Query" = true := by decide
  have hqr : isName "QueryRegexp" = true := by decide
  unfold queryForm at h
  split at h
  · cases h
    exact ⟨hq, by simpa using ha⟩
  · next key hc =>
    cases h
    rw [Text.eq_append_of_cutAt hc] at ha
    exact ⟨hq, by simpa using fun hm => ha (List.mem_append_left _ hm)⟩
  · next key value _ hc =>
    rw [Text.eq_append_of_cutAt hc, List.mem_append, List.mem_cons, not_or, not_or] at ha
    cases hp : compile (String.ofList value) .query with
    | error fault => rw [hp] at h; cases h
    | ok p =>
      rw [hp] at h
      cases h
      have hv : '\x60' ∉ (String.ofList value).toList := by simpa using ha.2.2
      split
      · exact ⟨hqr, by simpa [ha.1] using notMem_of_compile hp hv (by decide)⟩
      · exact ⟨hq, by simpa [ha.1] using ha.2.2⟩

omit [Regex.Limits] in
theorem plain_of_headerForm {name : String} {c : Call} (hn : isName name = true) (h : c.Plain) :
    (headerForm name c).Plain := by
  unfold headerForm
  split
  · next key value rest hc =>
    have hargs := h.2
    rw [hc] at hargs
    refine ⟨hn, fun arg ha => hargs arg ?_⟩
    rcases List.mem_cons.1 ha with rfl | ha
    · exact List.mem_cons_self ..
    · rw [List.mem_singleton.1 ha]
      exact List.mem_cons_of_mem _ (List.mem_cons_self ..)
  · exact h

/-- The forms of a call that can be written in backticks can be, too. -/
theorem plain_of_forms {c : Call} {fs : List Call} (h : c.forms = .ok fs) (hc : c.Plain) :
    ∀ f ∈ fs, f.Plain := by
  have hsingle : ∀ {name : String}, isName name = true →
      ∀ f ∈ c.args.map fun arg => Call.mk name [arg] c.offset, f.Plain := by
    intro name hn f hf
    obtain ⟨arg, ha, rfl⟩ := List.mem_map.1 hf
    exact ⟨hn, by simpa using hc.2 arg ha⟩
  have htemplated : ∀ {name regexpName : String} {kind : MatchKind},
      c.args.mapM (templatedForm name regexpName kind c.offset) = .ok fs →
      isName name = true → isName regexpName = true → ∀ f ∈ fs, f.Plain := by
    intro name regexpName kind hm hn hr f hf
    obtain ⟨arg, ha, he⟩ := (mem_of_mapM hm).1 f hf
    exact plain_of_templatedForm he hn hr (hc.2 arg ha)
  unfold Call.forms at h
  split at h
  · cases h
    simpa using hc
  split at h
  · exact htemplated h (by decide) (by decide)
  · exact htemplated h (by decide) (by decide)
  · exact htemplated h (by decide) (by decide)
  · cases h
    exact hsingle (by decide)
  · cases h
    exact hsingle (by decide)
  · cases h
    simpa using plain_of_headerForm (by decide) hc
  · cases h
    simpa using plain_of_headerForm (by decide) hc
  · intro f hf
    obtain ⟨arg, ha, he⟩ := (mem_of_mapM h).1 f hf
    exact plain_of_queryForm he (hc.2 arg ha)
  · cases h
    simpa using hc

/-- The tokens of a call and others after it, each with the sign of a disjunction before it. -/
def disjunctTokens (first : Call) (others : List Call) : List Token :=
  first.tokens ++ others.flatMap fun c => .disjunction :: c.tokens

/-- The tokens of calls as one operand. -/
def anyTokens : List Call → List Token
  | [] => []
  | [c] => c.tokens
  | first :: others => .openParen :: disjunctTokens first others ++ [.closeParen]

omit [Regex.Limits] in
theorem spells_disjuncts : ∀ {first : Call} {others : List Call},
    (∀ c ∈ first :: others, c.Plain) →
    Spells (String.intercalate " || " ((first :: others).map Call.text)).toList
      (disjunctTokens first others)
  | first, [], h => by
    rw [List.map_singleton, String.intercalate_singleton, disjunctTokens, List.flatMap_nil,
      List.append_nil]
    exact (h first (List.mem_cons_self ..)).spells
  | first, second :: others, h => by
    have ih := spells_disjuncts fun c hc => h c (List.mem_cons_of_mem _ hc)
    have hs := (h first (List.mem_cons_self ..)).spells.append (spells_disjunction.append ih)
    simp only [List.map_cons, String.intercalate_cons_cons, String.toList_append,
      List.append_assoc] at hs ⊢
    exact hs

omit [Regex.Limits] in
/-- The text of the forms of a call is read as their disjunction. -/
theorem spells_anyOf : ∀ {calls : List Call}, (∀ c ∈ calls, c.Plain) →
    Spells (anyOf (calls.map Call.text)).toList (anyTokens calls)
  | [], _ => .nil
  | [c], h => (h c (List.mem_cons_self ..)).spells
  | first :: second :: others, h => by
    have hs := (spells_openParen.append (spells_disjuncts h)).append spells_closeParen
    rw [← String.toList_append, ← String.toList_append] at hs
    exact hs

theorem upgradeFragment_call (offset : Nat) {site : CallSite} {source : List Char} :
    upgradeFragment (.call site source) =
      ((Matcher.ofName (site.call offset).name).upgrade (site.call offset).args).map
        fun upgraded => (upgraded.map String.toList).getD source := by
  unfold upgradeFragment CallSite.call
  dsimp only
  cases (Matcher.ofName (String.ofList site.name)).upgrade (site.args.map String.ofList) <;> rfl

/-- The new text of a call that is found is read as its forms, if they all can be built. -/
theorem spells_upgraded {site : CallSite} {source : List Char} {offset : Nat}
    (hp : (site.call offset).Plain) (hs : Spells source (site.call offset).tokens) :
    (∃ fault, (site.call offset).forms = .error fault ∧
      upgradeFragment (.call site source) = .error fault) ∨
    ∃ fs piece, fs ≠ [] ∧ (site.call offset).forms = .ok fs ∧
      upgradeFragment (.call site source) = .ok piece ∧ Spells piece (anyTokens fs) := by
  have hu := @upgradeFragment_call _ offset site source
  rcases upgrade_cases (site.call offset) with ⟨fault, hf, he⟩ | ⟨fs, hne, hf, he⟩
  · exact .inl ⟨fault, hf, by rw [hu, he]; rfl⟩
  · rcases he with he | ⟨he, rfl⟩
    · exact .inr ⟨fs, _, hne, hf, by rw [hu, he]; rfl, spells_anyOf (plain_of_forms hf hp)⟩
    · exact .inr ⟨_, source, hne, hf, by rw [hu, he]; rfl, hs⟩

end

/-! ### What tokens mean -/

/-- The tokens, whatever follows them, are an expression of the level that is `x` but for the places. -/
def Means (level : Level) (tokens : List Token) (x : Expr) : Prop :=
  ∀ rest : List Located, ∃ e,
    Derives level (tokens.map (Located.mk 0) ++ rest) e rest ∧ e.unplaced = x.unplaced

theorem Means.call (c : Call) : Means .operand c.tokens (.call c) := by
  intro rest
  refine ⟨.call ⟨c.name, c.args, 0⟩, ?_, rfl⟩
  rw [Call.tokens, List.map_cons, List.cons_append]
  refine .call 0 c.name (arguments_of_tokens ?_ rest)
  rw [List.map_map]
  exact List.map_id _

theorem Means.not {tokens : List Token} {x : Expr} (h : Means .operand tokens x) :
    Means .operand (.negation :: tokens) (.not x) := by
  intro rest
  obtain ⟨e, hd, he⟩ := h rest
  exact ⟨.not e, .not 0 hd, by rw [Expr.unplaced, he, Expr.unplaced]⟩

theorem Means.parens {tokens : List Token} {x : Expr} (h : Means .disjunction tokens x) :
    Means .operand (.openParen :: tokens ++ [.closeParen]) x := by
  intro rest
  obtain ⟨e, hd, he⟩ := h (⟨0, .closeParen⟩ :: rest)
  refine ⟨e, ?_, he⟩
  rw [List.map_append, List.append_assoc]
  exact .parens 0 0 hd

theorem Means.operand {tokens : List Token} {x : Expr} (h : Means .operand tokens x) :
    Means .conjunction tokens x := fun rest =>
  let ⟨e, hd, he⟩ := h rest
  ⟨e, .operand hd, he⟩

theorem Means.conjunction {tokens : List Token} {x : Expr} (h : Means .conjunction tokens x) :
    Means .disjunction tokens x := fun rest =>
  let ⟨e, hd, he⟩ := h rest
  ⟨e, .conjunction hd, he⟩

theorem Means.and {tokens tokens' : List Token} {x y : Expr} (h : Means .conjunction tokens x)
    (h' : Means .operand tokens' y) :
    Means .conjunction (tokens ++ .conjunction :: tokens') (.and x y) := by
  intro rest
  obtain ⟨r, hr, her⟩ := h' rest
  obtain ⟨l, hl, hel⟩ := h (⟨0, .conjunction⟩ :: (tokens'.map (Located.mk 0) ++ rest))
  refine ⟨.and l r, ?_, by rw [Expr.unplaced, hel, her, Expr.unplaced]⟩
  rw [List.map_append, List.append_assoc]
  exact .and 0 hl hr

theorem Means.or {tokens tokens' : List Token} {x y : Expr} (h : Means .disjunction tokens x)
    (h' : Means .conjunction tokens' y) :
    Means .disjunction (tokens ++ .disjunction :: tokens') (.or x y) := by
  intro rest
  obtain ⟨r, hr, her⟩ := h' rest
  obtain ⟨l, hl, hel⟩ := h (⟨0, .disjunction⟩ :: (tokens'.map (Located.mk 0) ++ rest))
  refine ⟨.or l r, ?_, by rw [Expr.unplaced, hel, her, Expr.unplaced]⟩
  rw [List.map_append, List.append_assoc]
  exact .or 0 hl hr

/-- Alternatives after others extend them to the left. -/
theorem Means.disjuncts : ∀ {tokens : List Token} {x : Expr} (others : List Call),
    Means .disjunction tokens x →
    Means .disjunction (tokens ++ others.flatMap fun c => .disjunction :: c.tokens)
      (others.foldl (fun e c => .or e (.call c)) x)
  | tokens, x, [], h => by
    rw [List.flatMap_nil, List.append_nil]
    exact h
  | tokens, x, c :: others, h => by
    rw [List.flatMap_cons, ← List.append_assoc]
    exact Means.disjuncts others (h.or (Means.call c).operand)

/-- The tokens of calls mean the disjunction of the calls. -/
theorem means_anyTokens : ∀ (first : Call) (others : List Call),
    Means .operand (anyTokens (first :: others)) (.anyOf first others)
  | first, [] => .call first
  | first, second :: others =>
    ((Means.call first).operand.conjunction.disjuncts (second :: others)).parens

end TraefikUpgrade.Rule
