/-
# The layout of a rule

Two rules whose expressions differ only in places are the same rule in two layouts: other blanks, other
parentheses, other quotes. A call with its string in double quotes is not found and stays as it is, so
the quotes do matter (`upgrade_depends_on_quotes`), but only for calls that have another form. If each
call is found in both texts, is found in neither or is the only form of itself (`SameCalls`), as in
rules that are plainly written (`sameCalls_of_plain`), then the upgrades are the same rule again.

Key definitions: `FindsCalls`, `SameCalls`.
Key theorems: `expandAt_unplaced`, `sameCalls_of_plain`, `upgrade_ignores_layout`.
-/
import TraefikUpgrade.Proofs.Rule.Literals

namespace TraefikUpgrade.Rule

open Text (utf8Length)

section
variable [Regex.Limits]

/-! ### Forms do not depend on the place -/

theorem templatedForm_unplaced (name regexpName : String) (kind : MatchKind) (offset : Nat)
    (arg : String) : templatedForm name regexpName kind 0 arg =
      (templatedForm name regexpName kind offset arg).map Call.unplaced := by
  unfold templatedForm
  split
  · cases compile arg kind <;> rfl
  · rfl

theorem queryForm_unplaced (offset : Nat) (arg : String) :
    queryForm 0 arg = (queryForm offset arg).map Call.unplaced := by
  unfold queryForm
  rcases Text.cutAt '=' arg.toList with _ | ⟨key, _ | ⟨c, cs⟩⟩
  · rfl
  · rfl
  · dsimp only
    cases compile (String.ofList (c :: cs)) .query with
    | error fault => rfl
    | ok p => by_cases hm : hasMetacharacter (String.ofList (c :: cs)) = true <;>
        simp only [Except.map, hm] <;> rfl

omit [Regex.Limits] in
theorem headerForm_unplaced (name : String) (c : Call) :
    headerForm name c.unplaced = (headerForm name c).unplaced := by
  unfold headerForm
  rcases c with ⟨_, _ | ⟨key, _ | ⟨value, rest⟩⟩, _⟩ <;> rfl

theorem forms_unplaced (c : Call) : c.unplaced.forms = c.forms.map (List.map Call.unplaced) := by
  have hmap : ∀ name, (c.args.map fun arg => Call.mk name [arg] 0) =
      (c.args.map fun arg => Call.mk name [arg] c.offset).map Call.unplaced := by
    intro name
    rw [List.map_map]
    rfl
  unfold Call.forms
  rw [Call.unplaced_args, Call.unplaced_name, Call.unplaced_offset]
  by_cases hargs : c.args.isEmpty = true
  · rw [if_pos hargs, if_pos hargs]
    rfl
  rw [if_neg hargs, if_neg hargs]
  cases Matcher.ofName c.name with
  | path => exact mapM_eq_map (templatedForm_unplaced _ _ _ c.offset) c.args
  | pathPrefix => exact mapM_eq_map (templatedForm_unplaced _ _ _ c.offset) c.args
  | host => exact mapM_eq_map (templatedForm_unplaced _ _ _ c.offset) c.args
  | query => exact mapM_eq_map (queryForm_unplaced c.offset) c.args
  | clientIP => exact congrArg Except.ok (hmap "ClientIP")
  | method => exact congrArg Except.ok (hmap "Method")
  | headers => exact congrArg (fun f => Except.ok [f]) (headerForm_unplaced "Header" c)
  | headersRegexp => exact congrArg (fun f => Except.ok [f]) (headerForm_unplaced "HeaderRegexp" c)
  | opaqueCall => rfl

omit [Regex.Limits] in
theorem unplaced_foldl : ∀ (others : List Call) (e : Expr),
    (others.foldl (fun e c => Expr.or e (.call c)) e).unplaced =
      (others.map Call.unplaced).foldl (fun e c => Expr.or e (.call c)) e.unplaced
  | [], _ => rfl
  | c :: others, e => unplaced_foldl others (.or e (.call c))

theorem expand_unplaced (c : Call) : c.unplaced.expand = c.expand.map Expr.unplaced := by
  unfold Call.expand
  rw [forms_unplaced]
  cases c.forms with
  | error fault => rfl
  | ok fs =>
    cases fs with
    | nil => rfl
    | cons first others => exact congrArg Except.ok (unplaced_foldl others (.call first)).symm

/-- A call that is the only form of itself is its own expansion. -/
theorem expand_of_stable {c : Call} (h : c.Stable) : c.expand = .ok (.call c) := by
  have hforms : c.forms = .ok [c] := by
    by_cases hargs : c.args = []
    · rw [Call.forms, if_pos (by simpa using hargs)]
    · exact (forms_eq_self_iff hargs).2 h
  rw [Call.expand, hforms]
  rfl

theorem expandAt_of_stable {c : Call} (h : c.Stable) (f : Nat → Bool) :
    (Expr.call c).expandAt f = .ok (.call c) := by
  rw [Expr.expandAt, expand_of_stable h, ite_self]

/-! ### Expansions do not depend on places -/

omit [Regex.Limits] in
theorem length_calls_of_unplaced {e e' : Expr} (h : e.unplaced = e'.unplaced) :
    e.calls.length = e'.calls.length := by
  have hc := congrArg (List.length ∘ Expr.calls) h
  simpa [calls_unplaced] using hc

omit [Regex.Limits] in
theorem map_unplaced_not (a : Except Pattern.Fault Expr) :
    (a >>= fun x => pure (.not x)).map Expr.unplaced = (a.map Expr.unplaced).map .not := by
  cases a <;> rfl

omit [Regex.Limits] in
theorem map_unplaced_and (a b : Except Pattern.Fault Expr) :
    (a >>= fun x => b >>= fun y => pure (.and x y)).map Expr.unplaced =
      a.map Expr.unplaced >>= fun x => (b.map Expr.unplaced).map (.and x) := by
  cases a <;> cases b <;> rfl

omit [Regex.Limits] in
theorem map_unplaced_or (a b : Except Pattern.Fault Expr) :
    (a >>= fun x => b >>= fun y => pure (.or x y)).map Expr.unplaced =
      a.map Expr.unplaced >>= fun x => (b.map Expr.unplaced).map (.or x) := by
  cases a <;> cases b <;> rfl

/-- Two expressions that differ in places only have expansions that do, if each call is expanded in both,
is expanded in neither or is the only form of itself. -/
theorem expandAt_unplaced {f f' : Nat → Bool} : ∀ {e e' : Expr}, e.unplaced = e'.unplaced →
    (∀ c c', (c, c') ∈ e.calls.zip e'.calls → f c.offset = f' c'.offset ∨ c.Stable) →
    (e.expandAt f).map Expr.unplaced = (e'.expandAt f').map Expr.unplaced
  | .call c, .call c', h, hf => by
    have hc : c.unplaced = c'.unplaced := Expr.call.inj h
    rcases hf c c' List.mem_cons_self with hf | hs
    · rw [Expr.expandAt, Expr.expandAt, hf]
      split
      · rw [← expand_unplaced, ← expand_unplaced, hc]
      · exact congrArg Except.ok h
    · have hs' : c'.Stable := (hc ▸ (show c.unplaced.Stable from hs) : c'.unplaced.Stable)
      rw [expandAt_of_stable hs, expandAt_of_stable hs']
      exact congrArg Except.ok h
  | .not e, .not e', h, hf => by
    rw [Expr.expandAt, Expr.expandAt, map_unplaced_not, map_unplaced_not,
      expandAt_unplaced (Expr.not.inj h) hf]
  | .and l r, .and l' r', h, hf => by
    obtain ⟨hl, hr⟩ := Expr.and.inj h
    rw [Expr.calls, Expr.calls, List.zip_append (length_calls_of_unplaced hl)] at hf
    rw [Expr.expandAt, Expr.expandAt, map_unplaced_and, map_unplaced_and,
      expandAt_unplaced hl fun c c' hm => hf c c' (List.mem_append_left _ hm),
      expandAt_unplaced hr fun c c' hm => hf c c' (List.mem_append_right _ hm)]
  | .or l r, .or l' r', h, hf => by
    obtain ⟨hl, hr⟩ := Expr.or.inj h
    rw [Expr.calls, Expr.calls, List.zip_append (length_calls_of_unplaced hl)] at hf
    rw [Expr.expandAt, Expr.expandAt, map_unplaced_or, map_unplaced_or,
      expandAt_unplaced hl fun c c' hm => hf c c' (List.mem_append_left _ hm),
      expandAt_unplaced hr fun c c' hm => hf c c' (List.mem_append_right _ hm)]

/-! ### Upgrades do not depend on layout -/

/-- Every call that is found in the text of the rule is a call of its expression or settled. -/
def FindsCalls (rule : String) (e : Expr) : Prop :=
  ∀ pre site source post, fragments rule.toList = pre ++ .call site source :: post →
    (∃ c ∈ e.calls, c.offset = utf8Length (pre.flatMap Fragment.source)) ∨ Settled site source

/-- Each call of a rule in two layouts is found in both texts, is found in neither or is the only form of
itself, and what else is found is settled. -/
structure SameCalls (rule₁ : String) (e₁ : Expr) (rule₂ : String) (e₂ : Expr) : Prop where
  first : FindsCalls rule₁ e₁
  second : FindsCalls rule₂ e₂
  calls : ∀ c₁ c₂, (c₁, c₂) ∈ e₁.calls.zip e₂.calls →
    foundIn rule₁ c₁.offset = foundIn rule₂ c₂.offset ∨ c₁.Stable

omit [Regex.Limits] in
theorem findsCalls_of_foundIn {rule : String} {e : Expr}
    (h : ∀ n, foundIn rule n = true → ∃ c ∈ e.calls, c.offset = n) : FindsCalls rule e :=
  fun _ _ _ _ hf => .inl (h _ (foundIn_of_fragments hf))

/-- In plainly written rules all calls are found, and nothing else is. -/
theorem sameCalls_of_plain {rule₁ rule₂ : String} {e₁ e₂ : Expr}
    (hp₁ : parse rule₁ = .ok e₁) (hp₂ : parse rule₂ = .ok e₂)
    (hc₁ : ∀ c ∈ e₁.calls, Accepts .v2 c) (hc₂ : ∀ c ∈ e₂.calls, Accepts .v2 c)
    (h₁ : isPlain rule₁ = true) (h₂ : isPlain rule₂ = true) : SameCalls rule₁ e₁ rule₂ e₂ := by
  have hf₁ := foundIn_iff h₁ hp₁ fun c hm => findable_of_accepts (hc₁ c hm)
  have hf₂ := foundIn_iff h₂ hp₂ fun c hm => findable_of_accepts (hc₂ c hm)
  refine ⟨findsCalls_of_foundIn fun n => (hf₁ n).1, findsCalls_of_foundIn fun n => (hf₂ n).1,
    fun c₁ c₂ hm => .inl ?_⟩
  obtain ⟨hm₁, hm₂⟩ := List.of_mem_zip hm
  rw [(hf₁ _).2 ⟨c₁, hm₁, rfl⟩, (hf₂ _).2 ⟨c₂, hm₂, rfl⟩]

/-- The new text of a rule is read as its expansion, since settled calls stay as they are. -/
theorem upgradeText_of_findsCalls {rule : String} {e : Expr} (hp : parse rule = .ok e)
    (h : FindsCalls rule e) :
    (∃ fault, e.expandAt (foundIn rule) = .error fault ∧ upgradeText rule = .error fault) ∨
    ∃ x rule' e', e.expandAt (foundIn rule) = .ok x ∧ upgradeText rule = .ok rule' ∧
      parse rule' = .ok e' ∧ e'.unplaced = x.unplaced := by
  refine upgradeText_spec hp fun pre site source post hf => (h pre site source post hf).imp_right ?_
  obtain ⟨rest, -, hc, -⟩ := callAt?_of_fragments pre hf
  exact (upgradeFragment_eq_self_iff hc).2

/-- A rule whose new text can be built is upgraded if version 3 accepts the calls of the text. -/
theorem exists_upgrade_iff {rule text : String} {priority : Int} {e : Expr}
    (hle : priority ≤ maxPriority) (ht : upgradeText rule = .ok text) (hp : parse text = .ok e) :
    (∃ rule', upgrade rule priority = .ok rule') ↔ ∀ c ∈ e.calls, Accepts .v3 c := by
  rw [← exists_validate_iff hle hp]
  refine ⟨fun ⟨rule', h⟩ => ?_, fun h => ⟨text, upgrade_eq_ok_iff.2 ⟨ht, h⟩⟩⟩
  obtain ⟨ht', h⟩ := upgrade_eq_ok_iff.1 h
  rw [ht] at ht'
  cases ht'
  exact h

/-- Rules of version 2 that differ in their layout only, and of which the same calls are found unless they
have no other form, both cannot be upgraded or are upgraded to rules that differ in their layout only. -/
theorem upgrade_ignores_layout {rule₁ rule₂ : String} {priority : Int} {route₁ route₂ : Route}
    (hv₁ : validate rule₁ .v2 priority = .ok route₁)
    (hv₂ : validate rule₂ .v2 priority = .ok route₂)
    (he : route₁.expr.unplaced = route₂.expr.unplaced)
    (hs : SameCalls rule₁ route₁.expr rule₂ route₂.expr) :
    ((∃ failure, upgrade rule₁ priority = .error failure) ↔
      ∃ failure, upgrade rule₂ priority = .error failure) ∧
    ∀ rule₁' rule₂', upgrade rule₁ priority = .ok rule₁' → upgrade rule₂ priority = .ok rule₂' →
      ∃ e₁ e₂, parse rule₁' = .ok e₁ ∧ parse rule₂' = .ok e₂ ∧ e₁.unplaced = e₂.unplaced := by
  obtain ⟨hle, hp₁, -, -⟩ := validate_eq_ok_iff.1 hv₁
  obtain ⟨-, hp₂, -, -⟩ := validate_eq_ok_iff.1 hv₂
  have hexpand := expandAt_unplaced he hs.calls
  rcases upgradeText_of_findsCalls hp₁ hs.first with
      ⟨fault₁, hx₁, ht₁⟩ | ⟨x₁, text₁, e₁, hx₁, ht₁, hpt₁, hu₁⟩ <;>
    rcases upgradeText_of_findsCalls hp₂ hs.second with
      ⟨fault₂, hx₂, ht₂⟩ | ⟨x₂, text₂, e₂, hx₂, ht₂, hpt₂, hu₂⟩ <;>
    rw [hx₁, hx₂] at hexpand
  · have hno : ∀ {rule : String} {fault : Pattern.Fault}, upgradeText rule = .error fault →
        ¬ ∃ rule', upgrade rule priority = .ok rule' := by
      rintro rule fault ht ⟨rule', h⟩
      rw [(upgrade_eq_ok_iff.1 h).1] at ht
      cases ht
    refine ⟨?_, fun rule₁' rule₂' h₁ => absurd ⟨rule₁', h₁⟩ (hno ht₁)⟩
    rw [exists_error_iff, exists_error_iff]
    exact iff_of_true (hno ht₁) (hno ht₂)
  · cases hexpand
  · cases hexpand
  · have heq : e₁.unplaced = e₂.unplaced := by
      rw [hu₁, hu₂]
      exact Except.ok.inj hexpand
    refine ⟨?_, fun rule₁' rule₂' h₁ h₂ => ?_⟩
    · rw [exists_error_iff, exists_error_iff, exists_upgrade_iff hle ht₁ hpt₁,
        exists_upgrade_iff hle ht₂ hpt₂, accepts_congr heq]
    · obtain ⟨ht₁', -⟩ := upgrade_eq_ok_iff.1 h₁
      obtain ⟨ht₂', -⟩ := upgrade_eq_ok_iff.1 h₂
      rw [ht₁] at ht₁'
      rw [ht₂] at ht₂'
      cases ht₁'
      cases ht₂'
      exact ⟨e₁, e₂, hpt₁, hpt₂, heq⟩

end

/-- The path is found in both texts, and the host, which is only in one, is the only form of itself. -/
theorem upgrade_ignores_layout_quoted_host : ∃ route₁ route₂ : Route,
    validate "Path(`/a/{b}`) && Host(`c.d`)" .v2 0 = .ok route₁ ∧
    validate "(Path( `/a/{b}` )) && Host(\x22c.d\x22)" .v2 0 = .ok route₂ ∧
    route₁.expr.unplaced = route₂.expr.unplaced ∧
    SameCalls "Path(`/a/{b}`) && Host(`c.d`)" route₁.expr
      "(Path( `/a/{b}` )) && Host(\x22c.d\x22)" route₂.expr ∧
    upgrade "Path(`/a/{b}`) && Host(`c.d`)" 0 =
      .ok "PathRegexp(`^/a/(?P<b>[^/]+)$`) && Host(`c.d`)" ∧
    upgrade "(Path( `/a/{b}` )) && Host(\x22c.d\x22)" 0 =
      .ok "(PathRegexp(`^/a/(?P<b>[^/]+)$`)) && Host(\x22c.d\x22)" ∧
    ∃ e₁ e₂, parse "PathRegexp(`^/a/(?P<b>[^/]+)$`) && Host(`c.d`)" = .ok e₁ ∧
      parse "(PathRegexp(`^/a/(?P<b>[^/]+)$`)) && Host(\x22c.d\x22)" = .ok e₂ ∧
      e₁.unplaced = e₂.unplaced := by
  have ht₁ : tokenize "Path(`/a/{b}`) && Host(`c.d`)" = .ok [⟨0, .identifier "Path"⟩,
      ⟨4, .openParen⟩, ⟨5, .text "/a/{b}"⟩, ⟨13, .closeParen⟩, ⟨15, .conjunction⟩,
      ⟨18, .identifier "Host"⟩, ⟨22, .openParen⟩, ⟨23, .text "c.d"⟩, ⟨28, .closeParen⟩] :=
    eq_ok_of_toOption (by decide +kernel)
  have ht₂ : tokenize "(Path( `/a/{b}` )) && Host(\x22c.d\x22)" = .ok [⟨0, .openParen⟩,
      ⟨1, .identifier "Path"⟩, ⟨5, .openParen⟩, ⟨7, .text "/a/{b}"⟩, ⟨16, .closeParen⟩,
      ⟨17, .closeParen⟩, ⟨19, .conjunction⟩, ⟨22, .identifier "Host"⟩, ⟨26, .openParen⟩,
      ⟨27, .text "c.d"⟩, ⟨32, .closeParen⟩] := eq_ok_of_toOption (by decide +kernel)
  have ht₁' : tokenize "PathRegexp(`^/a/(?P<b>[^/]+)$`) && Host(`c.d`)" =
      .ok [⟨0, .identifier "PathRegexp"⟩, ⟨10, .openParen⟩, ⟨11, .text "^/a/(?P<b>[^/]+)$"⟩,
        ⟨30, .closeParen⟩, ⟨32, .conjunction⟩, ⟨35, .identifier "Host"⟩, ⟨39, .openParen⟩,
        ⟨40, .text "c.d"⟩, ⟨45, .closeParen⟩] := eq_ok_of_toOption (by decide +kernel)
  have ht₂' : tokenize "(PathRegexp(`^/a/(?P<b>[^/]+)$`)) && Host(\x22c.d\x22)" =
      .ok [⟨0, .openParen⟩, ⟨1, .identifier "PathRegexp"⟩, ⟨11, .openParen⟩,
        ⟨12, .text "^/a/(?P<b>[^/]+)$"⟩, ⟨31, .closeParen⟩, ⟨32, .closeParen⟩, ⟨34, .conjunction⟩,
        ⟨37, .identifier "Host"⟩, ⟨41, .openParen⟩, ⟨42, .text "c.d"⟩, ⟨47, .closeParen⟩] :=
    eq_ok_of_toOption (by decide +kernel)
  have hderives : ∀ {name : String} {value : String} {o a b c d f g h i : Nat},
      Derives .disjunction [⟨o, .identifier name⟩, ⟨a, .openParen⟩, ⟨b, .text value⟩,
        ⟨c, .closeParen⟩, ⟨d, .conjunction⟩, ⟨f, .identifier "Host"⟩, ⟨g, .openParen⟩,
        ⟨h, .text "c.d"⟩, ⟨i, .closeParen⟩]
        (.and (.call ⟨name, [value], o⟩) (.call ⟨"Host", ["c.d"], f⟩)) [] :=
    .conjunction (.and _ (.operand (.call _ _ (.some _ (.last _ _ _ _))))
      (.call _ _ (.some _ (.last _ _ _ _))))
  have hderives' : ∀ {name : String} {value : String} {o a b c d f g h i p q : Nat},
      Derives .disjunction [⟨p, .openParen⟩, ⟨o, .identifier name⟩, ⟨a, .openParen⟩,
        ⟨b, .text value⟩, ⟨c, .closeParen⟩, ⟨q, .closeParen⟩, ⟨d, .conjunction⟩,
        ⟨f, .identifier "Host"⟩, ⟨g, .openParen⟩, ⟨h, .text "c.d"⟩, ⟨i, .closeParen⟩]
        (.and (.call ⟨name, [value], o⟩) (.call ⟨"Host", ["c.d"], f⟩)) [] :=
    .conjunction (.and _ (.operand (.parens _ _ (.conjunction (.operand (.call _ _
      (.some _ (.last _ _ _ _))))))) (.call _ _ (.some _ (.last _ _ _ _))))
  have haccepts : ∀ {dialect : Dialect} {l r : Call}, Accepts dialect l.unplaced →
      Accepts dialect r.unplaced → ∀ c ∈ (Expr.and (.call l) (.call r)).calls, Accepts dialect c := by
    intro dialect l r hl hr c hc
    rcases List.mem_cons.1 hc with rfl | hc
    · exact (accepts_unplaced c).1 hl
    · exact List.mem_singleton.1 hc ▸ (accepts_unplaced r).1 hr
  have hpath : Accepts .v2 ⟨"Path", ["/a/{b}"], 0⟩ := eq_ok_of_toOption (by decide +kernel)
  have hhost : Accepts .v2 ⟨"Host", ["c.d"], 0⟩ := eq_ok_of_toOption (by decide +kernel)
  have hpath' : Accepts .v3 ⟨"PathRegexp", ["^/a/(?P<b>[^/]+)$"], 0⟩ :=
    eq_ok_of_toOption (by decide +kernel)
  have hhost' : Accepts .v3 ⟨"Host", ["c.d"], 0⟩ := eq_ok_of_toOption (by decide +kernel)
  have hv₁ : validate "Path(`/a/{b}`) && Host(`c.d`)" .v2 0 = .ok ⟨_, _, _⟩ :=
    validate_eq_ok_iff.2 ⟨by decide, parse_of_derives ht₁ hderives, haccepts hpath hhost, rfl, rfl⟩
  have hv₂ : validate "(Path( `/a/{b}` )) && Host(\x22c.d\x22)" .v2 0 = .ok ⟨_, _, _⟩ :=
    validate_eq_ok_iff.2 ⟨by decide, parse_of_derives ht₂ hderives', haccepts hpath hhost, rfl, rfl⟩
  have hu₁ : upgrade "Path(`/a/{b}`) && Host(`c.d`)" 0 =
      .ok "PathRegexp(`^/a/(?P<b>[^/]+)$`) && Host(`c.d`)" :=
    upgrade_eq_ok_iff.2 ⟨eq_ok_of_toOption (by decide +kernel),
      (exists_validate_iff (by decide) (parse_of_derives ht₁' hderives)).2 (haccepts hpath' hhost')⟩
  have hu₂ : upgrade "(Path( `/a/{b}` )) && Host(\x22c.d\x22)" 0 =
      .ok "(PathRegexp(`^/a/(?P<b>[^/]+)$`)) && Host(\x22c.d\x22)" :=
    upgrade_eq_ok_iff.2 ⟨eq_ok_of_toOption (by decide +kernel),
      (exists_validate_iff (by decide) (parse_of_derives ht₂' hderives')).2 (haccepts hpath' hhost')⟩
  have hsame : SameCalls "Path(`/a/{b}`) && Host(`c.d`)"
      (.and (.call ⟨"Path", ["/a/{b}"], 0⟩) (.call ⟨"Host", ["c.d"], 18⟩))
      "(Path( `/a/{b}` )) && Host(\x22c.d\x22)"
      (.and (.call ⟨"Path", ["/a/{b}"], 1⟩) (.call ⟨"Host", ["c.d"], 22⟩)) := by
    have hs₁ : siteOffsets 29 (fragments "Path(`/a/{b}`) && Host(`c.d`)".toList) = [0, 18] := by
      decide +kernel
    have hs₂ : siteOffsets 33 (fragments "(Path( `/a/{b}` )) && Host(\x22c.d\x22)".toList) = [1] := by
      decide +kernel
    refine ⟨findsCalls_of_foundIn fun n hn => ?_, findsCalls_of_foundIn fun n hn => ?_,
      fun c₁ c₂ hm => ?_⟩
    · have hn : n ∈ [0, 18] := hs₁ ▸ List.contains_iff_mem.1 hn
      simpa [Expr.calls, eq_comm] using hn
    · have hn : n ∈ [1] := hs₂ ▸ List.contains_iff_mem.1 hn
      simp [Expr.calls, List.mem_singleton.1 hn]
    · rcases List.mem_cons.1 hm with hm | hm
      · cases hm
        exact .inl (by decide +kernel)
      · cases List.mem_singleton.1 hm
        exact .inr ⟨rfl, "c.d", rfl, by decide⟩
  obtain ⟨-, hlayout⟩ := upgrade_ignores_layout hv₁ hv₂ rfl hsame
  exact ⟨_, _, hv₁, hv₂, rfl, hsame, hu₁, hu₂, hlayout _ _ hu₁ hu₂⟩

/-- A rule with its string in double quotes is taken over as it is, and in backticks it is upgraded. -/
theorem upgrade_depends_on_quotes : ¬ ∀ (rule₁ rule₂ : String) (priority : Int) (route₁ route₂ : Route),
    validate rule₁ .v2 priority = .ok route₁ → validate rule₂ .v2 priority = .ok route₂ →
    route₁.expr.unplaced = route₂.expr.unplaced →
    ((∃ failure, upgrade rule₁ priority = .error failure) ↔
      ∃ failure, upgrade rule₂ priority = .error failure) ∧
    ∀ rule₁' rule₂', upgrade rule₁ priority = .ok rule₁' → upgrade rule₂ priority = .ok rule₂' →
      ∃ e₁ e₂, parse rule₁' = .ok e₁ ∧ parse rule₂' = .ok e₂ ∧ e₁.unplaced = e₂.unplaced := by
  intro h
  have ht₁ : tokenize "Path(\x22/foo/{id}\x22)" = .ok [⟨0, .identifier "Path"⟩, ⟨4, .openParen⟩,
      ⟨5, .text "/foo/{id}"⟩, ⟨16, .closeParen⟩] := eq_ok_of_toOption (by decide +kernel)
  have ht₂ : tokenize "Path(`/foo/{id}`)" = .ok [⟨0, .identifier "Path"⟩, ⟨4, .openParen⟩,
      ⟨5, .text "/foo/{id}"⟩, ⟨16, .closeParen⟩] := eq_ok_of_toOption (by decide +kernel)
  have ht' : tokenize "PathRegexp(`^/foo/(?P<id>[^/]+)$`)" = .ok [⟨0, .identifier "PathRegexp"⟩,
      ⟨10, .openParen⟩, ⟨11, .text "^/foo/(?P<id>[^/]+)$"⟩, ⟨33, .closeParen⟩] :=
    eq_ok_of_toOption (by decide +kernel)
  have hp₁ := parse_of_single ht₁
  have hp₂ := parse_of_single ht₂
  have hp' := parse_of_single ht'
  have ha : Accepts .v2 ⟨"Path", ["/foo/{id}"], 0⟩ := eq_ok_of_toOption (by decide +kernel)
  have ha₁ : Accepts .v3 ⟨"Path", ["/foo/{id}"], 0⟩ := eq_ok_of_toOption (by decide +kernel)
  have ha₂ : Accepts .v3 ⟨"PathRegexp", ["^/foo/(?P<id>[^/]+)$"], 0⟩ :=
    eq_ok_of_toOption (by decide +kernel)
  have hu₁ : upgrade "Path(\x22/foo/{id}\x22)" 0 = .ok "Path(\x22/foo/{id}\x22)" :=
    upgrade_eq_ok_iff.2 ⟨eq_ok_of_toOption (by decide +kernel), _, validate_of_call hp₁ ha₁⟩
  have hu₂ : upgrade "Path(`/foo/{id}`)" 0 = .ok "PathRegexp(`^/foo/(?P<id>[^/]+)$`)" :=
    upgrade_eq_ok_iff.2 ⟨eq_ok_of_toOption (by decide +kernel), _, validate_of_call hp' ha₂⟩
  obtain ⟨-, hsame⟩ := h _ _ 0 _ _ (validate_of_call hp₁ ha) (validate_of_call hp₂ ha) rfl
  obtain ⟨e₁, e₂, he₁, he₂, he⟩ := hsame _ _ hu₁ hu₂
  rw [hp₁] at he₁
  rw [hp'] at he₂
  cases he₁
  cases he₂
  exact absurd he (by decide)

end TraefikUpgrade.Rule
