/-
# When an upgraded rule is rejected

The forms of an accepted call are accepted by version 3 but for three kinds of arguments
(`Call.Unfit`): texts that are no absolute path, texts that are no host name, and queries with a blank
key that stay queries. Everything else that version 3 asks for follows from what version 2 did or from
the compilation of the templates (`accepts_forms_iff`). So these arguments, and nothing else, make the
upgrade of a rule fail when all its templates can be compiled (`upgrade_fails_iff`).

Key definitions: `Call.Unfit`.
Key theorems: `accepts_forms_iff`, `upgrade_fails_iff`.
-/
import TraefikUpgrade.Proofs.Rule.Refinement

namespace TraefikUpgrade.Rule

/-- A text that is no absolute path, for a matcher of paths. -/
def Call.UnfitPath (c : Call) (arg : String) : Prop :=
  (c.name = "Path" ∨ c.name = "PathPrefix") ∧ hasMetacharacter arg = false ∧
    arg.toList.head? ≠ some '/'

/-- A text that is empty or not ASCII, for a matcher of hosts. -/
def Call.UnfitHost (c : Call) (arg : String) : Prop :=
  (c.name = "Host" ∨ c.name = "HostHeader" ∨ c.name = "HostRegexp") ∧
    hasMetacharacter arg = false ∧ (arg = "" ∨ ∃ d ∈ arg.toList, ¬ d.val < 0x80)

/-- A query with a blank key, and with no value or one that is no template. -/
def Call.UnfitQuery (c : Call) (arg : String) : Prop :=
  c.name = "Query" ∧ ∃ key value, Text.cutAt '=' arg.toList = some (key, value) ∧
    Unicode.isBlank (String.ofList key) = true ∧
    (value = [] ∨ hasMetacharacter (String.ofList value) = false)

/-- The call has an argument whose form version 3 does not accept. -/
def Call.Unfit (c : Call) : Prop :=
  ∃ arg ∈ c.args, c.UnfitPath arg ∨ c.UnfitHost arg ∨ c.UnfitQuery arg

/-! ### The checks of version 3 -/

theorem checkOne_eq_ok_iff {check : String → Verdict} {arg : String} :
    checkOne check [arg] = .ok () ↔ check arg = .ok () := by
  show [arg].forM check = .ok () ↔ _
  rw [forM_eq_ok_iff, List.forall_mem_singleton]

theorem checkPath_eq_ok_iff {arg : String} :
    checkPath arg = .ok () ↔ arg.toList.head? = some '/' := by
  unfold checkPath
  split
  · next h => exact ⟨fun _ => h, fun _ => rfl⟩
  · next h => exact ⟨(nomatch ·), fun h' => absurd h' h⟩

theorem checkHost_eq_ok_iff {arg : String} :
    checkHost arg = .ok () ↔ ¬ (arg = "" ∨ ∃ d ∈ arg.toList, ¬ d.val < 0x80) := by
  have hcond : (arg.isEmpty || !arg.toList.all (·.val < 0x80)) = true ↔
      arg = "" ∨ ∃ d ∈ arg.toList, ¬ d.val < 0x80 := by
    rw [Bool.or_eq_true, String.isEmpty_iff, Bool.not_eq_true', List.all_eq_false]
    simp only [decide_eq_true_eq]
  unfold checkHost
  split
  · next h => exact ⟨(nomatch ·), fun h' => absurd (hcond.1 h) h'⟩
  · next h => exact ⟨fun _ h' => h (hcond.2 h'), fun _ => rfl⟩

theorem checkFilled_eq_ok_iff {arg : String} :
    checkFilled arg = .ok () ↔ Unicode.isBlank arg = false := by
  unfold checkFilled
  cases Unicode.isBlank arg <;> simp

theorem checkRegex_of_compile [Regex.Limits] {template : String} {kind : MatchKind} {p : Pattern}
    (h : compile template kind = .ok p) : checkRegex p.source = .ok () := by
  obtain ⟨t, ast, -, hparse, -, rfl⟩ := compile_eq_ok_iff.1 h
  rw [checkRegex, Regex.isValid, hparse]
  rfl

/-- The form of a text or template is accepted if it is a template, or a text that passes the check. -/
theorem accepts_templatedForm [Regex.Limits] {name regexpName : String} {kind : MatchKind} {offset : Nat}
    {arg : String} {f : Call} {check : String → Verdict}
    (h : templatedForm name regexpName kind offset arg = .ok f)
    (hn : checkV3? name = some (checkOne check)) (hr : checkV3? regexpName = some (checkOne checkRegex)) :
    Accepts .v3 f ↔ hasMetacharacter arg = true ∨ check arg = .ok () := by
  unfold templatedForm at h
  split at h
  · next hm =>
    cases hp : compile arg kind with
    | error fault => rw [hp] at h; cases h
    | ok p =>
      rw [hp] at h
      cases h
      refine ⟨fun _ => .inl hm, fun _ => accepts_iff.2 ⟨_, hr, ?_⟩⟩
      exact checkOne_eq_ok_iff.2 (checkRegex_of_compile hp)
  · next hm =>
    cases h
    have hcheck : Dialect.v3.check? name = some (checkOne check) := hn
    rw [accepts_iff_of_check? hcheck, checkOne_eq_ok_iff]
    exact ⟨.inr, fun h => h.resolve_left hm⟩

theorem accepts_query [Regex.Limits] {key : String} {rest : List String} {offset : Nat}
    (hr : rest = [] ∨ ∃ value, rest = [value]) :
    Accepts .v3 ⟨"Query", key :: rest, offset⟩ ↔ Unicode.isBlank key = false := by
  have hq : Dialect.v3.check? "Query" = some checkQuery := rfl
  have hc : checkQuery (key :: rest) = checkFilled key := by
    rcases hr with rfl | ⟨value, rfl⟩ <;> rfl
  rw [accepts_iff_of_check? hq, hc, checkFilled_eq_ok_iff]

/-- The form of a query is accepted unless its key is blank and it stays a query. -/
theorem accepts_queryForm [Regex.Limits] {offset : Nat} {arg : String} {f c : Call}
    (hname : c.name = "Query") (h : queryForm offset arg = .ok f) (ha : checkKeyValue arg = .ok ()) :
    Accepts .v3 f ↔ ¬ c.UnfitQuery arg := by
  unfold checkKeyValue at ha
  split at ha
  · next k ks value hc =>
    have hunfit : c.UnfitQuery arg ↔ Unicode.isBlank (String.ofList (k :: ks)) = true ∧
        (value = [] ∨ hasMetacharacter (String.ofList value) = false) := by
      refine ⟨fun ⟨_, key, value', hc', hk, hv⟩ => ?_, fun h => ⟨hname, _, _, hc, h⟩⟩
      rw [hc] at hc'
      cases hc'
      exact ⟨hk, hv⟩
    rw [hunfit]
    unfold queryForm at h
    rw [hc] at h
    cases value with
    | nil =>
      cases h
      rw [accepts_query (.inl rfl), ← Bool.not_eq_true]
      exact not_congr ⟨fun hb => ⟨hb, .inl rfl⟩, And.left⟩
    | cons v vs =>
      dsimp only at h
      cases hp : compile (String.ofList (v :: vs)) .query with
      | error fault => rw [hp] at h; cases h
      | ok p =>
        rw [hp] at h
        cases h
        split
        · next hm =>
          have hacc : Accepts .v3
              ⟨"QueryRegexp", [String.ofList (k :: ks), p.source], offset⟩ :=
            accepts_iff.2 ⟨_, rfl, checkKeyRegex_eq_ok_iff.2 ⟨_, _, rfl, checkRegex_of_compile hp⟩⟩
          refine iff_of_true hacc fun ⟨_, hv⟩ => ?_
          rcases hv with hv | hv
          · cases hv
          · rw [hm] at hv
            cases hv
        · next hm =>
          rw [accepts_query (.inr ⟨_, rfl⟩), ← Bool.not_eq_true]
          exact not_congr ⟨fun hb => ⟨hb, .inr (Bool.not_eq_true _ ▸ hm)⟩, And.left⟩
  · cases ha

/-! ### The forms of an accepted call -/

theorem forall_of_mapM {α β ε : Type} {f : α → Except ε β} {l : List α} {bs : List β}
    {P : β → Prop} {Q : α → Prop} (h : l.mapM f = .ok bs)
    (hpq : ∀ a ∈ l, ∀ b, f a = .ok b → (P b ↔ Q a)) : (∀ b ∈ bs, P b) ↔ ∀ a ∈ l, Q a := by
  obtain ⟨h1, h2, -⟩ := mem_of_mapM h
  refine ⟨fun hp a ha => ?_, fun hq b hb => ?_⟩
  · obtain ⟨b, hb, he⟩ := h2 a ha
    exact (hpq a ha b he).1 (hp b hb)
  · obtain ⟨a, ha, he⟩ := h1 b hb
    exact (hpq a ha b he).2 (hq a ha)

theorem unfit_iff {c : Call} : ¬ c.Unfit ↔
    ∀ arg ∈ c.args, ¬ (c.UnfitPath arg ∨ c.UnfitHost arg ∨ c.UnfitQuery arg) := by
  simp only [Call.Unfit, not_exists, not_and]

/-- A call that is no matcher of paths, hosts or queries fits. -/
theorem not_unfit_of_name {c : Call} (h : c.name = "Method" ∨ c.name = "ClientIP" ∨
    c.name = "Headers" ∨ c.name = "HeadersRegexp") : ¬ c.Unfit := by
  rintro ⟨arg, -, ⟨hn, -⟩ | ⟨hn, -⟩ | ⟨hn, -⟩⟩ <;>
    rcases h with h | h | h | h <;> simp [h] at hn

theorem not_unfit_path_iff {c : Call} {arg : String}
    (h : c.name = "Path" ∨ c.name = "PathPrefix") :
    ¬ (c.UnfitPath arg ∨ c.UnfitHost arg ∨ c.UnfitQuery arg) ↔
      hasMetacharacter arg = true ∨ checkPath arg = .ok () := by
  have hhost : ¬ c.UnfitHost arg := by
    rintro ⟨hn, -⟩
    rcases h with h | h <;> simp [h] at hn
  have hquery : ¬ c.UnfitQuery arg := by
    rintro ⟨hn, -⟩
    rcases h with h | h <;> simp [h] at hn
  rw [checkPath_eq_ok_iff]
  refine ⟨fun hu => ?_, fun hm hu => ?_⟩
  · by_cases hm : hasMetacharacter arg = true
    · exact .inl hm
    · by_cases hp : arg.toList.head? = some '/'
      · exact .inr hp
      · exact absurd (.inl ⟨h, by simpa using hm, hp⟩) hu
  · rcases hu with ⟨-, hn, hp⟩ | hu | hu
    · rcases hm with hm | hm
      · rw [hm] at hn
        cases hn
      · exact hp hm
    · exact hhost hu
    · exact hquery hu

theorem not_unfit_host_iff {c : Call} {arg : String}
    (h : c.name = "Host" ∨ c.name = "HostHeader" ∨ c.name = "HostRegexp") :
    ¬ (c.UnfitPath arg ∨ c.UnfitHost arg ∨ c.UnfitQuery arg) ↔
      hasMetacharacter arg = true ∨ checkHost arg = .ok () := by
  have hpath : ¬ c.UnfitPath arg := by
    rintro ⟨hn, -⟩
    rcases h with h | h | h <;> simp [h] at hn
  have hquery : ¬ c.UnfitQuery arg := by
    rintro ⟨hn, -⟩
    rcases h with h | h | h <;> simp [h] at hn
  rw [checkHost_eq_ok_iff]
  refine ⟨fun hu => ?_, fun hm hu => ?_⟩
  · by_cases hm : hasMetacharacter arg = true
    · exact .inl hm
    · exact .inr fun hh => hu (.inr (.inl ⟨h, by simpa using hm, hh⟩))
  · rcases hu with hu | ⟨-, hn, hh⟩ | hu
    · exact hpath hu
    · rcases hm with hm | hm
      · rw [hm] at hn
        cases hn
      · exact hm hh
    · exact hquery hu

theorem not_unfit_query_iff {c : Call} {arg : String} (h : c.name = "Query") :
    ¬ (c.UnfitPath arg ∨ c.UnfitHost arg ∨ c.UnfitQuery arg) ↔ ¬ c.UnfitQuery arg := by
  refine not_congr ⟨?_, fun hu => .inr (.inr hu)⟩
  rintro (⟨hn, -⟩ | ⟨hn, -⟩ | hu)
  · simp [h] at hn
  · simp [h] at hn
  · exact hu

/-- The forms of a call that version 2 accepts are accepted by version 3 unless the call is unfit. -/
theorem accepts_forms_iff [Regex.Limits] {c : Call} {fs : List Call} (h : Accepts .v2 c)
    (hf : c.forms = .ok fs) :
    (∀ f ∈ fs, Accepts .v3 f) ↔ ¬ c.Unfit := by
  rw [unfit_iff]
  have hsingle : ∀ {name : String} {check : String → Verdict},
      checkV3? name = some (checkOne check) → (∀ arg ∈ c.args, check arg = .ok ()) →
      ∀ f ∈ c.args.map fun arg => Call.mk name [arg] c.offset, Accepts .v3 f := by
    intro name check hn hc f hf
    obtain ⟨arg, ha, rfl⟩ := List.mem_map.1 hf
    exact accepts_iff.2 ⟨_, hn, checkOne_eq_ok_iff.2 (hc arg ha)⟩
  unfold Call.forms at hf
  rw [if_neg (by simpa using (findable_of_accepts h).1)] at hf
  cases acceptedV2_of_accepts h with
  | path hname ha =>
    have hform := fun name kind (hn : checkV3? name = some (checkOne checkPath)) =>
      fun arg (_ : arg ∈ c.args) f (hf : templatedForm name "PathRegexp" kind c.offset arg = .ok f) =>
        (accepts_templatedForm hf hn rfl).trans (not_unfit_path_iff hname).symm
    rcases hname with hn | hn <;> rw [hn] at hf
    · exact forall_of_mapM hf (hform _ _ rfl)
    · exact forall_of_mapM hf (hform _ _ rfl)
  | host hname ha =>
    have hform := fun arg (_ : arg ∈ c.args) f
        (hf : templatedForm "Host" "HostRegexp" .host c.offset arg = .ok f) =>
      (accepts_templatedForm hf rfl rfl).trans (not_unfit_host_iff hname).symm
    rcases hname with hn | hn | hn <;> rw [hn] at hf <;> exact forall_of_mapM hf hform
  | query hname ha hc =>
    rw [hname] at hf
    exact forall_of_mapM hf fun arg ha f hf =>
      (accepts_queryForm hname hf (hc arg ha)).trans (not_unfit_query_iff hname).symm
  | method hname ha hc =>
    rw [hname] at hf
    cases hf
    exact iff_of_true (hsingle rfl hc) (unfit_iff.1 (not_unfit_of_name (.inl hname)))
  | clientIP hname ha hc =>
    rw [hname] at hf
    cases hf
    exact iff_of_true (hsingle rfl hc) (unfit_iff.1 (not_unfit_of_name (.inr (.inl hname))))
  | headers hname key value ha =>
    rw [hname] at hf
    cases hf
    refine iff_of_true ?_ (unfit_iff.1 (not_unfit_of_name (.inr (.inr (.inl hname)))))
    rw [List.forall_mem_singleton, headerForm, ha]
    exact accepts_iff.2 ⟨_, rfl, rfl⟩
  | headersRegexp hname key value ha hc =>
    rw [hname] at hf
    cases hf
    refine iff_of_true ?_ (unfit_iff.1 (not_unfit_of_name (.inr (.inr (.inr hname)))))
    rw [List.forall_mem_singleton, headerForm, ha]
    exact accepts_iff.2 ⟨_, rfl, checkKeyRegex_eq_ok_iff.2 ⟨key, value, rfl, hc⟩⟩

/-! ### The forms of an accepted rule -/

/-- The calls of an expansion all have a property if the forms of all calls have it. -/
theorem forall_calls_expand [Regex.Limits] {P : Call → Prop} : ∀ {e x : Expr}, e.expand = .ok x →
    ((∀ f ∈ x.calls, P f) ↔ ∀ c ∈ e.calls, ∀ fs, c.forms = .ok fs → ∀ f ∈ fs, P f)
  | .call c, x, h => by
    rw [Expr.calls, List.forall_mem_singleton, calls_of_expand h]
    exact ⟨fun hp fs he => by cases he; exact hp, fun hp => hp _ rfl⟩
  | .not e, x, h => by
    obtain ⟨y, hy, he⟩ := bind_eq_ok h
    cases he
    rw [Expr.calls, Expr.calls, forall_calls_expand (e := e) hy]
  | .and l r, x, h => by
    obtain ⟨y, hy, h⟩ := bind_eq_ok h
    obtain ⟨z, hz, he⟩ := bind_eq_ok h
    cases he
    rw [Expr.calls, List.forall_mem_append, forall_calls_expand (e := l) hy,
      forall_calls_expand (e := r) hz, Expr.calls, List.forall_mem_append]
  | .or l r, x, h => by
    obtain ⟨y, hy, h⟩ := bind_eq_ok h
    obtain ⟨z, hz, he⟩ := bind_eq_ok h
    cases he
    rw [Expr.calls, List.forall_mem_append, forall_calls_expand (e := l) hy,
      forall_calls_expand (e := r) hz, Expr.calls, List.forall_mem_append]

theorem exists_expand [Regex.Limits] : ∀ {e : Expr}, (∀ c ∈ e.calls, ∃ fs, c.forms = .ok fs) →
    ∃ x, e.expand = .ok x
  | .call c, h => by
    obtain ⟨fs, hf⟩ := h c (List.mem_singleton_self c)
    rw [expand_call, Call.expand, hf]
    exact ⟨_, rfl⟩
  | .not e, h => by
    obtain ⟨x, hx⟩ := exists_expand (e := e) h
    exact ⟨.not x, by rw [expand_not, hx]; rfl⟩
  | .and l r, h => by
    obtain ⟨x, hx⟩ := exists_expand (e := l) fun c hc => h c (List.mem_append_left _ hc)
    obtain ⟨y, hy⟩ := exists_expand (e := r) fun c hc => h c (List.mem_append_right _ hc)
    exact ⟨.and x y, by rw [expand_and, hx, hy]; rfl⟩
  | .or l r, h => by
    obtain ⟨x, hx⟩ := exists_expand (e := l) fun c hc => h c (List.mem_append_left _ hc)
    obtain ⟨y, hy⟩ := exists_expand (e := r) fun c hc => h c (List.mem_append_right _ hc)
    exact ⟨.or x y, by rw [expand_or, hx, hy]; rfl⟩

theorem exists_forms_of_upgrade [Regex.Limits] {c : Call}
    (h : ∃ upgraded, (Matcher.ofName c.name).upgrade c.args = .ok upgraded) :
    ∃ fs, c.forms = .ok fs := by
  obtain ⟨upgraded, hu⟩ := h
  rcases upgrade_cases c with ⟨fault, -, he⟩ | ⟨fs, -, hf, -⟩
  · rw [hu] at he
    cases he
  · exact ⟨fs, hf⟩

/-- When all calls of a plainly written rule of version 2 can be upgraded, the upgrade of the rule fails
if and only if a call is unfit, and then version 3 rejects the new rule. -/
theorem upgrade_fails_iff [Regex.Limits] {rule : String} {priority : Int} {route : Route}
    (hv : validate rule .v2 priority = .ok route) (hplain : isPlain rule = true)
    (hall : ∀ c ∈ route.expr.calls,
      ∃ upgraded, (Matcher.ofName c.name).upgrade c.args = .ok upgraded) :
    ((∃ failure, upgrade rule priority = .error failure) ↔ ∃ c ∈ route.expr.calls, c.Unfit) ∧
    ∀ failure, upgrade rule priority = .error failure →
      ∃ rule' refusal, failure = .rejected rule' .v3 refusal := by
  obtain ⟨hle, hp, hc, -⟩ := validate_eq_ok_iff.1 hv
  obtain ⟨x, hx⟩ := exists_expand fun c hm => exists_forms_of_upgrade (hall c hm)
  rcases upgradeText_of_plain hp hc hplain with ⟨fault, he, -⟩ | ⟨y, rule', e', hy, ht, hp', he⟩
  · rw [hx] at he
    cases he
  rw [hx] at hy
  cases hy
  have haccepted : (∀ f ∈ e'.calls, Accepts .v3 f) ↔ ¬ ∃ c ∈ route.expr.calls, c.Unfit := by
    rw [accepts_congr he, forall_calls_expand hx]
    refine ⟨fun h ⟨c, hm, hu⟩ => ?_, fun h c hm fs hf => ?_⟩
    · obtain ⟨fs, hf⟩ := exists_forms_of_upgrade (hall c hm)
      exact (accepts_forms_iff (hc c hm) hf).1 (h c hm fs hf) hu
    · exact (accepts_forms_iff (hc c hm) hf).2 fun hu => h ⟨c, hm, hu⟩
  have hok := (exists_validate_iff hle hp').trans haccepted
  cases hv' : validate rule' .v3 priority with
  | error refusal =>
    have hrejected : upgrade rule priority = .error (.rejected rule' .v3 refusal) := by
      simp only [upgrade, ht, hv']
    rw [hrejected]
    refine ⟨⟨fun _ => ?_, fun _ => ⟨_, rfl⟩⟩, fun failure h => ?_⟩
    · by_cases hu : ∃ c ∈ route.expr.calls, c.Unfit
      · exact hu
      · obtain ⟨route', hr⟩ := hok.2 hu
        rw [hv'] at hr
        cases hr
    · cases h
      exact ⟨rule', refusal, rfl⟩
  | ok route' =>
    have hupgraded : upgrade rule priority = .ok rule' := by simp only [upgrade, ht, hv']
    rw [hupgraded]
    refine ⟨⟨fun ⟨_, h⟩ => (by cases h), fun hu => ?_⟩, fun failure h => (by cases h)⟩
    exact absurd hu (hok.1 ⟨route', hv'⟩)

theorem upgrade_fails_relative_path : ∃ route : Route,
    validate "Path(`a`)" .v2 0 = .ok route ∧ isPlain "Path(`a`)" = true ∧
    (∀ c ∈ route.expr.calls,
      ∃ upgraded, (Matcher.ofName c.name).upgrade c.args = .ok upgraded) ∧
    ∃ rule' refusal, upgrade "Path(`a`)" 0 = .error (.rejected rule' .v3 refusal) := by
  have ht : tokenize "Path(`a`)" = .ok [⟨0, .identifier "Path"⟩, ⟨4, .openParen⟩, ⟨5, .text "a"⟩,
      ⟨8, .closeParen⟩] := eq_ok_of_toOption (by decide +kernel)
  have ha : Accepts .v2 ⟨"Path", ["a"], 0⟩ := rfl
  have hv := validate_of_call (parse_of_single ht) ha
  have hall : ∀ c ∈ [Call.mk "Path" ["a"] 0],
      ∃ upgraded, (Matcher.ofName c.name).upgrade c.args = .ok upgraded :=
    List.forall_mem_singleton.2 ⟨some "Path(`a`)", rfl⟩
  obtain ⟨hiff, hrejected⟩ := upgrade_fails_iff hv (by decide) hall
  have hunfit : Call.Unfit ⟨"Path", ["a"], 0⟩ :=
    ⟨"a", List.mem_singleton_self _, .inl ⟨.inl rfl, by decide, by decide⟩⟩
  obtain ⟨failure, hf⟩ := hiff.2 ⟨_, List.mem_singleton_self _, hunfit⟩
  obtain ⟨rule', refusal, rfl⟩ := hrejected failure hf
  exact ⟨_, hv, by decide, hall, rule', refusal, hf⟩

end TraefikUpgrade.Rule
