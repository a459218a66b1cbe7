/-
# Accepted rules

A rule is accepted if it can be read, its priority is free and each of its calls passes the check of its
matcher (`validate_eq_ok_iff`). Where a call stands does not matter for that, so rules that differ in
places only are accepted together (`accepts_congr`).

Key definitions: `Accepts`.
Key theorems: `validate_eq_ok_iff`, `exists_validate_iff`, `accepts_congr`, `findable_of_accepts`.
-/
import TraefikUpgrade.Proofs.Rule.Plain
import TraefikUpgrade.Proofs.Traversal
import TraefikUpgrade.Rule.Check

namespace TraefikUpgrade.Rule

/-- The call passes the check of its matcher. -/
def Accepts [Regex.Limits] (dialect : Dialect) (c : Call) : Prop := checkCall dialect c = .ok ()

theorem validate_eq_ok_iff [Regex.Limits] {rule : String} {dialect : Dialect} {priority : Int}
    {route : Route} :
    validate rule dialect priority = .ok route ↔
      priority ≤ maxPriority ∧ parse rule = .ok route.expr ∧
        (∀ c ∈ route.expr.calls, Accepts dialect c) ∧ route.dialect = dialect ∧
        route.priority = if priority = 0 then (Text.utf8Length rule.toList : Int) else priority := by
  unfold validate
  by_cases hpri : maxPriority < priority
  · rw [if_pos hpri]
    exact ⟨(nomatch ·), fun h => absurd hpri (Int.not_lt.2 h.1)⟩
  rw [if_neg hpri]
  cases hp : parse rule with
  | error refusal => exact ⟨(nomatch ·), fun h => nomatch h.2.1⟩
  | ok e =>
    show (e.calls.forM (checkCall dialect) >>= fun _ => pure _) = _ ↔ _
    cases hc : e.calls.forM (checkCall dialect) with
    | error refusal =>
      refine ⟨(nomatch ·), fun h => ?_⟩
      obtain ⟨-, he, hcalls, -⟩ := h
      cases he
      rw [forM_eq_ok_iff.2 hcalls] at hc
      cases hc
    | ok u =>
      refine ⟨fun h => ?_, fun h => ?_⟩
      · cases h
        exact ⟨Int.not_lt.1 hpri, rfl, forM_eq_ok_iff.1 hc, rfl, rfl⟩
      · obtain ⟨e', d, p⟩ := route
        obtain ⟨-, he, -, hd, hp'⟩ := h
        cases he
        dsimp only at hd hp'
        rw [hd, hp']
        rfl

/-- A rule is accepted if it can be read and its calls are. -/
theorem exists_validate_iff [Regex.Limits] {rule : String} {dialect : Dialect} {priority : Int}
    {e : Expr} (hle : priority ≤ maxPriority) (hp : parse rule = .ok e) :
    (∃ route, validate rule dialect priority = .ok route) ↔ ∀ c ∈ e.calls, Accepts dialect c := by
  refine ⟨fun ⟨route, h⟩ => ?_, fun h => ⟨⟨e, dialect, _⟩, validate_eq_ok_iff.2
    ⟨hle, hp, h, rfl, rfl⟩⟩⟩
  obtain ⟨-, he, hc, -⟩ := validate_eq_ok_iff.1 h
  rw [hp] at he
  cases he
  exact hc

/-! ### Places do not matter -/

theorem accepts_iff [Regex.Limits] {dialect : Dialect} {c : Call} :
    Accepts dialect c ↔ ∃ check, dialect.check? c.name = some check ∧ check c.args = .ok () := by
  unfold Accepts checkCall
  cases hn : dialect.check? c.name with
  | none => exact ⟨fun h => (by cases h), fun ⟨_, h, _⟩ => absurd h (by simp)⟩
  | some check =>
    cases ha : check c.args with
    | error fault =>
      dsimp only
      rw [ha]
      refine ⟨(nomatch ·), fun ⟨check', h, hok⟩ => ?_⟩
      cases h
      rw [ha] at hok
      cases hok
    | ok u => exact ⟨fun _ => ⟨check, rfl, ha⟩, fun _ => by dsimp only; rw [ha]⟩

/-- A call is accepted if the check of its matcher accepts the arguments. -/
theorem accepts_iff_of_check? [Regex.Limits] {dialect : Dialect} {c : Call}
    {check : List String → Verdict}
    (hn : dialect.check? c.name = some check) : Accepts dialect c ↔ check c.args = .ok () := by
  rw [accepts_iff]
  exact ⟨fun ⟨_, hn', h⟩ => Option.some.inj (hn.symm.trans hn') ▸ h, fun h => ⟨check, hn, h⟩⟩

theorem accepts_unplaced [Regex.Limits] {dialect : Dialect} (c : Call) :
    Accepts dialect c.unplaced ↔ Accepts dialect c := by
  rw [accepts_iff, accepts_iff, Call.unplaced_name, Call.unplaced_args]

theorem calls_unplaced : ∀ (e : Expr),
    e.unplaced.calls = e.calls.map Call.unplaced
  | .call c => rfl
  | .not e => calls_unplaced e
  | .and l r => by rw [Expr.unplaced, Expr.calls, calls_unplaced l, calls_unplaced r, Expr.calls,
      List.map_append]
  | .or l r => by rw [Expr.unplaced, Expr.calls, calls_unplaced l, calls_unplaced r, Expr.calls,
      List.map_append]

/-- Expressions that are equal but for the places have equally acceptable calls. -/
theorem accepts_congr [Regex.Limits] {dialect : Dialect} {e e' : Expr} (h : e.unplaced = e'.unplaced) :
    (∀ c ∈ e.calls, Accepts dialect c) ↔ ∀ c ∈ e'.calls, Accepts dialect c := by
  have hcalls : ∀ (x : Expr),
      (∀ c ∈ x.calls, Accepts dialect c) ↔ ∀ c ∈ x.unplaced.calls, Accepts dialect c := by
    intro x
    rw [calls_unplaced, List.forall_mem_map]
    simp only [accepts_unplaced]
  rw [hcalls e, hcalls e', h]

/-! ### The calls of version 2 -/

theorem checkCount_eq_ok_iff {expected : Nat} {args : List String} :
    checkCount expected args = .ok () ↔ args.length = expected := by
  unfold checkCount
  by_cases h : args.length = expected
  · rw [if_pos h]
    exact ⟨fun _ => h, fun _ => rfl⟩
  · rw [if_neg h]
    exact ⟨(nomatch ·), fun h' => absurd h' h⟩

theorem checkEach_eq_ok_iff {check : String → Verdict} {args : List String} :
    checkEach check args = .ok () ↔ args ≠ [] ∧ ∀ arg ∈ args, check arg = .ok () := by
  unfold checkEach
  by_cases h : args.isEmpty = true
  · rw [if_pos h]
    exact ⟨(nomatch ·), fun h' => absurd (List.isEmpty_iff.1 h) h'.1⟩
  · rw [if_neg h, forM_eq_ok_iff]
    exact ⟨fun h' => ⟨fun he => h (List.isEmpty_iff.2 he), h'⟩, And.right⟩

theorem checkOne_eq_ok_iff_forall {check : String → Verdict} {args : List String} :
    checkOne check args = .ok () ↔ args.length = 1 ∧ ∀ arg ∈ args, check arg = .ok () := by
  rw [← checkCount_eq_ok_iff, ← forM_eq_ok_iff]
  show (checkCount 1 args >>= fun _ => args.forM check) = .ok () ↔ _
  cases checkCount 1 args with
  | error fault => exact ⟨(nomatch ·), fun h => nomatch h.1⟩
  | ok _ => exact ⟨fun h => ⟨rfl, h⟩, fun h => h.2⟩

theorem checkKeyRegex_eq_ok_iff [Regex.Limits] {args : List String} : checkKeyRegex args = .ok () ↔
    ∃ key value, args = [key, value] ∧ checkRegex value = .ok () := by
  unfold checkKeyRegex
  cases hc : checkCount 2 args with
  | error fault =>
    refine ⟨(nomatch ·), fun ⟨key, value, ha, _⟩ => ?_⟩
    rw [ha] at hc
    cases hc
  | ok u =>
    obtain ⟨key, value, rfl⟩ := List.length_eq_two.1 (checkCount_eq_ok_iff.1 hc)
    show [value].forM checkRegex = .ok () ↔ _
    rw [forM_eq_ok_iff, List.forall_mem_singleton]
    refine ⟨fun h => ⟨key, value, rfl, h⟩, fun ⟨key', value', ha, h⟩ => ?_⟩
    cases ha
    exact h

/-- The matchers of version 2 and what their arguments must be. -/
inductive AcceptedV2 [Regex.Limits] (c : Call) : Prop
  | path (h : c.name = "Path" ∨ c.name = "PathPrefix") (ha : c.args ≠ [])
  | host (h : c.name = "Host" ∨ c.name = "HostHeader" ∨ c.name = "HostRegexp") (ha : c.args ≠ [])
  | method (h : c.name = "Method") (ha : c.args ≠ []) (hc : ∀ arg ∈ c.args, checkFilled arg = .ok ())
  | clientIP (h : c.name = "ClientIP") (ha : c.args ≠ [])
    (hc : ∀ arg ∈ c.args, checkAddress arg = .ok ())
  | query (h : c.name = "Query") (ha : c.args ≠ [])
    (hc : ∀ arg ∈ c.args, checkKeyValue arg = .ok ())
  | headers (h : c.name = "Headers") (key value : String) (ha : c.args = [key, value])
  | headersRegexp (h : c.name = "HeadersRegexp") (key value : String) (ha : c.args = [key, value])
    (hc : checkRegex value = .ok ())

theorem acceptedV2_of_accepts [Regex.Limits] {c : Call} (h : Accepts .v2 c) : AcceptedV2 c := by
  obtain ⟨check, hn, hc⟩ := accepts_iff.1 h
  change checkV2? c.name = some check at hn
  unfold checkV2? at hn
  split at hn
  all_goals cases hn
  · next hname => exact .host (.inl hname) (checkEach_eq_ok_iff.1 hc).1
  · next hname => exact .host (.inr (.inl hname)) (checkEach_eq_ok_iff.1 hc).1
  · next hname => exact .method hname (checkEach_eq_ok_iff.1 hc).1 (checkEach_eq_ok_iff.1 hc).2
  · next hname => exact .host (.inr (.inr hname)) (checkEach_eq_ok_iff.1 hc).1
  · next hname => exact .path (.inl hname) (checkEach_eq_ok_iff.1 hc).1
  · next hname => exact .path (.inr hname) (checkEach_eq_ok_iff.1 hc).1
  · next hname =>
    obtain ⟨key, value, ha⟩ := List.length_eq_two.1 (checkCount_eq_ok_iff.1 hc)
    exact .headers hname key value ha
  · next hname =>
    obtain ⟨key, value, ha, hv⟩ := checkKeyRegex_eq_ok_iff.1 hc
    exact .headersRegexp hname key value ha hv
  · next hname => exact .query hname (checkEach_eq_ok_iff.1 hc).1 (checkEach_eq_ok_iff.1 hc).2
  · next hname => exact .clientIP hname (checkEach_eq_ok_iff.1 hc).1 (checkEach_eq_ok_iff.1 hc).2

/-- A call that version 2 accepts has arguments, and a name of word characters. -/
theorem findable_of_accepts [Regex.Limits] {c : Call} (h : Accepts .v2 c) : c.Findable := by
  cases acceptedV2_of_accepts h with
  | path h ha => exact ⟨ha, List.all_eq_true.1 (by rcases h with h | h <;> rw [h] <;> decide)⟩
  | host h ha => exact ⟨ha, List.all_eq_true.1 (by rcases h with h | h | h <;> rw [h] <;> decide)⟩
  | method h ha => exact ⟨ha, List.all_eq_true.1 (by rw [h]; decide)⟩
  | clientIP h ha => exact ⟨ha, List.all_eq_true.1 (by rw [h]; decide)⟩
  | query h ha => exact ⟨ha, List.all_eq_true.1 (by rw [h]; decide)⟩
  | headers h key value ha => exact ⟨by simp [ha], List.all_eq_true.1 (by rw [h]; decide)⟩
  | headersRegexp h key value ha => exact ⟨by simp [ha], List.all_eq_true.1 (by rw [h]; decide)⟩

/-! ### Rules of one call -/

theorem parse_of_single {rule name value : String} {o q r u : Nat}
    (h : tokenize rule = .ok [⟨o, .identifier name⟩, ⟨q, .openParen⟩, ⟨r, .text value⟩,
      ⟨u, .closeParen⟩]) : parse rule = .ok (.call ⟨name, [value], o⟩) :=
  parse_of_derives h (.conjunction (.operand (.call o name (.some q (.last r u value [])))))

theorem validate_of_call [Regex.Limits] {rule : String} {dialect : Dialect} {c : Call}
    (hp : parse rule = .ok (.call c)) (ha : Accepts dialect c) :
    validate rule dialect 0 = .ok ⟨.call c, dialect, Text.utf8Length rule.toList⟩ :=
  validate_eq_ok_iff.2 ⟨by decide, hp, List.forall_mem_singleton.2 ha, rfl, rfl⟩

end TraefikUpgrade.Rule
