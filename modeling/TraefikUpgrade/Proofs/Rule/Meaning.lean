/-
# The upgrade keeps the meaning of a rule

Whether a rule holds is decided by its calls: `Expr.holds` evaluates an expression when it is known which
calls hold. A call of version 2 means that one of its forms holds, and under this reading a rule and its
upgrade hold together (`holds_of_expand`).

Key definitions: `Expr.holds`, `Call.reads`, `Call.readsForms`.
Key theorems: `holds_of_expand`, `upgrade_refines_expansion`.
-/
import TraefikUpgrade.Proofs.Rule.Refinement

namespace TraefikUpgrade.Rule

/-- Whether an expression holds if `reads` tells which calls do. -/
def Expr.holds (reads : Call → Bool) : Expr → Bool
  | .call c => reads c
  | .not e => !e.holds reads
  | .and l r => l.holds reads && r.holds reads
  | .or l r => l.holds reads || r.holds reads

/-- What a call means, wherever it stands. -/
def Call.reads (meaning : String → List String → Bool) (c : Call) : Bool := meaning c.name c.args

/-- A call means that one of its forms holds. -/
def Call.readsForms [Regex.Limits] (meaning : String → List String → Bool) (c : Call) : Bool :=
  match c.forms with
  | .ok fs => fs.any (Call.reads meaning)
  | .error _ => false

variable {meaning : String → List String → Bool}

theorem holds_unplaced : ∀ (e : Expr),
    e.unplaced.holds (Call.reads meaning) = e.holds (Call.reads meaning)
  | .call c => rfl
  | .not e => congrArg (! ·) (holds_unplaced e)
  | .and l r => by rw [Expr.unplaced, Expr.holds, holds_unplaced l, holds_unplaced r, Expr.holds]
  | .or l r => by rw [Expr.unplaced, Expr.holds, holds_unplaced l, holds_unplaced r, Expr.holds]

theorem holds_foldl {reads : Call → Bool} : ∀ (others : List Call) (e : Expr),
    (others.foldl (fun e c => Expr.or e (.call c)) e).holds reads =
      (e.holds reads || others.any reads)
  | [], e => by rw [List.foldl_nil, List.any_nil, Bool.or_false]
  | c :: others, e => by
    rw [List.foldl_cons, holds_foldl others, List.any_cons, ← Bool.or_assoc]
    rfl

/-- An expansion holds whenever the expression does in the forms of its calls. -/
theorem holds_of_expand [Regex.Limits] : ∀ {e x : Expr}, e.expand = .ok x →
    x.holds (Call.reads meaning) = e.holds (Call.readsForms meaning)
  | .call c, x, h => by
    rw [expand_call, Call.expand] at h
    rw [Expr.holds, Call.readsForms]
    cases hf : c.forms with
    | error fault => rw [hf] at h; cases h
    | ok fs =>
      rw [hf] at h
      cases fs with
      | nil => exact absurd hf forms_ne_nil
      | cons first others =>
        cases h
        exact holds_foldl others (.call first)
  | .not e, x, h => by
    obtain ⟨y, hy, he⟩ := bind_eq_ok h
    cases he
    rw [Expr.holds, Expr.holds, holds_of_expand (e := e) hy]
  | .and l r, x, h => by
    obtain ⟨y, hy, h⟩ := bind_eq_ok h
    obtain ⟨z, hz, he⟩ := bind_eq_ok h
    cases he
    rw [Expr.holds, Expr.holds, holds_of_expand (e := l) hy, holds_of_expand (e := r) hz]
  | .or l r, x, h => by
    obtain ⟨y, hy, h⟩ := bind_eq_ok h
    obtain ⟨z, hz, he⟩ := bind_eq_ok h
    cases he
    rw [Expr.holds, Expr.holds, holds_of_expand (e := l) hy, holds_of_expand (e := r) hz]

/-- The upgrade of a plainly written rule of version 2 is read as the expansion of the rule, and holds
whenever the rule does with its calls read as the disjunctions of their forms. -/
theorem upgrade_refines_expansion [Regex.Limits] {rule rule' : String} {priority : Int} {route : Route}
    (hv : validate rule .v2 priority = .ok route) (hplain : isPlain rule = true)
    (hu : upgrade rule priority = .ok rule') :
    ∃ e x e', parse rule = .ok e ∧ e.expand = .ok x ∧ parse rule' = .ok e' ∧
      e'.unplaced = x.unplaced ∧
      ∀ meaning : String → List String → Bool,
        e'.holds (Call.reads meaning) = e.holds (Call.readsForms meaning) := by
  obtain ⟨-, hp, hc, -⟩ := validate_eq_ok_iff.1 hv
  obtain ⟨hu, -⟩ := upgrade_eq_ok_iff.1 hu
  rcases upgradeText_of_plain hp hc hplain with ⟨fault, -, he⟩ | ⟨x, text, e', hx, ht, hp', he⟩
  · rw [he] at hu
    cases hu
  · rw [ht] at hu
    cases hu
    refine ⟨route.expr, x, e', hp, hx, hp', he, fun meaning => ?_⟩
    calc e'.holds (Call.reads meaning)
      _ = e'.unplaced.holds (Call.reads meaning) := (holds_unplaced e').symm
      _ = x.unplaced.holds (Call.reads meaning) := by rw [he]
      _ = x.holds (Call.reads meaning) := holds_unplaced x
      _ = route.expr.holds (Call.readsForms meaning) := holds_of_expand hx

theorem upgrade_refines_expansion_two_paths : ∃ route : Route,
    validate "Path(`/a/{id}`, `/b`)" .v2 0 = .ok route ∧
    isPlain "Path(`/a/{id}`, `/b`)" = true ∧
    upgrade "Path(`/a/{id}`, `/b`)" 0 =
      .ok "(PathRegexp(`^/a/(?P<id>[^/]+)$`) || Path(`/b`))" ∧
    ∃ e x e', parse "Path(`/a/{id}`, `/b`)" = .ok e ∧ e.expand = .ok x ∧
      parse "(PathRegexp(`^/a/(?P<id>[^/]+)$`) || Path(`/b`))" = .ok e' ∧
      e'.unplaced = x.unplaced ∧
      ∀ meaning : String → List String → Bool,
        e'.holds (Call.reads meaning) = e.holds (Call.readsForms meaning) := by
  have ht : tokenize "Path(`/a/{id}`, `/b`)" = .ok [⟨0, .identifier "Path"⟩, ⟨4, .openParen⟩,
      ⟨5, .text "/a/{id}"⟩, ⟨14, .comma⟩, ⟨16, .text "/b"⟩, ⟨20, .closeParen⟩] :=
    eq_ok_of_toOption (by decide +kernel)
  have ht' : tokenize "(PathRegexp(`^/a/(?P<id>[^/]+)$`) || Path(`/b`))" =
      .ok [⟨0, .openParen⟩, ⟨1, .identifier "PathRegexp"⟩, ⟨11, .openParen⟩,
        ⟨12, .text "^/a/(?P<id>[^/]+)$"⟩, ⟨32, .closeParen⟩, ⟨34, .disjunction⟩,
        ⟨37, .identifier "Path"⟩, ⟨41, .openParen⟩, ⟨42, .text "/b"⟩, ⟨46, .closeParen⟩,
        ⟨47, .closeParen⟩] :=
    eq_ok_of_toOption (by decide +kernel)
  have hp := parse_of_derives ht
    (.conjunction (.operand (.call _ _ (.some _ (.more _ _ _ (.last _ _ _ _))))))
  have hp' := parse_of_derives ht' (.conjunction (.operand (.parens _ _ (.or _
    (.conjunction (.operand (.call _ _ (.some _ (.last _ _ _ _)))))
    (.operand (.call _ _ (.some _ (.last _ _ _ _))))))))
  have hc : Accepts .v2 ⟨"Path", ["/a/{id}", "/b"], 0⟩ := eq_ok_of_toOption (by decide +kernel)
  have hv := validate_of_call hp hc
  have hv' : ∃ route, validate "(PathRegexp(`^/a/(?P<id>[^/]+)$`) || Path(`/b`))" .v3 0 =
      .ok route := by
    refine (exists_validate_iff (by decide) hp').2 ?_
    have h1 : Accepts .v3 ⟨"PathRegexp", ["^/a/(?P<id>[^/]+)$"], 1⟩ :=
      eq_ok_of_toOption (by decide +kernel)
    have h2 : Accepts .v3 ⟨"Path", ["/b"], 37⟩ := eq_ok_of_toOption (by decide +kernel)
    simp [Expr.calls, h1, h2]
  have hu : upgrade "Path(`/a/{id}`, `/b`)" 0 =
      .ok "(PathRegexp(`^/a/(?P<id>[^/]+)$`) || Path(`/b`))" :=
    upgrade_eq_ok_iff.2 ⟨eq_ok_of_toOption (by decide +kernel), hv'⟩
  exact ⟨_, hv, by decide, hu, upgrade_refines_expansion hv (by decide) hu⟩

end TraefikUpgrade.Rule
