/-
# The grammar of match rules

`Derives` is the grammar as a relation: at a level of it, from the tokens that are left, to an
expression and the tokens that are left after it. The readers of a rule take exactly what the grammar
derives (`derives_of_readDisjunction`, `readRule_of_derives`), so a reader's answer can be followed
constructor by constructor, and the places of the tokens decide nothing but the places in the
expression (`Derives.congr`).

Key definitions: `Level`, `Strings`, `Arguments`, `Derives`, `Expr.unplaced`.
Key theorems: `derives_of_readRule`, `readRule_of_derives`, `Derives.congr`.
-/
import TraefikUpgrade.Rule.Parser

namespace TraefikUpgrade.Rule

/-! ### The relation -/

/-- The levels of the grammar, the loosest first. -/
inductive Level where
  | disjunction
  | conjunction
  | operand
deriving DecidableEq, Repr

/-- One or more strings with commas between them, and the closing parenthesis. -/
inductive Strings : List Located → List String → List Located → Prop
  | last (o q : Nat) (value : String) (rest : List Located) :
    Strings (⟨o, .text value⟩ :: ⟨q, .closeParen⟩ :: rest) [value] rest
  | more (o q : Nat) (value : String) {tokens rest : List Located} {values : List String} :
    Strings tokens values rest →
      Strings (⟨o, .text value⟩ :: ⟨q, .comma⟩ :: tokens) (value :: values) rest

/-- The arguments of a call with their parentheses. -/
inductive Arguments : List Located → List String → List Located → Prop
  | none (o q : Nat) (rest : List Located) :
    Arguments (⟨o, .openParen⟩ :: ⟨q, .closeParen⟩ :: rest) [] rest
  | some (o : Nat) {tokens rest : List Located} {values : List String} :
    Strings tokens values rest → Arguments (⟨o, .openParen⟩ :: tokens) values rest

/-- `Derives level tokens expr rest`: at `level`, the tokens before `rest` are `expr`. -/
inductive Derives : Level → List Located → Expr → List Located → Prop
  | call (o : Nat) (name : String) {tokens rest : List Located} {args : List String} :
    Arguments tokens args rest →
      Derives .operand (⟨o, .identifier name⟩ :: tokens) (.call ⟨name, args, o⟩) rest
  | not (o : Nat) {tokens rest : List Located} {e : Expr} :
    Derives .operand tokens e rest → Derives .operand (⟨o, .negation⟩ :: tokens) (.not e) rest
  | parens (o q : Nat) {tokens rest : List Located} {e : Expr} :
    Derives .disjunction tokens e (⟨q, .closeParen⟩ :: rest) →
      Derives .operand (⟨o, .openParen⟩ :: tokens) e rest
  | operand {tokens rest : List Located} {e : Expr} :
    Derives .operand tokens e rest → Derives .conjunction tokens e rest
  | and (o : Nat) {tokens middle rest : List Located} {l r : Expr} :
    Derives .conjunction tokens l (⟨o, .conjunction⟩ :: middle) → Derives .operand middle r rest →
      Derives .conjunction tokens (.and l r) rest
  | conjunction {tokens rest : List Located} {e : Expr} :
    Derives .conjunction tokens e rest → Derives .disjunction tokens e rest
  | or (o : Nat) {tokens middle rest : List Located} {l r : Expr} :
    Derives .disjunction tokens l (⟨o, .disjunction⟩ :: middle) →
      Derives .conjunction middle r rest → Derives .disjunction tokens (.or l r) rest

/-! ### What is read is derived -/

variable {finish : Nat}

theorem eq_cons_of_expect {token : Token} {tokens rest : List Located}
    {hlt : rest.length < tokens.length} (h : expect finish token tokens = .ok ⟨rest, hlt⟩) :
    ∃ o, tokens = ⟨o, token⟩ :: rest := by
  unfold expect at h
  split at h
  · cases h
  · next t tail =>
    split at h
    · next ht =>
      cases h
      exact ⟨t.offset, by rw [← ht]⟩
    · cases h

theorem strings_of_readStrings (tokens : List Located) {values : List String}
    {rest : List Located} {hlt : rest.length < tokens.length}
    (h : readStrings finish tokens = .ok (values, ⟨rest, hlt⟩)) : Strings tokens values rest := by
  unfold readStrings at h
  split at h
  · next o value q tail =>
    split at h
    · cases h
    · next values' rest' h' hr =>
      cases h
      exact .more o q value (strings_of_readStrings tail hr)
  · next o value tail _ =>
    split at h
    · cases h
    · next rest' h' he =>
      cases h
      obtain ⟨q, rfl⟩ := eq_cons_of_expect he
      exact .last o q value _
  · cases h
termination_by tokens.length

theorem arguments_of_readArguments {tokens : List Located} {args : List String}
    {rest : List Located} {hlt : rest.length < tokens.length}
    (h : readArguments finish tokens = .ok (args, ⟨rest, hlt⟩)) : Arguments tokens args rest := by
  unfold readArguments at h
  cases he : expect finish .openParen tokens with
  | error refusal => rw [he] at h; cases h
  | ok inner =>
    obtain ⟨tail, ht⟩ := inner
    rw [he] at h
    obtain ⟨o, rfl⟩ := eq_cons_of_expect he
    have hs : (match readStrings finish tail with
        | .error refusal => .error refusal
        | .ok (values, rest') => .ok (values, rest'.val)) = Except.ok (args, rest) →
        Arguments (⟨o, .openParen⟩ :: tail) args rest := by
      intro hm
      split at hm
      · cases hm
      · next values rest' hr =>
        cases hm
        exact .some o (strings_of_readStrings tail hr)
    rcases tail with _ | ⟨⟨q, token⟩, tail⟩
    · dsimp only at h
      apply hs
      split at h <;> simp_all
    · cases token with
      | closeParen => cases h; exact .none o q _
      | _ => 
        dsimp only at h
        apply hs
        split at h <;> simp_all

mutual

theorem derives_of_readDisjunction : ∀ (tokens : List Located) {e : Expr} {rest : List Located}
    {hlt : rest.length < tokens.length}, readDisjunction finish tokens = .ok (e, ⟨rest, hlt⟩) →
    Derives .disjunction tokens e rest := by
  intro tokens e rest hlt h
  unfold readDisjunction at h
  split at h
  · cases h
  · next left middle hm hl =>
    split at h
    · cases h
    · next expr rest' h' hr =>
      cases h
      exact derives_of_readDisjuncts middle hr (.conjunction (derives_of_readConjunction tokens hl))
termination_by tokens => (tokens.length, 4)
decreasing_by all_goals (simp [Prod.lex_def]; try omega)

/-- What is read after the alternatives `left` extends them. -/
theorem derives_of_readDisjuncts : ∀ (tokens : List Located) {all : List Located} {left e : Expr}
    {rest : List Located} {hle : rest.length ≤ tokens.length},
    readDisjuncts finish left tokens = .ok (e, ⟨rest, hle⟩) →
    Derives .disjunction all left tokens → Derives .disjunction all e rest
  | [], _, _, _, _, _, h, hl => by
    simp only [readDisjuncts] at h
    cases h
    exact hl
  | ⟨o, token⟩ :: tail, _, _, _, _, _, h, hl => by
    cases token with
    | disjunction =>
      simp only [readDisjuncts] at h
      split at h
      · cases h
      · next right middle hm hr =>
        split at h
        · cases h
        · next expr rest' h' hd =>
          cases h
          exact derives_of_readDisjuncts middle hd (.or o hl (derives_of_readConjunction tail hr))
    | _ =>
      simp only [readDisjuncts] at h
      cases h
      exact hl
termination_by tokens => (tokens.length, 0)
decreasing_by all_goals (simp [Prod.lex_def]; try omega)

theorem derives_of_readConjunction : ∀ (tokens : List Located) {e : Expr} {rest : List Located}
    {hlt : rest.length < tokens.length}, readConjunction finish tokens = .ok (e, ⟨rest, hlt⟩) →
    Derives .conjunction tokens e rest := by
  intro tokens e rest hlt h
  unfold readConjunction at h
  split at h
  · cases h
  · next left middle hm hl =>
    split at h
    · cases h
    · next expr rest' h' hr =>
      cases h
      exact derives_of_readConjuncts middle hr (.operand (derives_of_readOperand tokens hl))
termination_by tokens => (tokens.length, 3)
decreasing_by all_goals (simp [Prod.lex_def]; try omega)

/-- What is read after the operands `left` extends them. -/
theorem derives_of_readConjuncts : ∀ (tokens : List Located) {all : List Located} {left e : Expr}
    {rest : List Located} {hle : rest.length ≤ tokens.length},
    readConjuncts finish left tokens = .ok (e, ⟨rest, hle⟩) →
    Derives .conjunction all left tokens → Derives .conjunction all e rest
  | [], _, _, _, _, _, h, hl => by
    simp only [readConjuncts] at h
    cases h
    exact hl
  | ⟨o, token⟩ :: tail, _, _, _, _, _, h, hl => by
    cases token with
    | conjunction =>
      simp only [readConjuncts] at h
      split at h
      · cases h
      · next right middle hm hr =>
        split at h
        · cases h
        · next expr rest' h' hd =>
          cases h
          exact derives_of_readConjuncts middle hd (.and o hl (derives_of_readOperand tail hr))
    | _ =>
      simp only [readConjuncts] at h
      cases h
      exact hl
termination_by tokens => (tokens.length, 0)
decreasing_by all_goals (simp [Prod.lex_def]; try omega)

theorem derives_of_readOperand : ∀ (tokens : List Located) {e : Expr} {rest : List Located}
    {hlt : rest.length < tokens.length}, readOperand finish tokens = .ok (e, ⟨rest, hlt⟩) →
    Derives .operand tokens e rest
  | [], _, _, _, h => by simp [readOperand] at h
  | ⟨o, token⟩ :: tail, _, _, _, h => by
    cases token with
    | negation =>
      simp only [readOperand] at h
      split at h
      · cases h
      · next operand rest' h' hr =>
        cases h
        exact .not o (derives_of_readOperand tail hr)
    | openParen =>
      simp only [readOperand] at h
      split at h
      · cases h
      · next inner middle hm hr =>
        split at h
        · cases h
        · next rest' h' he =>
          cases h
          obtain ⟨q, rfl⟩ := eq_cons_of_expect he
          exact .parens o q (derives_of_readDisjunction tail hr)
    | identifier name =>
      simp only [readOperand] at h
      split at h
      · cases h
      · next args rest' h' hr =>
        cases h
        exact .call o name (arguments_of_readArguments hr)
    | _ => simp [readOperand] at h
termination_by tokens => (tokens.length, 2)
decreasing_by all_goals (simp [Prod.lex_def]; try omega)

end

/-! ### What is derived is read -/

variable (finish)

@[simp] theorem expect_cons (o : Nat) (token : Token) (rest : List Located) :
    expect finish token (⟨o, token⟩ :: rest) = .ok ⟨rest, Nat.lt_succ_self _⟩ := by
  simp [expect]

theorem readStrings_of_strings {tokens rest : List Located} {values : List String}
    (h : Strings tokens values rest) :
    ∃ hlt, readStrings finish tokens = .ok (values, ⟨rest, hlt⟩) := by
  induction h with
  | last o q value rest => exact ⟨by simp only [List.length_cons]; omega, by simp [readStrings]⟩
  | more o q value _ ih =>
    obtain ⟨hlt, ih⟩ := ih
    exact ⟨by simp only [List.length_cons]; omega, by simp [readStrings, ih]⟩

theorem readArguments_of_arguments {tokens rest : List Located} {args : List String}
    (h : Arguments tokens args rest) :
    ∃ hlt, readArguments finish tokens = .ok (args, ⟨rest, hlt⟩) := by
  cases h with
  | none o q => exact ⟨_, rfl⟩
  | some o h =>
    obtain ⟨hlt, hr⟩ := readStrings_of_strings finish h
    -- A string begins the tokens inside, so the parenthesis does not close at once.
    cases h <;> exact ⟨Nat.lt_succ_of_lt hlt, by simp only [readArguments, expect_cons, hr]⟩

/-- What the readers of each level do on tokens that the grammar derives. Conjunction and disjunction
associate to the left, so their readers go on from what is derived so far. -/
def Reads : Level → List Located → Expr → List Located → Prop
  | .operand, tokens, e, rest => ∃ h, readOperand finish tokens = .ok (e, ⟨rest, h⟩)
  | .conjunction, tokens, e, rest => ∀ {e' : Expr} {rest' : List Located},
    (∃ h, readConjuncts finish e rest = .ok (e', ⟨rest', h⟩)) →
    ∃ h, readConjunction finish tokens = .ok (e', ⟨rest', h⟩)
  | .disjunction, tokens, e, rest => (∀ o tail, rest ≠ ⟨o, .conjunction⟩ :: tail) →
    ∀ {e' : Expr} {rest' : List Located},
    (∃ h, readDisjuncts finish e rest = .ok (e', ⟨rest', h⟩)) →
    ∃ h, readDisjunction finish tokens = .ok (e', ⟨rest', h⟩)

theorem readConjuncts_stop {e : Expr} {rest : List Located}
    (h : ∀ o tail, rest ≠ ⟨o, .conjunction⟩ :: tail) :
    ∃ hle, readConjuncts finish e rest = .ok (e, ⟨rest, hle⟩) := by
  unfold readConjuncts
  split
  · next o tail => exact absurd rfl (h o tail)
  · exact ⟨Nat.le_refl _, rfl⟩

theorem readDisjuncts_stop {e : Expr} {rest : List Located}
    (h : ∀ o tail, rest ≠ ⟨o, .disjunction⟩ :: tail) :
    ∃ hle, readDisjuncts finish e rest = .ok (e, ⟨rest, hle⟩) := by
  unfold readDisjuncts
  split
  · next o tail => exact absurd rfl (h o tail)
  · exact ⟨Nat.le_refl _, rfl⟩

theorem reads_of_derives {level : Level} {tokens rest : List Located} {e : Expr}
    (h : Derives level tokens e rest) : Reads finish level tokens e rest := by
  induction h with
  | call o name h =>
    obtain ⟨hlt, hr⟩ := readArguments_of_arguments finish h
    exact ⟨Nat.lt_succ_of_lt hlt, by simp only [readOperand, hr]⟩
  | not o _ ih =>
    obtain ⟨hlt, ih⟩ := ih
    exact ⟨Nat.lt_succ_of_lt hlt, by simp only [readOperand, ih]⟩
  | parens o q _ ih =>
    obtain ⟨hlt, hr⟩ := ih (by simp) (readDisjuncts_stop finish (by simp))
    exact ⟨by simp only [List.length_cons] at hlt ⊢; omega,
      by simp only [readOperand, hr, expect_cons]⟩
  | operand _ ih =>
    rintro e' rest' ⟨hle, hr⟩
    obtain ⟨hlt, ih⟩ := ih
    exact ⟨Nat.lt_of_le_of_lt hle hlt, by simp only [readConjunction, ih, hr]⟩
  | and o _ _ ihl ihr =>
    rintro e' rest' ⟨hle, hr⟩
    obtain ⟨hlt, ihr⟩ := ihr
    exact ihl ⟨by simp only [List.length_cons]; omega, by simp only [readConjuncts, ihr, hr]⟩
  | conjunction _ ih =>
    rintro hc e' rest' ⟨hle, hr⟩
    obtain ⟨hlt, hj⟩ := ih (readConjuncts_stop finish hc)
    exact ⟨Nat.lt_of_le_of_lt hle hlt, by simp only [readDisjunction, hj, hr]⟩
  | or o _ _ ihl ihr =>
    rintro hc e' rest' ⟨hle, hr⟩
    obtain ⟨hlt, hj⟩ := ihr (readConjuncts_stop finish hc)
    exact ihl (by simp)
      ⟨by simp only [List.length_cons]; omega, by simp only [readDisjuncts, hj, hr]⟩

theorem readRule_of_derives {tokens : List Located} {e : Expr}
    (h : Derives .disjunction tokens e []) : readRule finish tokens = .ok e := by
  obtain ⟨hlt, hr⟩ := reads_of_derives finish h (by simp) (readDisjuncts_stop finish (by simp))
  simp only [readRule, hr]

theorem derives_of_readRule {finish : Nat} {tokens : List Located} {e : Expr}
    (h : readRule finish tokens = .ok e) : Derives .disjunction tokens e [] := by
  unfold readRule at h
  split at h
  · cases h
  · next hr =>
    cases h
    exact derives_of_readDisjunction tokens hr
  · cases h

/-- A rule is read as what its tokens derive. -/
theorem parse_eq_ok_iff {rule : String} {e : Expr} : parse rule = .ok e ↔
    Unicode.isBlank rule = false ∧
      ∃ tokens, tokenize rule = .ok tokens ∧ Derives .disjunction tokens e [] := by
  unfold parse
  cases hb : Unicode.isBlank rule with
  | true => simp
  | false =>
    cases ht : tokenize rule with
    | error refusal => simp [bind, Except.bind]
    | ok tokens =>
      simp only [bind, Except.bind, Bool.false_eq_true, if_false, Except.ok.injEq,
        exists_eq_left', true_and]
      exact ⟨derives_of_readRule, readRule_of_derives _⟩

/-! ### Places -/

/-- The call with its place forgotten. -/
def Call.unplaced (c : Call) : Call := { c with offset := 0 }

@[simp] theorem Call.unplaced_name (c : Call) : c.unplaced.name = c.name := rfl

@[simp] theorem Call.unplaced_args (c : Call) : c.unplaced.args = c.args := rfl

@[simp] theorem Call.unplaced_offset (c : Call) : c.unplaced.offset = 0 := rfl

/-- The expression with all places forgotten. -/
def Expr.unplaced : Expr → Expr
  | .call c => .call c.unplaced
  | .not e => .not e.unplaced
  | .and l r => .and l.unplaced r.unplaced
  | .or l r => .or l.unplaced r.unplaced

theorem eq_cons_of_map_token {tokens rest : List Located} {t : Located}
    (h : tokens.map Located.token = (t :: rest).map Located.token) :
    ∃ o rest', tokens = ⟨o, t.token⟩ :: rest' ∧
      rest'.map Located.token = rest.map Located.token := by
  cases tokens with
  | nil => cases h
  | cons t' rest' =>
    simp only [List.map_cons, List.cons.injEq] at h
    exact ⟨t'.offset, rest', by rw [← h.1], h.2⟩

theorem Strings.congr {tokens rest : List Located} {values : List String}
    (h : Strings tokens values rest) : ∀ {tokens' : List Located},
    tokens'.map Located.token = tokens.map Located.token →
    ∃ rest', Strings tokens' values rest' ∧
      rest'.map Located.token = rest.map Located.token := by
  induction h with
  | last o q value rest =>
    intro tokens' ht
    obtain ⟨o', tail, rfl, h1⟩ := eq_cons_of_map_token ht
    obtain ⟨q', rest', rfl, h2⟩ := eq_cons_of_map_token h1
    exact ⟨rest', .last o' q' value rest', h2⟩
  | more o q value _ ih =>
    intro tokens' ht
    obtain ⟨o', tail, rfl, h1⟩ := eq_cons_of_map_token ht
    obtain ⟨q', tail', rfl, h2⟩ := eq_cons_of_map_token h1
    obtain ⟨rest', hs, hr⟩ := ih h2
    exact ⟨rest', .more o' q' value hs, hr⟩

theorem Arguments.congr {tokens tokens' rest : List Located} {args : List String}
    (h : Arguments tokens args rest)
    (ht : tokens'.map Located.token = tokens.map Located.token) :
    ∃ rest', Arguments tokens' args rest' ∧
      rest'.map Located.token = rest.map Located.token := by
  cases h with
  | none o q =>
    obtain ⟨o', tail, rfl, h1⟩ := eq_cons_of_map_token ht
    obtain ⟨q', rest', rfl, h2⟩ := eq_cons_of_map_token h1
    exact ⟨rest', .none o' q' rest', h2⟩
  | some o h =>
    obtain ⟨o', tail, rfl, h1⟩ := eq_cons_of_map_token ht
    obtain ⟨rest', hs, hr⟩ := h.congr h1
    exact ⟨rest', .some o' hs, hr⟩

/-- Tokens at other places derive the same, but for the places. -/
theorem Derives.congr {level : Level} {tokens rest : List Located} {e : Expr}
    (h : Derives level tokens e rest) : ∀ {tokens' : List Located},
    tokens'.map Located.token = tokens.map Located.token →
    ∃ e' rest', Derives level tokens' e' rest' ∧ e'.unplaced = e.unplaced ∧
      rest'.map Located.token = rest.map Located.token := by
  induction h with
  | call o name h =>
    intro tokens' ht
    obtain ⟨o', tail, rfl, h1⟩ := eq_cons_of_map_token ht
    obtain ⟨rest', ha, hr⟩ := h.congr h1
    exact ⟨_, rest', .call o' name ha, rfl, hr⟩
  | not o _ ih =>
    intro tokens' ht
    obtain ⟨o', tail, rfl, h1⟩ := eq_cons_of_map_token ht
    obtain ⟨e', rest', hd, he, hr⟩ := ih h1
    exact ⟨_, rest', .not o' hd, by rw [Expr.unplaced, he, Expr.unplaced], hr⟩
  | parens o q _ ih =>
    intro tokens' ht
    obtain ⟨o', tail, rfl, h1⟩ := eq_cons_of_map_token ht
    obtain ⟨e', middle, hd, he, hm⟩ := ih h1
    obtain ⟨q', rest', rfl, hr⟩ := eq_cons_of_map_token hm
    exact ⟨e', rest', .parens o' q' hd, he, hr⟩
  | operand _ ih =>
    intro tokens' ht
    obtain ⟨e', rest', hd, he, hr⟩ := ih ht
    exact ⟨e', rest', .operand hd, he, hr⟩
  | and o _ _ ihl ihr =>
    intro tokens' ht
    obtain ⟨l', middle, hl, hel, hm⟩ := ihl ht
    obtain ⟨o', middle', rfl, h1⟩ := eq_cons_of_map_token hm
    obtain ⟨r', rest', hr, her, h2⟩ := ihr h1
    exact ⟨_, rest', .and o' hl hr, by rw [Expr.unplaced, hel, her, Expr.unplaced], h2⟩
  | conjunction _ ih =>
    intro tokens' ht
    obtain ⟨e', rest', hd, he, hr⟩ := ih ht
    exact ⟨e', rest', .conjunction hd, he, hr⟩
  | or o _ _ ihl ihr =>
    intro tokens' ht
    obtain ⟨l', middle, hl, hel, hm⟩ := ihl ht
    obtain ⟨o', middle', rfl, h1⟩ := eq_cons_of_map_token hm
    obtain ⟨r', rest', hr, her, h2⟩ := ihr h1
    exact ⟨_, rest', .or o' hl hr, by rw [Expr.unplaced, hel, her, Expr.unplaced], h2⟩

/-! ### Tokens are used up -/

theorem Strings.length_lt {tokens rest : List Located} {values : List String}
    (h : Strings tokens values rest) : rest.length < tokens.length := by
  induction h with
  | last o q value rest => simp only [List.length_cons]; omega
  | more o q value _ ih => simp only [List.length_cons]; omega

theorem Arguments.length_lt {tokens rest : List Located} {args : List String}
    (h : Arguments tokens args rest) : rest.length < tokens.length := by
  cases h with
  | none o q => simp only [List.length_cons]; omega
  | some o h => exact Nat.lt_succ_of_lt h.length_lt

theorem Derives.length_lt {level : Level} {tokens rest : List Located} {e : Expr}
    (h : Derives level tokens e rest) : rest.length < tokens.length := by
  induction h with
  | call o name h => exact Nat.lt_succ_of_lt h.length_lt
  | not o _ ih => exact Nat.lt_succ_of_lt ih
  | parens o q _ ih => simp only [List.length_cons] at ih ⊢; omega
  | operand _ ih => exact ih
  | and o _ _ ihl ihr => simp only [List.length_cons] at ihl; omega
  | conjunction _ ih => exact ih
  | or o _ _ ihl ihr => simp only [List.length_cons] at ihl; omega

/-- Arguments are read in one way only. -/
theorem Arguments.unique {tokens rest rest' : List Located} {args args' : List String}
    (h : Arguments tokens args rest) (h' : Arguments tokens args' rest') :
    args = args' ∧ rest = rest' := by
  obtain ⟨hlt, hr⟩ := readArguments_of_arguments 0 h
  obtain ⟨hlt', hr'⟩ := readArguments_of_arguments 0 h'
  rw [hr] at hr'
  cases hr'
  exact ⟨rfl, rfl⟩

/-! ### The calls of a rule among its tokens -/

theorem Strings.suffix {tokens rest : List Located} {values : List String}
    (h : Strings tokens values rest) : rest <:+ tokens := by
  induction h with
  | last o q value rest => exact (List.suffix_cons _ _).trans (List.suffix_cons _ _)
  | more o q value _ ih => exact ih.trans ((List.suffix_cons _ _).trans (List.suffix_cons _ _))

theorem Arguments.suffix {tokens rest : List Located} {args : List String}
    (h : Arguments tokens args rest) : rest <:+ tokens := by
  cases h with
  | none o q => exact (List.suffix_cons _ _).trans (List.suffix_cons _ _)
  | some o h => exact h.suffix.trans (List.suffix_cons _ _)

theorem Derives.suffix {level : Level} {tokens rest : List Located} {e : Expr}
    (h : Derives level tokens e rest) : rest <:+ tokens := by
  induction h with
  | call o name h => exact h.suffix.trans (List.suffix_cons _ _)
  | not o _ ih => exact ih.trans (List.suffix_cons _ _)
  | parens o q _ ih => exact ((List.suffix_cons _ _).trans ih).trans (List.suffix_cons _ _)
  | operand _ ih => exact ih
  | and o _ _ ihl ihr => exact (ihr.trans (List.suffix_cons _ _)).trans ihl
  | conjunction _ ih => exact ih
  | or o _ _ ihl ihr => exact (ihr.trans (List.suffix_cons _ _)).trans ihl

/-- Every call of an expression is named by a token at its place. -/
theorem Derives.named {level : Level} {tokens rest : List Located} {e : Expr}
    (h : Derives level tokens e rest) :
    ∀ c ∈ e.calls, (⟨c.offset, .identifier c.name⟩ : Located) ∈ tokens := by
  induction h with
  | call o name h =>
    intro c hc
    rw [Expr.calls, List.mem_singleton] at hc
    rw [hc]
    exact List.mem_cons_self ..
  | not o _ ih => exact fun c hc => List.mem_cons_of_mem _ (ih c hc)
  | parens o q _ ih => exact fun c hc => List.mem_cons_of_mem _ (ih c hc)
  | operand _ ih => exact ih
  | and o hl _ ihl ihr =>
    intro c hc
    rcases List.mem_append.1 hc with hc | hc
    · exact ihl c hc
    · exact hl.suffix.subset (List.mem_cons_of_mem _ (ihr c hc))
  | conjunction _ ih => exact ih
  | or o hl _ ihl ihr =>
    intro c hc
    rcases List.mem_append.1 hc with hc | hc
    · exact ihl c hc
    · exact hl.suffix.subset (List.mem_cons_of_mem _ (ihr c hc))

/-- No name stands among strings. -/
theorem Strings.length_lt_of_name {tokens rest : List Located} {values : List String}
    (h : Strings tokens values rest) {o : Nat} {name : String} {ts : List Located}
    (hs : ⟨o, .identifier name⟩ :: ts <:+ tokens) : ts.length < rest.length := by
  induction h with
  | last o' q value rest =>
    simp only [List.suffix_cons_iff, List.cons.injEq, Located.mk.injEq, reduceCtorEq, and_false,
      false_and, false_or] at hs
    exact hs.length_le
  | more o' q value _ ih =>
    simp only [List.suffix_cons_iff, List.cons.injEq, Located.mk.injEq, reduceCtorEq, and_false,
      false_and, false_or] at hs
    exact ih hs

theorem Arguments.length_lt_of_name {tokens rest : List Located} {args : List String}
    (h : Arguments tokens args rest) {o : Nat} {name : String} {ts : List Located}
    (hs : ⟨o, .identifier name⟩ :: ts <:+ tokens) : ts.length < rest.length := by
  cases h with
  | none o' q =>
    simp only [List.suffix_cons_iff, List.cons.injEq, Located.mk.injEq, reduceCtorEq, and_false,
      false_and, false_or] at hs
    exact hs.length_le
  | some o' h =>
    simp only [List.suffix_cons_iff, List.cons.injEq, Located.mk.injEq, reduceCtorEq, and_false,
      false_and, false_or] at hs
    exact h.length_lt_of_name hs

/-- A suffix of two tails of the tokens is one of the shorter tail, and begins it or not with the same
token. -/
theorem suffix_of_length_le {s tokens tail : List Located} {t : Located}
    (hs : s <:+ tokens) (htail : t :: tail <:+ tokens) (hle : s.length ≤ (t :: tail).length)
    (hne : s ≠ t :: tail) : s <:+ tail :=
  (List.suffix_cons_iff.1 (List.suffix_of_suffix_length_le hs htail hle)).resolve_left hne

/-- Every name among the tokens of an expression begins a call of it. -/
theorem Derives.call_of_suffix {level : Level} {tokens rest : List Located} {e : Expr}
    (h : Derives level tokens e rest) : ∀ {o : Nat} {name : String} {ts : List Located},
    ⟨o, .identifier name⟩ :: ts <:+ tokens → rest.length ≤ ts.length →
    ∃ args rest', Arguments ts args rest' ∧ ⟨name, args, o⟩ ∈ e.calls := by
  induction h with
  | @call o' name' tokens rest args ha =>
    intro o name ts hs hle
    rcases List.suffix_cons_iff.1 hs with he | hs
    · cases he
      exact ⟨args, rest, ha, List.mem_singleton_self _⟩
    · exact absurd hle (Nat.not_le.2 (ha.length_lt_of_name hs))
  | not o' _ ih =>
    intro o name ts hs hle
    exact ih ((List.suffix_cons_iff.1 hs).resolve_left (by simp)) hle
  | @parens o' q tokens rest e hd ih =>
    intro o name ts hs hle
    have hs := (List.suffix_cons_iff.1 hs).resolve_left (by simp)
    by_cases hlt : rest.length < ts.length
    · exact ih hs hlt
    · -- The name would stand where the closing parenthesis does.
      have hlen : ts.length + 1 = rest.length + 1 := by omega
      have he := (List.suffix_of_suffix_length_le hs hd.suffix (Nat.le_of_eq hlen)).eq_of_length hlen
      cases he
  | operand _ ih => exact ih
  | @and o' tokens middle rest l r hl _ ihl ihr =>
    intro o name ts hs hle
    by_cases hlt : middle.length + 1 ≤ ts.length
    · obtain ⟨args, rest', ha, hc⟩ := ihl hs hlt
      exact ⟨args, rest', ha, List.mem_append_left _ hc⟩
    · have hs := suffix_of_length_le hs hl.suffix (Nat.not_le.1 hlt) (by simp)
      obtain ⟨args, rest', ha, hc⟩ := ihr hs hle
      exact ⟨args, rest', ha, List.mem_append_right _ hc⟩
  | conjunction _ ih => exact ih
  | @or o' tokens middle rest l r hl _ ihl ihr =>
    intro o name ts hs hle
    by_cases hlt : middle.length + 1 ≤ ts.length
    · obtain ⟨args, rest', ha, hc⟩ := ihl hs hlt
      exact ⟨args, rest', ha, List.mem_append_left _ hc⟩
    · have hs := suffix_of_length_le hs hl.suffix (Nat.not_le.1 hlt) (by simp)
      obtain ⟨args, rest', ha, hc⟩ := ihr hs hle
      exact ⟨args, rest', ha, List.mem_append_right _ hc⟩

end TraefikUpgrade.Rule
