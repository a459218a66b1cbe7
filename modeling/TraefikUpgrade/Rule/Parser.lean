/-
# Reading a rule

A rule is a disjunction of conjunctions of negations, calls and rules in parentheses. The operators
associate to the left; conjunction binds tighter than disjunction and negation tighter than both.

Each reader takes the tokens that are left and gives what it read with the tokens after it. `finish` is
the length of the rule in bytes, the place of a fault at its end.

Key definitions: `readDisjunction`, `readConjunction`, `readOperand`, `readArguments`, `parse`.
-/
import TraefikUpgrade.Rule.Expr
import TraefikUpgrade.Rule.Lexer

namespace TraefikUpgrade.Rule

/-- Tokens that are left when at least one of `tokens` has been read. -/
abbrev Shorter (tokens : List Located) := { rest : List Located // rest.length < tokens.length }

/-- The place of the next token, which is the end of the rule after the last one. -/
def placeOf (finish : Nat) : List Located → Nat
  | [] => finish
  | t :: _ => t.offset

/-- The refusal of the next token where another one was wanted. -/
def mismatch (finish : Nat) (wanted : Wanted) (tokens : List Located) : Refusal :=
  ⟨placeOf finish tokens, .expected wanted (tokens.head?.map Located.token)⟩

/-- Reads the given token. -/
def expect (finish : Nat) (token : Token) (tokens : List Located) :
    Except Refusal (Shorter tokens) :=
  match tokens with
  | [] => .error (mismatch finish (.token token) [])
  | t :: rest =>
    if t.token = token then .ok ⟨rest, by simp⟩
    else .error (mismatch finish (.token token) (t :: rest))

/-- Reads one or more strings with commas between them and the closing parenthesis. -/
def readStrings (finish : Nat) (tokens : List Located) :
    Except Refusal (List String × Shorter tokens) :=
  match tokens with
  | ⟨_, .text value⟩ :: ⟨_, .comma⟩ :: rest =>
    match readStrings finish rest with
    | .error refusal => .error refusal
    | .ok (values, ⟨rest', h⟩) => .ok (value :: values, ⟨rest', by simp only [List.length_cons]; omega⟩)
  | ⟨_, .text value⟩ :: rest =>
    match expect finish .closeParen rest with
    | .error refusal => .error refusal
    | .ok ⟨rest', h⟩ => .ok ([value], ⟨rest', by simp only [List.length_cons]; omega⟩)
  | tokens => .error (mismatch finish .argument tokens)

/-- Reads the arguments of a call with their parentheses. -/
def readArguments (finish : Nat) (tokens : List Located) :
    Except Refusal (List String × Shorter tokens) :=
  match expect finish .openParen tokens with
  | .error refusal => .error refusal
  | .ok ⟨⟨_, .closeParen⟩ :: rest, h⟩ =>
    .ok ([], ⟨rest, by simp only [List.length_cons] at h; omega⟩)
  | .ok ⟨rest, h⟩ =>
    match readStrings finish rest with
    | .error refusal => .error refusal
    | .ok (values, ⟨rest', h'⟩) => .ok (values, ⟨rest', by omega⟩)

mutual

/-- Reads a rule. -/
def readDisjunction (finish : Nat) (tokens : List Located) :
    Except Refusal (Expr × Shorter tokens) :=
  match readConjunction finish tokens with
  | .error refusal => .error refusal
  | .ok (left, ⟨rest, h⟩) =>
    match readDisjuncts finish left rest with
    | .error refusal => .error refusal
    | .ok (expr, ⟨rest', h'⟩) => .ok (expr, ⟨rest', by omega⟩)
termination_by (tokens.length, 4)

/-- Reads the further alternatives after `left`. -/
def readDisjuncts (finish : Nat) (left : Expr) (tokens : List Located) :
    Except Refusal (Expr × { rest : List Located // rest.length ≤ tokens.length }) :=
  match tokens with
  | ⟨_, .disjunction⟩ :: tail =>
    match readConjunction finish tail with
    | .error refusal => .error refusal
    | .ok (right, ⟨rest, h⟩) =>
      match readDisjuncts finish (.or left right) rest with
      | .error refusal => .error refusal
      | .ok (expr, ⟨rest', h'⟩) => .ok (expr, ⟨rest', by simp only [List.length_cons]; omega⟩)
  | tokens => .ok (left, ⟨tokens, Nat.le_refl _⟩)
termination_by (tokens.length, 0)

/-- Reads operands joined by conjunction. -/
def readConjunction (finish : Nat) (tokens : List Located) :
    Except Refusal (Expr × Shorter tokens) :=
  match readOperand finish tokens with
  | .error refusal => .error refusal
  | .ok (left, ⟨rest, h⟩) =>
    match readConjuncts finish left rest with
    | .error refusal => .error refusal
    | .ok (expr, ⟨rest', h'⟩) => .ok (expr, ⟨rest', by omega⟩)
termination_by (tokens.length, 3)

/-- Reads the further operands after `left`. -/
def readConjuncts (finish : Nat) (left : Expr) (tokens : List Located) :
    Except Refusal (Expr × { rest : List Located // rest.length ≤ tokens.length }) :=
  match tokens with
  | ⟨_, .conjunction⟩ :: tail =>
    match readOperand finish tail with
    | .error refusal => .error refusal
    | .ok (right, ⟨rest, h⟩) =>
      match readConjuncts finish (.and left right) rest with
      | .error refusal => .error refusal
      | .ok (expr, ⟨rest', h'⟩) => .ok (expr, ⟨rest', by simp only [List.length_cons]; omega⟩)
  | tokens => .ok (left, ⟨tokens, Nat.le_refl _⟩)
termination_by (tokens.length, 0)

/-- Reads a negation, a rule in parentheses or a call. -/
def readOperand (finish : Nat) (tokens : List Located) :
    Except Refusal (Expr × Shorter tokens) :=
  match tokens with
  | ⟨_, .negation⟩ :: tail =>
    match readOperand finish tail with
    | .error refusal => .error refusal
    | .ok (operand, ⟨rest, h⟩) => .ok (.not operand, ⟨rest, by simp only [List.length_cons]; omega⟩)
  | ⟨_, .openParen⟩ :: tail =>
    match readDisjunction finish tail with
    | .error refusal => .error refusal
    | .ok (inner, ⟨rest, h⟩) =>
      match expect finish .closeParen rest with
      | .error refusal => .error refusal
      | .ok ⟨rest', h'⟩ => .ok (inner, ⟨rest', by simp only [List.length_cons]; omega⟩)
  | ⟨offset, .identifier name⟩ :: tail =>
    match readArguments finish tail with
    | .error refusal => .error refusal
    | .ok (args, ⟨rest, h⟩) =>
      .ok (.call ⟨name, args, offset⟩, ⟨rest, by simp only [List.length_cons]; omega⟩)
  | tokens => .error (mismatch finish .matcher tokens)
termination_by (tokens.length, 2)

end

/-- Reads a rule whose tokens must all be used. -/
def readRule (finish : Nat) (tokens : List Located) : Except Refusal Expr :=
  match readDisjunction finish tokens with
  | .error refusal => .error refusal
  | .ok (expr, ⟨[], _⟩) => .ok expr
  | .ok (_, ⟨t :: _, _⟩) => .error ⟨t.offset, .unexpected t.token⟩

/-- Reads the text of a rule. -/
def parse (rule : String) : Except Refusal Expr :=
  if Unicode.isBlank rule then .error ⟨0, .empty⟩
  else do readRule (Text.utf8Length rule.toList) (← tokenize rule)

end TraefikUpgrade.Rule
