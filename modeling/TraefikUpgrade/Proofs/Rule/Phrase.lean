/-
# Phrases of the grammar

The grammar as it is written down, production by production, and without a reader in mind: an expression
is a row of conjunctions with `||` between them, a conjunction a row of operands with `&&` between them,
and an operand a negation, an expression in parentheses or a call. A row is read from the left, so that
its tree leans to the left. `Phrase level tokens e` says that at `level` the tokens are a phrase with
the tree `e`; no token is left over.

A text is a rule exactly if its tokens are a phrase, and a row of tokens is a phrase in one way at most
(`parse_eq_ok_iff_phrase`).

Key definitions: `ArgumentRow`, `Phrase`.
Key theorems: `phrase_iff_derives`, `parse_eq_ok_iff_phrase`.
-/
import TraefikUpgrade.Proofs.Rule.Lexing

namespace TraefikUpgrade.Rule

/-! ### The productions -/

/-- A string after a comma. -/
structure FurtherArgument where
  commaPlace : Nat
  place : Nat
  value : String

def FurtherArgument.tokens (a : FurtherArgument) : List Located :=
  [⟨a.commaPlace, .comma⟩, ⟨a.place, .text a.value⟩]

/-- What stands behind the name of a matcher: parentheses, and between them nothing or a row of strings
with commas between them. -/
inductive ArgumentRow : List Located → List String → Prop
  | empty (o q : Nat) : ArgumentRow [⟨o, .openParen⟩, ⟨q, .closeParen⟩] []
  | row (o place q : Nat) (value : String) (others : List FurtherArgument) :
    ArgumentRow (⟨o, .openParen⟩ :: ⟨place, .text value⟩ ::
        (others.flatMap FurtherArgument.tokens ++ [⟨q, .closeParen⟩]))
      (value :: others.map FurtherArgument.value)

/-- An operator and the phrase after it, with the tree of the phrase. -/
structure FurtherOperand where
  place : Nat
  phrase : List Located
  expr : Expr

def FurtherOperand.tokens (operator : Token) (p : FurtherOperand) : List Located :=
  ⟨p.place, operator⟩ :: p.phrase

/-- At a level of the grammar, the tokens are a phrase with the tree. -/
inductive Phrase : Level → List Located → Expr → Prop
  | call (o : Nat) (name : String) {tokens : List Located} {args : List String} :
    ArgumentRow tokens args →
      Phrase .operand (⟨o, .identifier name⟩ :: tokens) (.call ⟨name, args, o⟩)
  | not (o : Nat) {tokens : List Located} {e : Expr} :
    Phrase .operand tokens e → Phrase .operand (⟨o, .negation⟩ :: tokens) (.not e)
  | parens (o q : Nat) {tokens : List Located} {e : Expr} :
    Phrase .disjunction tokens e →
      Phrase .operand (⟨o, .openParen⟩ :: (tokens ++ [⟨q, .closeParen⟩])) e
  | conjunction {tokens : List Located} {first : Expr} (others : List FurtherOperand) :
    Phrase .operand tokens first → (∀ p ∈ others, Phrase .operand p.phrase p.expr) →
      Phrase .conjunction (tokens ++ others.flatMap (FurtherOperand.tokens .conjunction))
        (others.foldl (fun left p => .and left p.expr) first)
  | disjunction {tokens : List Located} {first : Expr} (others : List FurtherOperand) :
    Phrase .conjunction tokens first → (∀ p ∈ others, Phrase .conjunction p.phrase p.expr) →
      Phrase .disjunction (tokens ++ others.flatMap (FurtherOperand.tokens .disjunction))
        (others.foldl (fun left p => .or left p.expr) first)

/-! ### Phrases are derived -/

theorem strings_of_row (rest : List Located) (q : Nat) : ∀ (place : Nat) (value : String)
    (others : List FurtherArgument),
    Strings (⟨place, .text value⟩ ::
        (others.flatMap FurtherArgument.tokens ++ ⟨q, .closeParen⟩ :: rest))
      (value :: others.map FurtherArgument.value) rest
  | place, value, [] => .last place q value rest
  | place, value, a :: others =>
    .more place a.commaPlace value (strings_of_row rest q a.place a.value others)

theorem arguments_of_argumentRow {tokens : List Located} {args : List String}
    (h : ArgumentRow tokens args) (rest : List Located) : Arguments (tokens ++ rest) args rest := by
  cases h with
  | empty o q => exact .none o q rest
  | row o place q value others =>
    have hs := strings_of_row rest q place value others
    rw [List.cons_append, List.cons_append, List.append_assoc]
    exact .some o hs

/-- The phrases after an operator extend what is derived so far to the left. -/
theorem derives_row {outer inner : Level} {operator : Token} {join : Expr → Expr → Expr}
    (hjoin : ∀ (o : Nat) {tokens middle rest : List Located} {l r : Expr},
      Derives outer tokens l (⟨o, operator⟩ :: middle) → Derives inner middle r rest →
        Derives outer tokens (join l r) rest) :
    ∀ (others : List FurtherOperand) {tokens : List Located} {left : Expr},
    (∀ rest, Derives outer (tokens ++ rest) left rest) →
    (∀ p ∈ others, ∀ rest, Derives inner (p.phrase ++ rest) p.expr rest) → ∀ rest,
    Derives outer (tokens ++ others.flatMap (FurtherOperand.tokens operator) ++ rest)
      (others.foldl (fun left p => join left p.expr) left) rest
  | [], tokens, left, hleft, _, rest => by
    rw [List.flatMap_nil, List.append_nil]
    exact hleft rest
  | p :: others, tokens, left, hleft, hothers, rest => by
    rw [List.forall_mem_cons] at hothers
    have hnext : ∀ rest, Derives outer (tokens ++ p.tokens operator ++ rest)
        (join left p.expr) rest := by
      intro rest
      rw [List.append_assoc]
      exact hjoin p.place (hleft _) (hothers.1 rest)
    rw [List.flatMap_cons, ← List.append_assoc]
    exact derives_row hjoin others hnext hothers.2 rest

theorem Phrase.derives {level : Level} {tokens : List Located} {e : Expr}
    (h : Phrase level tokens e) : ∀ rest, Derives level (tokens ++ rest) e rest := by
  induction h with
  | call o name ha => exact fun rest => .call o name (arguments_of_argumentRow ha rest)
  | not o _ ih => exact fun rest => .not o (ih rest)
  | parens o q _ ih =>
    intro rest
    rw [List.cons_append, List.append_assoc]
    exact .parens o q (ih _)
  | conjunction others _ _ ihfirst ihothers =>
    exact derives_row .and others (fun rest => .operand (ihfirst rest)) ihothers
  | disjunction others _ _ ihfirst ihothers =>
    exact derives_row .or others (fun rest => .conjunction (ihfirst rest)) ihothers

/-! ### What is derived is a phrase -/

theorem exists_row_of_strings {tokens rest : List Located} {values : List String}
    (h : Strings tokens values rest) : ∃ place value, ∃ others : List FurtherArgument, ∃ q,
      tokens = ⟨place, .text value⟩ ::
        (others.flatMap FurtherArgument.tokens ++ ⟨q, .closeParen⟩ :: rest) ∧
      values = value :: others.map FurtherArgument.value := by
  induction h with
  | last o q value rest => exact ⟨o, value, [], q, rfl, rfl⟩
  | more o q value _ ih =>
    obtain ⟨place, value', others, q', rfl, rfl⟩ := ih
    exact ⟨o, value, ⟨q, place, value'⟩ :: others, q', rfl, rfl⟩

theorem exists_argumentRow_of_arguments {tokens rest : List Located} {args : List String}
    (h : Arguments tokens args rest) : ∃ row, tokens = row ++ rest ∧ ArgumentRow row args := by
  cases h with
  | none o q => exact ⟨_, rfl, .empty o q⟩
  | some o hs =>
    obtain ⟨place, value, others, q, rfl, rfl⟩ := exists_row_of_strings hs
    refine ⟨_, ?_, .row o place q value others⟩
    rw [List.cons_append, List.cons_append, List.append_assoc, List.singleton_append]

/-- An operand at the end of a row of operands makes it longer. -/
theorem Phrase.and {tokens tokens' : List Located} {l r : Expr} (o : Nat)
    (h : Phrase .conjunction tokens l) (h' : Phrase .operand tokens' r) :
    Phrase .conjunction (tokens ++ ⟨o, .conjunction⟩ :: tokens') (.and l r) := by
  cases h with
  | conjunction others hfirst hothers =>
    have hrow := Phrase.conjunction (others ++ [⟨o, tokens', r⟩]) hfirst
      (List.forall_mem_append.2 ⟨hothers, List.forall_mem_singleton.2 h'⟩)
    rw [List.flatMap_append, List.flatMap_singleton, ← List.append_assoc, List.foldl_append] at hrow
    exact hrow

/-- A conjunction at the end of a row of conjunctions makes it longer. -/
theorem Phrase.or {tokens tokens' : List Located} {l r : Expr} (o : Nat)
    (h : Phrase .disjunction tokens l) (h' : Phrase .conjunction tokens' r) :
    Phrase .disjunction (tokens ++ ⟨o, .disjunction⟩ :: tokens') (.or l r) := by
  cases h with
  | disjunction others hfirst hothers =>
    have hrow := Phrase.disjunction (others ++ [⟨o, tokens', r⟩]) hfirst
      (List.forall_mem_append.2 ⟨hothers, List.forall_mem_singleton.2 h'⟩)
    rw [List.flatMap_append, List.flatMap_singleton, ← List.append_assoc, List.foldl_append] at hrow
    exact hrow

/-- A row of one phrase. -/
theorem Phrase.single_operand {tokens : List Located} {e : Expr} (h : Phrase .operand tokens e) :
    Phrase .conjunction tokens e := by
  have hrow := Phrase.conjunction [] h (by simp)
  rwa [List.flatMap_nil, List.append_nil] at hrow

/-- A row of one conjunction. -/
theorem Phrase.single_conjunction {tokens : List Located} {e : Expr}
    (h : Phrase .conjunction tokens e) : Phrase .disjunction tokens e := by
  have hrow := Phrase.disjunction [] h (by simp)
  rwa [List.flatMap_nil, List.append_nil] at hrow

theorem Derives.exists_phrase {level : Level} {tokens rest : List Located} {e : Expr}
    (h : Derives level tokens e rest) : ∃ used, tokens = used ++ rest ∧ Phrase level used e := by
  induction h with
  | call o name ha =>
    obtain ⟨row, rfl, hrow⟩ := exists_argumentRow_of_arguments ha
    exact ⟨_, rfl, .call o name hrow⟩
  | not o _ ih =>
    obtain ⟨used, rfl, hused⟩ := ih
    exact ⟨_, rfl, .not o hused⟩
  | parens o q _ ih =>
    obtain ⟨used, rfl, hused⟩ := ih
    refine ⟨_, ?_, .parens o q hused⟩
    rw [List.cons_append, List.append_assoc, List.singleton_append]
  | operand _ ih =>
    obtain ⟨used, rfl, hused⟩ := ih
    exact ⟨used, rfl, hused.single_operand⟩
  | and o _ _ ihl ihr =>
    obtain ⟨used, rfl, hused⟩ := ihl
    obtain ⟨used', rfl, hused'⟩ := ihr
    refine ⟨_, ?_, hused.and o hused'⟩
    rw [List.append_assoc, List.cons_append]
  | conjunction _ ih =>
    obtain ⟨used, rfl, hused⟩ := ih
    exact ⟨used, rfl, hused.single_conjunction⟩
  | or o _ _ ihl ihr =>
    obtain ⟨used, rfl, hused⟩ := ihl
    obtain ⟨used', rfl, hused'⟩ := ihr
    refine ⟨_, ?_, hused.or o hused'⟩
    rw [List.append_assoc, List.cons_append]

/-- The two forms of the grammar agree. -/
theorem phrase_iff_derives {level : Level} {tokens : List Located} {e : Expr} :
    Phrase level tokens e ↔ Derives level tokens e [] := by
  refine ⟨fun h => ?_, fun h => ?_⟩
  · have hd := h.derives []
    rwa [List.append_nil] at hd
  · obtain ⟨used, rfl, hused⟩ := h.exists_phrase
    rwa [List.append_nil]

/-! ### Rules are the texts whose tokens are phrases -/

/-- Tokens are a phrase in one way at most: the reader takes the phrase for its tree. -/
theorem Phrase.unique {tokens : List Located} {e e' : Expr}
    (h : Phrase .disjunction tokens e) (h' : Phrase .disjunction tokens e') : e = e' := by
  have hr := readRule_of_derives 0 (phrase_iff_derives.1 h)
  rw [readRule_of_derives 0 (phrase_iff_derives.1 h')] at hr
  exact (Except.ok.inj hr).symm

/-- A text is read as a tree if and only if its tokens are a phrase with this tree, and no tokens are a
phrase with two trees. -/
theorem parse_eq_ok_iff_phrase :
    (∀ (rule : String) (e : Expr), parse rule = .ok e ↔
      ∃ tokens, tokenize rule = .ok tokens ∧ Phrase .disjunction tokens e) ∧
    ∀ (tokens : List Located) (e e' : Expr),
      Phrase .disjunction tokens e → Phrase .disjunction tokens e' → e = e' := by
  refine ⟨fun rule e => ⟨fun h => ?_, ?_⟩, fun tokens e e' => Phrase.unique⟩
  · obtain ⟨-, tokens, ht, hd⟩ := parse_eq_ok_iff.1 h
    exact ⟨tokens, ht, phrase_iff_derives.2 hd⟩
  · rintro ⟨tokens, ht, hphrase⟩
    exact parse_of_derives ht (phrase_iff_derives.1 hphrase)

/-- Conjunction binds tighter than disjunction, and negation tighter than both. -/
theorem parse_eq_ok_iff_phrase_precedence :
    parse "A() || !B(`b`) && C(`c`, `d`)" =
      .ok (.or (.call ⟨"A", [], 0⟩) (.and (.not (.call ⟨"B", ["b"], 8⟩)) (.call ⟨"C", ["c", "d"], 18⟩))) ∧
    ∀ tokens e, tokenize "A() || !B(`b`) && C(`c`, `d`)" = .ok tokens → Phrase .disjunction tokens e →
      e = .or (.call ⟨"A", [], 0⟩)
        (.and (.not (.call ⟨"B", ["b"], 8⟩)) (.call ⟨"C", ["c", "d"], 18⟩)) := by
  have ht : tokenize "A() || !B(`b`) && C(`c`, `d`)" = .ok [⟨0, .identifier "A"⟩, ⟨1, .openParen⟩,
      ⟨2, .closeParen⟩, ⟨4, .disjunction⟩, ⟨7, .negation⟩, ⟨8, .identifier "B"⟩, ⟨9, .openParen⟩,
      ⟨10, .text "b"⟩, ⟨13, .closeParen⟩, ⟨15, .conjunction⟩, ⟨18, .identifier "C"⟩,
      ⟨19, .openParen⟩, ⟨20, .text "c"⟩, ⟨23, .comma⟩, ⟨25, .text "d"⟩, ⟨28, .closeParen⟩] :=
    eq_ok_of_toOption (by decide +kernel)
  have ha := (Phrase.call 0 "A" (.empty 1 2)).single_operand.single_conjunction
  have hb := (Phrase.not 7 (.call 8 "B" (.row 9 10 13 "b" []))).single_operand
  have hphrase := ha.or 4 (hb.and 15 (.call 18 "C" (.row 19 20 28 "c" [⟨23, 25, "d"⟩])))
  obtain ⟨hparse, hunique⟩ := parse_eq_ok_iff_phrase
  refine ⟨(hparse _ _).2 ⟨_, ht, hphrase⟩, fun tokens e ht' h => ?_⟩
  rw [ht] at ht'
  cases ht'
  exact hunique _ _ _ h hphrase

end TraefikUpgrade.Rule
