/-
# Rules in print

There are many ways to print an expression. An operand of an operator may always stand in parentheses,
and must where it would be taken for something else without them (`Prints`): a disjunction wherever an
operator takes it that binds tighter, a conjunction under a negation and to the right of another
conjunction. A string is printed in backticks if it holds none, or with escapes between double quotes,
and blanks may stand before and after every token (`Writes`).

However an expression is printed, its tokens are read from the text (`Writes.spells`), and mean the
expression (`Prints.means`). So what was printed is read as the expression (`parse_of_isPrinted`).

Key definitions: `Prints`, `Writes`, `Expr.IsPrinted`.
Key theorems: `Prints.means`, `Writes.spells`, `parse_of_isPrinted`.
-/
import TraefikUpgrade.Proofs.Rule.Refinement

namespace TraefikUpgrade.Rule

/-! ### Ways to print an expression -/

/-- Whether a text is a name: a letter or underscore, then letters, digits and underscores. -/
def isIdentifier (name : String) : Bool :=
  match name.toList with
  | [] => false
  | c :: cs => isNameStart c && cs.all isNamePart

/-- The tokens with which an expression is printed where the grammar wants one of a level. -/
inductive Prints : Level → Expr → List Token → Prop
  | call (level : Level) (c : Call) : Prints level (.call c) c.tokens
  | not (level : Level) {e : Expr} {tokens : List Token} :
    Prints .operand e tokens → Prints level (.not e) (.negation :: tokens)
  | and {level : Level} {l r : Expr} {tokens tokens' : List Token} : level ≠ .operand →
    Prints .conjunction l tokens → Prints .operand r tokens' →
      Prints level (.and l r) (tokens ++ .conjunction :: tokens')
  | or {l r : Expr} {tokens tokens' : List Token} :
    Prints .disjunction l tokens → Prints .conjunction r tokens' →
      Prints .disjunction (.or l r) (tokens ++ .disjunction :: tokens')
  | parens (level : Level) {e : Expr} {tokens : List Token} :
    Prints .disjunction e tokens → Prints level e (.openParen :: tokens ++ [.closeParen])

/-- The contents of a string for double quotes. -/
def escapeQuotes (value : List Char) : List Char :=
  value.flatMap fun c => if c = '\x22' ∨ c = '\\' then ['\\', c] else [c]

/-- The ways to write a token. -/
inductive WritesToken : Token → List Char → Prop
  | identifier (name : String) : WritesToken (.identifier name) name.toList
  | backticks {value : String} : '\x60' ∉ value.toList →
    WritesToken (.text value) ('\x60' :: (value.toList ++ ['\x60']))
  | quotes (value : String) :
    WritesToken (.text value) ('\x22' :: (escapeQuotes value.toList ++ ['\x22']))
  | openParen : WritesToken .openParen ['(']
  | closeParen : WritesToken .closeParen [')']
  | comma : WritesToken .comma [',']
  | conjunction : WritesToken .conjunction ['&', '&']
  | disjunction : WritesToken .disjunction ['|', '|']
  | negation : WritesToken .negation ['!']

/-- The texts in which tokens stand one after the other, with blanks around them. -/
inductive Writes : List Token → List Char → Prop
  | nil {blanks : List Char} : (∀ b ∈ blanks, Unicode.isWhiteSpace b = true) → Writes [] blanks
  | cons {t : Token} {tokens : List Token} {blanks text rest : List Char} :
    (∀ b ∈ blanks, Unicode.isWhiteSpace b = true) → WritesToken t text → Writes tokens rest →
      Writes (t :: tokens) (blanks ++ (text ++ rest))

/-- The text is the expression in print. -/
def Expr.IsPrinted (e : Expr) (rule : String) : Prop :=
  ∃ tokens, Prints .disjunction e tokens ∧ Writes tokens rule.toList

/-! ### Every expression can be printed -/

theorem exists_prints : ∀ (level : Level) (e : Expr), ∃ tokens, Prints level e tokens
  | level, .call c => ⟨_, .call level c⟩
  | level, .not e =>
    let ⟨_, h⟩ := exists_prints .operand e
    ⟨_, .not level h⟩
  | level, .and l r =>
    let ⟨_, hl⟩ := exists_prints .conjunction l
    let ⟨_, hr⟩ := exists_prints .operand r
    ⟨_, .parens level (.and (by decide) hl hr)⟩
  | level, .or l r =>
    let ⟨_, hl⟩ := exists_prints .disjunction l
    let ⟨_, hr⟩ := exists_prints .conjunction r
    ⟨_, .parens level (.or hl hr)⟩

theorem exists_writesToken (t : Token) : ∃ text, WritesToken t text := by
  cases t with
  | identifier name => exact ⟨_, .identifier name⟩
  | text value => exact ⟨_, .quotes value⟩
  | openParen => exact ⟨_, .openParen⟩
  | closeParen => exact ⟨_, .closeParen⟩
  | comma => exact ⟨_, .comma⟩
  | conjunction => exact ⟨_, .conjunction⟩
  | disjunction => exact ⟨_, .disjunction⟩
  | negation => exact ⟨_, .negation⟩

theorem exists_writes : ∀ tokens : List Token, ∃ text, Writes tokens text
  | [] => ⟨[], .nil (by simp)⟩
  | t :: tokens =>
    let ⟨_, ht⟩ := exists_writesToken t
    let ⟨_, hs⟩ := exists_writes tokens
    ⟨[] ++ _, .cons (by simp) ht hs⟩

theorem exists_isPrinted (e : Expr) : ∃ rule, e.IsPrinted rule := by
  obtain ⟨tokens, hp⟩ := exists_prints .disjunction e
  obtain ⟨text, hw⟩ := exists_writes tokens
  exact ⟨String.ofList text, tokens, hp, by rwa [String.toList_ofList]⟩

/-! ### The tokens mean the expression -/

/-- What means an expression as an operand means it everywhere. -/
theorem Means.of_operand {tokens : List Token} {x : Expr} (h : Means .operand tokens x)
    (level : Level) : Means level tokens x := by
  cases level with
  | operand => exact h
  | conjunction => exact h.operand
  | disjunction => exact h.operand.conjunction

theorem Prints.means {level : Level} {e : Expr} {tokens : List Token} (h : Prints level e tokens) :
    Means level tokens e := by
  induction h with
  | call level c => exact (Means.call c).of_operand level
  | not level _ ih => exact ih.not.of_operand level
  | @and level l r tokens tokens' hlevel _ _ ihl ihr =>
    have hand := ihl.and ihr
    cases level with
    | operand => exact absurd rfl hlevel
    | conjunction => exact hand
    | disjunction => exact hand.conjunction
  | or _ _ ihl ihr => exact ihl.or ihr
  | parens level _ ih => exact ih.parens.of_operand level

/-! ### The tokens are read from the text -/

/-- No blank may stand in a name. -/
theorem isNamePart_of_isWhiteSpace {c : Char} (h : Unicode.isWhiteSpace c = true) :
    isNamePart c = false :=
  Unicode.of_isWhiteSpace (P := fun c => isNamePart c = false) (by decide +kernel) h

theorem isNamePart_of_isNameStart {c : Char} (h : isNameStart c = true) : isNamePart c = true := by
  simp only [isNameStart, isNamePart, Bool.or_eq_true] at h ⊢
  rcases h with h | h
  · exact .inl (.inl h)
  · exact .inr h

/-- A character with which a name may begin begins nothing else. -/
theorem beginsName_of_isNameStart {c : Char} (h : isNameStart c = true) : beginsName c = true := by
  have hblank : Unicode.isWhiteSpace c = false := by
    rw [← Bool.not_eq_true]
    intro hw
    have hpart := isNamePart_of_isNameStart h
    rw [isNamePart_of_isWhiteSpace hw] at hpart
    cases hpart
  have hmark : ['(', ')', ',', '!', '&', '|', '\x60', '\x22'].contains c = false := by
    have hmarks : ['(', ')', ',', '!', '&', '|', '\x60', '\x22'].all (!isNameStart ·) = true := by
      decide +kernel
    rw [List.contains_eq_mem, decide_eq_false_iff_not]
    intro hm
    have hc := List.all_eq_true.1 hmarks c hm
    rw [h] at hc
    cases hc
  rw [beginsName, h, hblank, hmark]
  rfl

/-- Escaped contents are read as what they stand for. -/
theorem quotedString_escapeQuotes (tail : List Char) : ∀ value : List Char,
    quotedString (escapeQuotes value ++ '\x22' :: tail) = some (value, tail)
  | [] => quotedString_quote tail
  | c :: value => by
    have ih := quotedString_escapeQuotes tail value
    rw [escapeQuotes, List.flatMap_cons, ← escapeQuotes]
    by_cases hc : c = '\x22' ∨ c = '\\'
    · have hu : unescape c = c := by
        rcases hc with rfl | rfl <;> rfl
      rw [if_pos hc]
      simp [quotedString, ih, hu]
    · rw [not_or] at hc
      rw [if_neg (not_or.2 hc), List.singleton_append, List.cons_append,
        quotedString_cons hc.1 hc.2, ih]
      rfl

/-- A token that is not a name is read from its text, whatever follows. -/
theorem WritesToken.spells {t : Token} {text : List Char} (h : WritesToken t text)
    (ht : ∀ name, t ≠ .identifier name) : Spells text [t] := by
  cases h with
  | identifier name => exact absurd rfl (ht name)
  | @backticks value hv =>
    refine spells_of_tokenAt fun tail => ?_
    rw [List.append_assoc, List.singleton_append, tokenAt_backtick (Text.cutAt_append hv tail),
      String.ofList_toList]
  | quotes value =>
    refine spells_of_tokenAt fun tail => ?_
    rw [List.append_assoc, List.singleton_append,
      tokenAt_quote (quotedString_escapeQuotes tail value.toList), String.ofList_toList]
  | openParen => exact spells_of_tokenAt tokenAt_openParen
  | closeParen => exact spells_of_tokenAt tokenAt_closeParen
  | comma => exact spells_of_tokenAt tokenAt_comma
  | conjunction => exact spells_of_tokenAt tokenAt_conjunction
  | disjunction => exact spells_of_tokenAt tokenAt_disjunction
  | negation => exact spells_of_tokenAt tokenAt_negation

/-- Every name is one, and a parenthesis is opened behind it. -/
def NamesOpened : List Token → Prop
  | [] => True
  | .identifier name :: tokens =>
    isIdentifier name = true ∧ tokens.head? = some .openParen ∧ NamesOpened tokens
  | _ :: tokens => NamesOpened tokens

theorem NamesOpened.append : ∀ {tokens tokens' : List Token}, NamesOpened tokens →
    NamesOpened tokens' → NamesOpened (tokens ++ tokens')
  | [], _, _, h' => h'
  | t :: tokens, tokens', h, h' => by
    cases t with
    | identifier name =>
      obtain ⟨hname, hhead, hrest⟩ := h
      have hhead' : (tokens ++ tokens').head? = some .openParen := by rw [List.head?_append, hhead]; rfl
      exact ⟨hname, hhead', hrest.append h'⟩
    | _ =>
      have hrest : NamesOpened tokens := h
      exact hrest.append h'

theorem namesOpened_argumentTokens : ∀ args : List String, NamesOpened (argumentTokens args)
  | [] => trivial
  | [_] => trivial
  | _ :: value :: values => namesOpened_argumentTokens (value :: values)

theorem Prints.namesOpened {level : Level} {e : Expr} {tokens : List Token}
    (h : Prints level e tokens) (hn : ∀ c ∈ e.calls, isIdentifier c.name = true) :
    NamesOpened tokens := by
  induction h with
  | call level c =>
    exact ⟨hn c (List.mem_singleton_self c), rfl, namesOpened_argumentTokens c.args⟩
  | not level _ ih => exact ih hn
  | and _ _ _ ihl ihr | or _ _ ihl ihr =>
    rw [Expr.calls, List.forall_mem_append] at hn
    exact (ihl hn.1).append (ihr hn.2)
  | parens level _ ih => exact NamesOpened.append (ih hn) trivial

/-- A token before a text from which others are read. -/
theorem Spells.cons {c : Char} {text rest : List Char} {t : Token} {tokens : List Token}
    (h : ∀ tail, tokenAt c (text ++ (rest ++ tail)) = .ok (some t, rest ++ tail))
    (hrest : Spells rest tokens) : Spells (c :: (text ++ rest)) (t :: tokens) := by
  intro total tail
  obtain ⟨located, hl, hread⟩ := hrest total tail
  refine ⟨⟨total - Text.utf8Length (c :: (text ++ (rest ++ tail))), t⟩ :: located, ?_, ?_⟩
  · rw [List.map_cons, hl]
  · rw [List.cons_append, List.append_assoc, tokensFrom_token (h tail), hread]
    cases tokensFrom total tail <;> rfl

/-- What opens a parenthesis does not go on with a name. -/
theorem Writes.beginsInName {tokens : List Token} {text : List Char} (h : Writes tokens text)
    (ht : tokens.head? = some .openParen) (tail : List Char) :
    beginsInName (text ++ tail) = false := by
  cases h with
  | nil _ => cases ht
  | @cons t tokens blanks text rest hblanks htoken _ =>
    obtain rfl : t = .openParen := Option.some.inj ht
    cases htoken
    cases blanks with
    | nil => rfl
    | cons b blanks =>
      have hb := isNamePart_of_isWhiteSpace (hblanks b (List.mem_cons_self ..))
      simp [Rule.beginsInName, hb]

/-- The tokens are read from the text, whatever follows. -/
theorem Writes.spells {tokens : List Token} {text : List Char} (h : Writes tokens text)
    (hn : NamesOpened tokens) : Spells text tokens := by
  induction h with
  | nil hblanks => exact .blanks hblanks
  | @cons t tokens blanks text rest hblanks htoken hwrites ih =>
    refine (Spells.blanks hblanks).append ?_
    cases t with
    | identifier name =>
      obtain ⟨hname, hopen, hrest⟩ := hn
      cases htoken
      unfold isIdentifier at hname
      split at hname
      · cases hname
      next c cs hcs =>
      rw [Bool.and_eq_true, List.all_eq_true] at hname
      rw [hcs]
      refine (ih hrest).cons fun tail => ?_
      obtain ⟨htake, hdrop⟩ := dropWhile_of_beginsInName (hwrites.beginsInName hopen tail)
      rw [tokenAt_name (beginsName_of_isNameStart hname.1), List.takeWhile_append_of_pos hname.2,
        List.dropWhile_append_of_pos hname.2, htake, hdrop, List.append_nil, ← hcs,
        String.ofList_toList]
    | _ => exact (htoken.spells fun _ => Token.noConfusion).append (ih hn)

/-! ### What was printed is read -/

/-- An expression whose matchers have names can be printed, and however it is printed, the text is read
as the expression, but for the places of its calls. -/
theorem parse_of_isPrinted (e : Expr) (hn : ∀ c ∈ e.calls, isIdentifier c.name = true) :
    (∃ rule, e.IsPrinted rule) ∧
    ∀ rule, e.IsPrinted rule → ∃ e', parse rule = .ok e' ∧ e'.unplaced = e.unplaced := by
  refine ⟨exists_isPrinted e, fun rule ⟨tokens, hprints, hwrites⟩ => ?_⟩
  obtain ⟨located, hl, ht⟩ := tokens_of_spells (hwrites.spells (hprints.namesOpened hn))
    (Text.utf8Length rule.toList)
  exact parse_of_means hprints.means hl ht

/-- A disjunction under a negation, with strings that hold quotation marks. -/
def quotingExpr : Expr := .not (.or (.call ⟨"A", ["\x22"], 0⟩) (.call ⟨"B_1", ["\x60", "\\"], 0⟩))

/-- The expression in print: parentheses are needed, and among the blanks is a no-break space. -/
def quotingText : String :=
  "!(A(\x60\x22\x60) ||\u00a0B_1(\x22\x60\x22, \x22\\\\\x22))"

theorem parse_of_isPrinted_quoting :
    (∀ c ∈ quotingExpr.calls, isIdentifier c.name = true) ∧ quotingExpr.IsPrinted quotingText ∧
    ∃ e, parse quotingText = .ok e ∧ e.unplaced = quotingExpr.unplaced := by
  have hnames : ∀ c ∈ quotingExpr.calls, isIdentifier c.name = true := by decide
  have hnone : ∀ b ∈ ([] : List Char), Unicode.isWhiteSpace b = true := nofun
  have hspace : ∀ b ∈ [' '], Unicode.isWhiteSpace b = true :=
    List.forall_mem_singleton.2 (by decide +kernel)
  have hnoBreak : ∀ b ∈ ['\u00a0'], Unicode.isWhiteSpace b = true :=
    List.forall_mem_singleton.2 (by decide +kernel)
  have hplain : '\x60' ∉ "\x22".toList := by decide
  have hprints := Prints.not .disjunction (.parens .operand (.or
    (.call .disjunction ⟨"A", ["\x22"], 0⟩) (.call .conjunction ⟨"B_1", ["\x60", "\\"], 0⟩)))
  have hwrites := Writes.cons hnone .negation (.cons hnone .openParen
    (.cons hnone (.identifier "A") (.cons hnone .openParen (.cons hnone (.backticks hplain)
      (.cons hnone .closeParen (.cons hspace .disjunction (.cons hnoBreak (.identifier "B_1")
        (.cons hnone .openParen (.cons hnone (.quotes "\x60") (.cons hnone .comma
          (.cons hspace (.quotes "\\") (.cons hnone .closeParen (.cons hnone .closeParen
            (.nil hnone))))))))))))))
  have hprinted : quotingExpr.IsPrinted quotingText := ⟨_, hprints, hwrites⟩
  exact ⟨hnames, hprinted, (parse_of_isPrinted quotingExpr hnames).2 quotingText hprinted⟩

end TraefikUpgrade.Rule
