/-
# Texts and the tokens they spell

A text spells a list of tokens if it is read as them whatever follows (`Spells`). Parentheses, commas,
operators and strings end by themselves; a name must be followed by a character that cannot belong to
it. Every token that is read can be cut from the text (`exists_text_of_tokenAt`), and a call whose
arguments hold no backtick is read from its text (`Call.Plain.spells`).

Key definitions: `Spells`, `Call.Plain`.
Key theorems: `exists_text_of_tokenAt`, `Spells.append`, `Call.Plain.spells`.
-/
import TraefikUpgrade.Proofs.Rule.Grammar
import TraefikUpgrade.Rule.Matcher

namespace TraefikUpgrade.Rule

open Text (utf8Length)

/-! ### The lexer, one token at a time -/

/-- Whether a name begins with the character, which then begins nothing else. -/
def beginsName (c : Char) : Bool :=
  isNameStart c && !(Unicode.isWhiteSpace c) &&
    !(['(', ')', ',', '!', '&', '|', '\x60', '\x22'].contains c)

theorem tokenAt_blank {c : Char} (h : Unicode.isWhiteSpace c = true) (cs : List Char) :
    tokenAt c cs = .ok (none, cs) := by
  simp [tokenAt, h]

@[simp] theorem tokenAt_openParen (cs : List Char) : tokenAt '(' cs = .ok (some .openParen, cs) := rfl

@[simp] theorem tokenAt_closeParen (cs : List Char) :
    tokenAt ')' cs = .ok (some .closeParen, cs) := rfl

@[simp] theorem tokenAt_comma (cs : List Char) : tokenAt ',' cs = .ok (some .comma, cs) := rfl

@[simp] theorem tokenAt_negation (cs : List Char) : tokenAt '!' cs = .ok (some .negation, cs) := rfl

@[simp] theorem tokenAt_conjunction (cs : List Char) :
    tokenAt '&' ('&' :: cs) = .ok (some .conjunction, cs) := rfl

@[simp] theorem tokenAt_disjunction (cs : List Char) :
    tokenAt '|' ('|' :: cs) = .ok (some .disjunction, cs) := rfl

theorem tokenAt_backtick {cs value rest : List Char} (h : Text.cutAt '\x60' cs = some (value, rest)) :
    tokenAt '\x60' cs = .ok (some (.text (String.ofList value)), rest) := by
  have hw : Unicode.isWhiteSpace '\x60' = false := rfl
  simp [tokenAt, hw, h]

theorem tokenAt_quote {cs value rest : List Char} (h : quotedString cs = some (value, rest)) :
    tokenAt '\x22' cs = .ok (some (.text (String.ofList value)), rest) := by
  have hw : Unicode.isWhiteSpace '\x22' = false := rfl
  simp [tokenAt, hw, h]

theorem tokenAt_name {c : Char} (h : beginsName c = true) (cs : List Char) :
    tokenAt c cs = .ok (some (.identifier (String.ofList (c :: cs.takeWhile isNamePart))),
      cs.dropWhile isNamePart) := by
  simp only [beginsName, Bool.and_eq_true, Bool.not_eq_true', List.contains_eq_mem,
    decide_eq_false_iff_not, List.mem_cons, List.not_mem_nil, or_false, not_or] at h
  obtain ⟨⟨hn, hw⟩, h1, h2, h3, h4, h5, h6, h7, h8⟩ := h
  simp [tokenAt, hn, hw, h1, h2, h3, h4, h5, h6, h7, h8]

/-- The text `c :: cs` begins with the token, and `rest` comes after it. -/
def BeginsWith (c : Char) (cs : List Char) (t : Token) (rest : List Char) : Prop :=
  (rest = cs ∧ ((c = '(' ∧ t = .openParen) ∨ (c = ')' ∧ t = .closeParen) ∨
      (c = ',' ∧ t = .comma) ∨ (c = '!' ∧ t = .negation))) ∨
    (cs = c :: rest ∧ ((c = '&' ∧ t = .conjunction) ∨ (c = '|' ∧ t = .disjunction))) ∨
    (c = '\x60' ∧ ∃ value, Text.cutAt '\x60' cs = some (value, rest) ∧
      t = .text (String.ofList value)) ∨
    (c = '\x22' ∧ ∃ value, quotedString cs = some (value, rest) ∧
      t = .text (String.ofList value)) ∨
    (beginsName c = true ∧ rest = cs.dropWhile isNamePart ∧
      t = .identifier (String.ofList (c :: cs.takeWhile isNamePart)))

/-- What is not blank is read as a token, if at all. -/
theorem exists_beginsWith {c : Char} {cs rest : List Char} {o : Option Token}
    (hw : Unicode.isWhiteSpace c = false) (h : tokenAt c cs = .ok (o, rest)) :
    ∃ t, o = some t ∧ BeginsWith c cs t rest := by
  unfold tokenAt at h
  rw [if_neg (by simp [hw])] at h
  by_cases h1 : c = '('
  · rw [if_pos h1] at h
    cases h
    exact ⟨_, rfl, .inl ⟨rfl, .inl ⟨h1, rfl⟩⟩⟩
  rw [if_neg h1] at h
  by_cases h2 : c = ')'
  · rw [if_pos h2] at h
    cases h
    exact ⟨_, rfl, .inl ⟨rfl, .inr (.inl ⟨h2, rfl⟩)⟩⟩
  rw [if_neg h2] at h
  by_cases h3 : c = ','
  · rw [if_pos h3] at h
    cases h
    exact ⟨_, rfl, .inl ⟨rfl, .inr (.inr (.inl ⟨h3, rfl⟩))⟩⟩
  rw [if_neg h3] at h
  by_cases h4 : c = '!'
  · rw [if_pos h4] at h
    cases h
    exact ⟨_, rfl, .inl ⟨rfl, .inr (.inr (.inr ⟨h4, rfl⟩))⟩⟩
  rw [if_neg h4] at h
  by_cases h5 : (c = '&' || c = '|') = true
  · rw [if_pos h5] at h
    cases cs with
    | nil => cases h
    | cons d ds =>
      dsimp only at h
      by_cases hd : d = c
      · rw [if_pos hd] at h
        cases h
        refine ⟨_, rfl, .inr (.inl ⟨by rw [hd], ?_⟩)⟩
        simp only [Bool.or_eq_true, decide_eq_true_eq] at h5
        rcases h5 with rfl | rfl
        · exact .inl ⟨rfl, rfl⟩
        · exact .inr ⟨rfl, rfl⟩
      · rw [if_neg hd] at h
        cases h
  rw [if_neg h5] at h
  by_cases h6 : c = '\x60'
  · rw [if_pos h6] at h
    cases hv : Text.cutAt '\x60' cs with
    | none => rw [hv] at h; cases h
    | some p =>
      rw [hv] at h
      cases h
      exact ⟨_, rfl, .inr (.inr (.inl ⟨h6, p.1, hv, rfl⟩))⟩
  rw [if_neg h6] at h
  by_cases h7 : c = '\x22'
  · rw [if_pos h7] at h
    cases hv : quotedString cs with
    | none => rw [hv] at h; cases h
    | some p =>
      rw [hv] at h
      cases h
      exact ⟨_, rfl, .inr (.inr (.inr (.inl ⟨h7, p.1, hv, rfl⟩)))⟩
  rw [if_neg h7] at h
  by_cases hn : isNameStart c = true
  · rw [if_pos hn] at h
    cases h
    have hc : beginsName c = true := by
      simp only [Bool.or_eq_true, decide_eq_true_eq, not_or] at h5
      simp [beginsName, hn, hw, h1, h2, h3, h4, h5, h6, h7]
    exact ⟨_, rfl, .inr (.inr (.inr (.inr ⟨hc, rfl, rfl⟩)))⟩
  · rw [if_neg hn] at h
    cases h

theorem tokenAt_cases {c : Char} {cs rest : List Char} {t : Token}
    (h : tokenAt c cs = .ok (some t, rest)) : BeginsWith c cs t rest := by
  by_cases hw : Unicode.isWhiteSpace c = true
  · rw [tokenAt_blank hw] at h
    cases h
  · obtain ⟨t', ht, hb⟩ := exists_beginsWith (Bool.not_eq_true _ ▸ hw) h
    cases ht
    exact hb

theorem isWhiteSpace_of_tokenAt {c : Char} {cs rest : List Char}
    (h : tokenAt c cs = .ok (none, rest)) : Unicode.isWhiteSpace c = true ∧ rest = cs := by
  by_cases hw : Unicode.isWhiteSpace c = true
  · rw [tokenAt_blank hw] at h
    cases h
    exact ⟨hw, rfl⟩
  · obtain ⟨t, ht, -⟩ := exists_beginsWith (Bool.not_eq_true _ ▸ hw) h
    cases ht

/-- What is left of a text says how much of it is read. -/
theorem sub_utf8Length {total : Nat} {before back : List Char}
    (h : utf8Length (before ++ back) = total) : total - utf8Length back = utf8Length before := by
  rw [← h, Text.utf8Length_append]
  exact Nat.add_sub_cancel ..

@[simp] theorem tokensFrom_nil (total : Nat) : tokensFrom total [] = .ok [] := by
  rw [tokensFrom.eq_def]

theorem tokensFrom_cons (total : Nat) (c : Char) (cs : List Char) :
    tokensFrom total (c :: cs) = match tokenAt c cs with
      | .error fault => .error ⟨total - utf8Length (c :: cs), fault⟩
      | .ok (none, rest) => tokensFrom total rest
      | .ok (some t, rest) =>
        (tokensFrom total rest).map (⟨total - utf8Length (c :: cs), t⟩ :: ·) := by
  rw [tokensFrom.eq_def]
  dsimp only
  split
  · next he => rw [he]
  · next he => rw [he]
  · next he =>
    rw [he]
    dsimp only
    split
    · next ht => rw [ht]; rfl
    · next ht => rw [ht]; rfl

theorem tokensFrom_error {c : Char} {cs : List Char} {fault : Fault}
    (h : tokenAt c cs = .error fault) (total : Nat) :
    tokensFrom total (c :: cs) = .error ⟨total - utf8Length (c :: cs), fault⟩ := by
  rw [tokensFrom_cons, h]

theorem tokensFrom_blank {c : Char} (h : Unicode.isWhiteSpace c = true) (total : Nat)
    (cs : List Char) : tokensFrom total (c :: cs) = tokensFrom total cs := by
  rw [tokensFrom_cons, tokenAt_blank h]

theorem tokensFrom_token {c : Char} {cs rest : List Char} {t : Token}
    (h : tokenAt c cs = .ok (some t, rest)) (total : Nat) :
    tokensFrom total (c :: cs) =
      (tokensFrom total rest).map (⟨total - utf8Length (c :: cs), t⟩ :: ·) := by
  rw [tokensFrom_cons, h]

/-- Before the first token there are blanks only. -/
theorem exists_tokenAt_of_tokensFrom {total : Nat} : ∀ {cs : List Char} {t : Located}
    {tokens : List Located}, tokensFrom total cs = .ok (t :: tokens) →
    ∃ blanks c tail rest, cs = blanks ++ c :: tail ∧
      (∀ b ∈ blanks, Unicode.isWhiteSpace b = true) ∧ tokenAt c tail = .ok (some t.token, rest) ∧
      t.offset = total - utf8Length (c :: tail) ∧ tokensFrom total rest = .ok tokens
  | [], t, tokens, h => by simp at h
  | c :: cs, t, tokens, h => by
    cases ht : tokenAt c cs with
    | error fault => rw [tokensFrom_error ht] at h; cases h
    | ok p =>
      obtain ⟨_ | token, rest⟩ := p
      · obtain ⟨hb, rfl⟩ := isWhiteSpace_of_tokenAt ht
        rw [tokensFrom_blank hb] at h
        obtain ⟨blanks, d, tail, rest', rfl, hbs, hd⟩ := exists_tokenAt_of_tokensFrom h
        exact ⟨c :: blanks, d, tail, rest', rfl, by simpa [hb] using hbs, hd⟩
      · rw [tokensFrom_token ht] at h
        cases hr : tokensFrom total rest with
        | error refusal => rw [hr] at h; cases h
        | ok tokens' =>
          rw [hr] at h
          cases h
          exact ⟨[], c, cs, rest, rfl, by simp, ht, rfl, hr⟩

theorem isWhiteSpace_of_tokensFrom_nil {total : Nat} : ∀ {cs : List Char},
    tokensFrom total cs = .ok [] → ∀ c ∈ cs, Unicode.isWhiteSpace c = true
  | [], _ => by simp
  | c :: cs, h => by
    cases ht : tokenAt c cs with
    | error fault => rw [tokensFrom_error ht] at h; cases h
    | ok p =>
      obtain ⟨_ | token, rest⟩ := p
      · obtain ⟨hb, rfl⟩ := isWhiteSpace_of_tokenAt ht
        rw [tokensFrom_blank hb] at h
        simpa [hb] using isWhiteSpace_of_tokensFrom_nil h
      · rw [tokensFrom_token ht] at h
        cases hr : tokensFrom total rest <;> rw [hr] at h <;> cases h

/-! ### Spelling -/

/-- The text is read as the tokens, whatever follows it. -/
def Spells (text : List Char) (tokens : List Token) : Prop :=
  ∀ total tail, ∃ located : List Located, located.map Located.token = tokens ∧
    tokensFrom total (text ++ tail) = (tokensFrom total tail).map (located ++ ·)

theorem Spells.nil : Spells [] [] :=
  fun total tail => ⟨[], rfl, by cases h : tokensFrom total tail <;> simp [h, Except.map]⟩

theorem Spells.append {text text' : List Char} {tokens tokens' : List Token}
    (h : Spells text tokens) (h' : Spells text' tokens') :
    Spells (text ++ text') (tokens ++ tokens') := by
  intro total tail
  obtain ⟨l1, hl1, h1⟩ := h total (text' ++ tail)
  obtain ⟨l2, hl2, h2⟩ := h' total tail
  refine ⟨l1 ++ l2, by rw [List.map_append, hl1, hl2], ?_⟩
  rw [List.append_assoc, h1, h2]
  cases tokensFrom total tail <;> simp [Except.map]

theorem Spells.blanks : ∀ {blanks : List Char},
    (∀ b ∈ blanks, Unicode.isWhiteSpace b = true) → Spells blanks []
  | [], _ => .nil
  | b :: bs, h => by
    intro total tail
    obtain ⟨l, hl, hs⟩ := Spells.blanks (fun c hc => h c (List.mem_cons_of_mem _ hc)) total tail
    refine ⟨l, hl, ?_⟩
    rw [List.cons_append, tokensFrom_blank (h b (List.mem_cons_self ..)), hs]

/-- A character and the text after it that make up a token, whatever follows. -/
theorem spells_of_tokenAt {c : Char} {text : List Char} {t : Token}
    (h : ∀ tail, tokenAt c (text ++ tail) = .ok (some t, tail)) : Spells (c :: text) [t] := by
  intro total tail
  refine ⟨[⟨total - utf8Length (c :: (text ++ tail)), t⟩], rfl, ?_⟩
  rw [List.cons_append, tokensFrom_token (h tail)]
  rfl

theorem tokens_of_spells {text : List Char} {tokens : List Token} (h : Spells text tokens)
    (total : Nat) : ∃ located : List Located, located.map Located.token = tokens ∧
      tokensFrom total text = .ok located := by
  obtain ⟨l, hl, hs⟩ := h total []
  refine ⟨l, hl, ?_⟩
  rw [List.append_nil] at hs
  simp [hs, Except.map]

/-- A text whose tokens are an expression is a rule. -/
theorem parse_of_derives {rule : String} {tokens : List Located} {e : Expr}
    (ht : tokenize rule = .ok tokens) (hd : Derives .disjunction tokens e []) :
    parse rule = .ok e := by
  refine parse_eq_ok_iff.2 ⟨?_, tokens, ht, hd⟩
  rw [← Bool.not_eq_true]
  intro hb
  obtain ⟨none, hnone, hblank⟩ := tokens_of_spells
    (Spells.blanks (List.all_eq_true.1 hb)) (utf8Length rule.toList)
  have hlt := hd.length_lt
  rw [tokenize, hblank] at ht
  cases ht
  rw [List.map_eq_nil_iff.1 hnone] at hlt
  exact absurd hlt (Nat.lt_irrefl _)

theorem eq_ok_of_toOption {ε α : Type} {x : Except ε α} {a : α} (h : x.toOption = some a) :
    x = .ok a := by
  cases x with
  | error e => cases h
  | ok b => cases h; rfl

/-! ### The text of a token -/

theorem quotedString_quote (cs : List Char) : quotedString ('\x22' :: cs) = some ([], cs) := by
  cases cs <;> simp [quotedString]

theorem quotedString_cons {c : Char} (hq : c ≠ '\x22') (hb : c ≠ '\\') (cs : List Char) :
    quotedString (c :: cs) = (quotedString cs).map fun (value, rest) => (c :: value, rest) := by
  cases cs <;> simp [quotedString, hq, hb]

theorem exists_text_of_quotedString : ∀ {cs value rest : List Char},
    quotedString cs = some (value, rest) →
    ∃ text, cs = text ++ rest ∧ ∀ tail, quotedString (text ++ tail) = some (value, tail) := by
  intro cs
  induction cs using quotedString.induct with
  | case1 => intro value rest h; simp [quotedString] at h
  | case2 =>
    intro value rest h
    rw [quotedString_quote] at h
    cases h
    exact ⟨['\x22'], rfl, fun tail => quotedString_quote tail⟩
  | case3 c hc => intro value rest h; simp [quotedString, hc] at h
  | case4 d cs =>
    intro value rest h
    rw [quotedString_quote] at h
    cases h
    exact ⟨['\x22'], rfl, fun tail => quotedString_quote tail⟩
  | case5 d cs hc ih =>
    intro value rest h
    simp only [quotedString, hc, if_false, if_true, Option.map_eq_some_iff] at h
    obtain ⟨⟨value', rest'⟩, hr, he⟩ := h
    cases he
    obtain ⟨text, rfl, ht⟩ := ih hr
    exact ⟨'\\' :: d :: text, rfl, fun tail => by simp [quotedString, ht]⟩
  | case6 c d cs hq hb ih =>
    intro value rest h
    rw [quotedString_cons hq hb] at h
    obtain ⟨⟨value', rest'⟩, hr, he⟩ := Option.map_eq_some_iff.1 h
    cases he
    obtain ⟨text, hcs, ht⟩ := ih hr
    exact ⟨c :: text, by rw [hcs]; rfl,
      fun tail => by rw [List.cons_append, quotedString_cons hq hb, ht]; rfl⟩

/-- Whether a text begins with a character that may stand in a name. -/
def beginsInName (cs : List Char) : Bool := cs.head?.any isNamePart

theorem dropWhile_of_beginsInName {cs : List Char} (h : beginsInName cs = false) :
    cs.takeWhile isNamePart = [] ∧ cs.dropWhile isNamePart = cs := by
  cases cs with
  | nil => exact ⟨rfl, rfl⟩
  | cons c cs =>
    have hc : isNamePart c = false := by simpa [beginsInName] using h
    simp [hc]

theorem beginsInName_dropWhile (cs : List Char) :
    beginsInName (cs.dropWhile isNamePart) = false := by
  induction cs with
  | nil => rfl
  | cons c cs ih =>
    by_cases hc : isNamePart c = true
    · rw [List.dropWhile_cons_of_pos hc]
      exact ih
    · rw [List.dropWhile_cons_of_neg hc]
      simpa [beginsInName] using hc

theorem takeWhile_takeWhile_append {α : Type} (p : α → Bool) (cs ds : List α) :
    (cs.takeWhile p ++ ds).takeWhile p = cs.takeWhile p ++ ds.takeWhile p ∧
      (cs.takeWhile p ++ ds).dropWhile p = ds.dropWhile p := by
  have h : ∀ a ∈ cs.takeWhile p, p a = true :=
    List.all_eq_true.1 List.all_takeWhile
  exact ⟨List.takeWhile_append_of_pos h, List.dropWhile_append_of_pos h⟩

/-- The characters that a token takes are read as it whatever follows, but a name must not go on. -/
theorem exists_text_of_tokenAt {c : Char} {cs rest : List Char} {t : Token}
    (h : tokenAt c cs = .ok (some t, rest)) :
    ∃ text, cs = text ++ rest ∧
      ((∃ name, t = .identifier name) → beginsInName rest = false) ∧
      ∀ tail, ((∃ name, t = .identifier name) → beginsInName tail = false) →
        tokenAt c (text ++ tail) = .ok (some t, tail) := by
  rcases tokenAt_cases h with ⟨rfl, hs⟩ | ⟨rfl, hs⟩ | ⟨rfl, value, hv, rfl⟩ |
    ⟨rfl, value, hv, rfl⟩ | ⟨hc, rfl, rfl⟩
  · refine ⟨[], rfl, ?_, fun tail _ => ?_⟩
    · rcases hs with ⟨rfl, rfl⟩ | ⟨rfl, rfl⟩ | ⟨rfl, rfl⟩ | ⟨rfl, rfl⟩ <;> rintro ⟨name, hn⟩ <;> cases hn
    · rcases hs with ⟨rfl, rfl⟩ | ⟨rfl, rfl⟩ | ⟨rfl, rfl⟩ | ⟨rfl, rfl⟩ <;> rfl
  · refine ⟨[c], rfl, ?_, fun tail _ => ?_⟩
    · rcases hs with ⟨rfl, rfl⟩ | ⟨rfl, rfl⟩ <;> rintro ⟨name, hn⟩ <;> cases hn
    · rcases hs with ⟨rfl, rfl⟩ | ⟨rfl, rfl⟩ <;> rfl
  · refine ⟨value ++ ['\x60'], by rw [Text.eq_append_of_cutAt hv]; simp, by simp, fun tail _ => ?_⟩
    rw [List.append_assoc]
    exact tokenAt_backtick (Text.cutAt_append (Text.notMem_of_cutAt hv) tail)
  · obtain ⟨text, rfl, ht⟩ := exists_text_of_quotedString hv
    exact ⟨text, rfl, by simp, fun tail _ => tokenAt_quote (ht tail)⟩
  · refine ⟨cs.takeWhile isNamePart, List.takeWhile_append_dropWhile.symm,
      fun _ => beginsInName_dropWhile cs, fun tail hd => ?_⟩
    obtain ⟨ht, hr⟩ := dropWhile_of_beginsInName (hd ⟨_, rfl⟩)
    obtain ⟨h1, h2⟩ := takeWhile_takeWhile_append isNamePart cs tail
    rw [tokenAt_name hc, h1, h2, ht, hr, List.append_nil]

/-! ### The text of calls -/

/-- The tokens of the arguments of a call after its opening parenthesis. -/
def argumentTokens : List String → List Token
  | [] => [.closeParen]
  | [value] => [.text value, .closeParen]
  | value :: value' :: values => .text value :: .comma :: argumentTokens (value' :: values)

/-- Whether a text can be read as the name of a matcher. -/
def isName (name : String) : Bool :=
  match name.toList with
  | [] => false
  | c :: cs => beginsName c && cs.all isNamePart

theorem spells_backticks {value : String} (h : '\x60' ∉ value.toList) :
    Spells ("`" ++ value ++ "`").toList [.text value] := by
  have hs : ("`" ++ value ++ "`").toList = '\x60' :: (value.toList ++ ['\x60']) := by simp
  rw [hs]
  refine spells_of_tokenAt fun tail => ?_
  rw [List.append_assoc, List.singleton_append, tokenAt_backtick (Text.cutAt_append h tail),
    String.ofList_toList]

theorem spells_name {name : String} (h : isName name = true) :
    Spells (name ++ "(").toList [.identifier name, .openParen] := by
  unfold isName at h
  split at h
  · cases h
  next c cs hn =>
  rw [Bool.and_eq_true, List.all_eq_true] at h
  intro total tail
  have hp : isNamePart '(' = false := rfl
  have ht : tokenAt c (cs ++ '(' :: tail) = .ok (some (.identifier name), '(' :: tail) := by
    rw [tokenAt_name h.1, List.takeWhile_append_of_pos h.2, List.dropWhile_append_of_pos h.2,
      List.takeWhile_cons_of_neg (by simp [hp]), List.dropWhile_cons_of_neg (by simp [hp]),
      List.append_nil, ← hn, String.ofList_toList]
  have hs : (name ++ "(").toList ++ tail = c :: (cs ++ '(' :: tail) := by simp [hn]
  refine ⟨[⟨total - utf8Length (c :: (cs ++ '(' :: tail)), .identifier name⟩,
    ⟨total - utf8Length ('(' :: tail), .openParen⟩], rfl, ?_⟩
  rw [hs, tokensFrom_token ht, tokensFrom_token (tokenAt_openParen tail)]
  cases tokensFrom total tail <;> rfl

theorem spells_blank : Spells [' '] [] := .blanks (List.forall_mem_singleton.2 rfl)

theorem spells_comma : Spells ", ".toList [.comma] :=
  (spells_of_tokenAt tokenAt_comma : Spells [','] [.comma]).append spells_blank

theorem spells_disjunction : Spells " || ".toList [.disjunction] :=
  spells_blank.append
    ((spells_of_tokenAt tokenAt_disjunction : Spells ['|', '|'] [.disjunction]).append spells_blank)

theorem spells_openParen : Spells "(".toList [.openParen] := spells_of_tokenAt tokenAt_openParen

theorem spells_closeParen : Spells ")".toList [.closeParen] := spells_of_tokenAt tokenAt_closeParen

theorem spells_arguments : ∀ {args : List String}, (∀ arg ∈ args, '\x60' ∉ arg.toList) →
    Spells (String.intercalate ", " (args.map fun arg => "`" ++ arg ++ "`") ++ ")").toList
      (argumentTokens args)
  | [], _ => spells_closeParen
  | [value], h => by
    rw [List.map_singleton, String.intercalate_singleton, String.toList_append]
    exact (spells_backticks (h value (List.mem_cons_self ..))).append spells_closeParen
  | value :: value' :: values, h => by
    have ih := @spells_arguments (value' :: values) fun arg ha => h arg (List.mem_cons_of_mem _ ha)
    have hb := (spells_backticks (h value (List.mem_cons_self ..))).append (spells_comma.append ih)
    simp only [List.map_cons, String.intercalate_cons_cons, String.toList_append,
      List.append_assoc] at hb ⊢
    exact hb

/-- Whether a call can be written with its arguments in backticks. -/
def Call.Plain (c : Call) : Prop :=
  isName c.name = true ∧ ∀ arg ∈ c.args, '\x60' ∉ arg.toList

/-- The text of a call with its arguments in backticks. -/
def Call.text (c : Call) : String := callText c.name c.args

/-- The tokens of a call. -/
def Call.tokens (c : Call) : List Token :=
  .identifier c.name :: .openParen :: argumentTokens c.args

theorem Call.Plain.spells {c : Call} (h : c.Plain) : Spells c.text.toList c.tokens := by
  unfold Call.text callText
  rw [String.append_assoc, String.toList_append]
  exact (spells_name h.1).append (spells_arguments h.2)

end TraefikUpgrade.Rule
