/-
# The places of tokens, calls and faults

A token is placed by the bytes before it, and what is made of tokens takes its place from them. So the
tokens of a text stand in it from left to right, each name where it is written (`inText_of_tokensFrom`).
The calls of an expression keep the places and the order of their names (`Derives.sublist_calls`). A text
that is no rule is refused at the place of a token (`isPlace_of_readRule`), at that of a character that
begins none (`isBoundary_of_tokensFrom`), or at its end, and a rule with calls that a dialect does not
accept at the first of these (`refused_at_first_call`).

Key definitions: `StandsAt`, `InText`, `IsPlace`.
Key theorems: `inText_of_tokensFrom`, `Derives.sublist_calls`, `isPlace_of_readRule`,
`isBoundary_of_parse`, `places_of_rule`.
-/
import TraefikUpgrade.Proofs.Rule.Braces
import TraefikUpgrade.Proofs.Rule.Validation

namespace TraefikUpgrade.Rule

open Text (utf8Length)

/-- The text is found in `cs` after `n` bytes. -/
def StandsAt (cs text : List Char) (n : Nat) : Prop :=
  ∃ front back, cs = front ++ text ++ back ∧ utf8Length front = n

/-- The tokens stand in the text from left to right, and the names where they are written. -/
structure InText (cs : List Char) (tokens : List Located) : Prop where
  ordered : tokens.Pairwise fun t u => t.offset < u.offset
  boundary : ∀ t ∈ tokens, IsBoundary cs t.offset
  named : ∀ o name, (⟨o, .identifier name⟩ : Located) ∈ tokens → StandsAt cs name.toList o

/-- The place of a token, or the end. -/
def IsPlace (finish : Nat) (tokens : List Located) (n : Nat) : Prop :=
  n = finish ∨ ∃ t ∈ tokens, t.offset = n

variable {finish total : Nat} {cs : List Char} {tokens rest : List Located} {refusal : Refusal}

/-! ### Tokens -/

theorem IsBoundary.le {n : Nat} (h : IsBoundary cs n) : n ≤ utf8Length cs := by
  obtain ⟨front, back, rfl, rfl⟩ := h
  rw [Text.utf8Length_append]
  omega

/-- The name of a token is the text that is read as it. -/
theorem standsAt_of_tokenAt {c : Char} {tail after : List Char} {name : String} (front : List Char)
    (h : tokenAt c tail = .ok (some (.identifier name), after)) :
    StandsAt (front ++ c :: tail) name.toList (utf8Length front) := by
  rcases tokenAt_cases h with ⟨rfl, hs⟩ | ⟨rfl, hs⟩ | ⟨-, value, -, ht⟩ | ⟨-, value, -, ht⟩ |
    ⟨-, rfl, ht⟩
  · rcases hs with ⟨-, ht⟩ | ⟨-, ht⟩ | ⟨-, ht⟩ | ⟨-, ht⟩ <;> cases ht
  · rcases hs with ⟨-, ht⟩ | ⟨-, ht⟩ <;> cases ht
  · cases ht
  · cases ht
  · cases ht
    refine ⟨front, tail.dropWhile isNamePart, ?_, rfl⟩
    rw [String.toList_ofList, List.append_assoc, List.cons_append, List.takeWhile_append_dropWhile]

/-- The tokens of the end of a text come after the rest of it, in order. -/
theorem inText_of_tokensFrom : ∀ {tokens : List Located} (before : List Char) {cs : List Char},
    utf8Length (before ++ cs) = total → tokensFrom total cs = .ok tokens →
    (∀ t ∈ tokens, utf8Length before ≤ t.offset) ∧ InText (before ++ cs) tokens
  | [], before, cs, _, _ => ⟨by simp, .nil, by simp, by simp⟩
  | t :: tokens, before, cs, htotal, h => by
    obtain ⟨blanks, c, tail, after, rfl, -, hat, hplace, hafter⟩ := exists_tokenAt_of_tokensFrom h
    obtain ⟨text, rfl, -⟩ := exists_text_of_tokenAt hat
    have hoffset : t.offset = utf8Length (before ++ blanks) :=
      hplace.trans (sub_utf8Length (by rwa [List.append_assoc]))
    have hcs : before ++ (blanks ++ c :: (text ++ after)) =
        (before ++ blanks ++ c :: text) ++ after := by simp
    rw [hcs] at htotal ⊢
    obtain ⟨hlater, hrest⟩ := inText_of_tokensFrom _ htotal hafter
    have hlt : ∀ u ∈ tokens, t.offset < u.offset := by
      intro u hu
      have hsize := c.utf8Size_pos
      have hle := hlater u hu
      rw [Text.utf8Length_append, utf8Length] at hle
      omega
    have hle : utf8Length before ≤ t.offset := by
      rw [hoffset, Text.utf8Length_append]
      omega
    refine ⟨List.forall_mem_cons.2 ⟨hle, fun u hu => Nat.le_trans hle (Nat.le_of_lt (hlt u hu))⟩,
      List.pairwise_cons.2 ⟨hlt, hrest.ordered⟩, List.forall_mem_cons.2 ⟨?_, hrest.boundary⟩, ?_⟩
    · exact ⟨before ++ blanks, c :: text ++ after, List.append_assoc .., hoffset.symm⟩
    · intro o name hmem
      rcases List.mem_cons.1 hmem with rfl | hmem
      · have hname := standsAt_of_tokenAt (before ++ blanks) hat
        rwa [← hoffset, ← List.cons_append, ← List.append_assoc] at hname
      · exact hrest.named o name hmem

theorem inText_of_tokenize {rule : String} (h : tokenize rule = .ok tokens) :
    InText rule.toList tokens :=
  (inText_of_tokensFrom [] rfl h).2

/-- What begins no token is refused where it stands. -/
theorem isBoundary_of_tokensFrom (before : List Char) {cs : List Char}
    (htotal : utf8Length (before ++ cs) = total) (h : tokensFrom total cs = .error refusal) :
    IsBoundary (before ++ cs) refusal.offset := by
  match cs with
  | [] => simp at h
  | c :: cs =>
    cases hat : tokenAt c cs with
    | error fault =>
      rw [tokensFrom_error hat] at h
      cases h
      exact ⟨before, c :: cs, rfl, (sub_utf8Length htotal).symm⟩
    | ok read =>
      obtain ⟨_ | token, after⟩ := read
      · obtain ⟨hb, rfl⟩ := isWhiteSpace_of_tokenAt hat
        rw [tokensFrom_blank hb] at h
        have hcs : before ++ c :: after = before ++ [c] ++ after := by simp
        rw [hcs] at htotal ⊢
        exact isBoundary_of_tokensFrom _ htotal h
      · obtain ⟨text, rfl, -⟩ := exists_text_of_tokenAt hat
        have hafter : tokensFrom total after = .error refusal := by
          rw [tokensFrom_token hat] at h
          cases hr : tokensFrom total after with
          | error refusal' => rw [hr] at h; exact h
          | ok tokens' => rw [hr] at h; cases h
        have hcs : before ++ c :: (text ++ after) = (before ++ c :: text) ++ after := by simp
        rw [hcs] at htotal ⊢
        exact isBoundary_of_tokensFrom _ htotal hafter
termination_by cs.length

/-! ### Calls -/

/-- The token that names the call. -/
def Call.located (c : Call) : Located := ⟨c.offset, .identifier c.name⟩

/-- The names of the calls are among the tokens in their order, before those that are left. -/
theorem Derives.sublist_calls {level : Level} {e : Expr} (h : Derives level tokens e rest) :
    (e.calls.map Call.located ++ rest).Sublist tokens := by
  induction h with
  | call o name h => exact h.suffix.sublist.cons_cons _
  | not o _ ih => exact ih.cons _
  | parens o q _ ih =>
    have hrest := ((List.sublist_cons_self _ _).append_left _).trans ih
    exact hrest.cons _
  | operand _ ih => exact ih
  | conjunction _ ih => exact ih
  | and o _ _ ihl ihr | or o _ _ ihl ihr =>
    rw [Expr.calls, List.map_append, List.append_assoc]
    exact ((ihr.cons _).append_left _).trans ihl

/-! ### Faults -/

theorem isPlace_placeOf (finish : Nat) (tokens : List Located) :
    IsPlace finish tokens (placeOf finish tokens) := by
  cases tokens with
  | nil => exact .inl rfl
  | cons t tokens => exact .inr ⟨t, List.mem_cons_self .., rfl⟩

theorem IsPlace.of_suffix {n : Nat} (h : IsPlace finish rest n) (hs : rest <:+ tokens) :
    IsPlace finish tokens n :=
  h.imp_right fun ⟨t, ht, hn⟩ => ⟨t, hs.subset ht, hn⟩

theorem isPlace_of_expect {token : Token} (h : expect finish token tokens = .error refusal) :
    IsPlace finish tokens refusal.offset := by
  unfold expect at h
  split at h
  · cases h
    exact isPlace_placeOf finish []
  · next t rest =>
    split at h
    · cases h
    · cases h
      exact isPlace_placeOf finish (t :: rest)

theorem isPlace_of_readStrings (tokens : List Located)
    (h : readStrings finish tokens = .error refusal) : IsPlace finish tokens refusal.offset := by
  unfold readStrings at h
  split at h
  · next o value q tail =>
    split at h
    · next hr =>
      cases h
      exact (isPlace_of_readStrings tail hr).of_suffix
        ((List.suffix_cons _ _).trans (List.suffix_cons _ _))
    · cases h
  · next o value tail _ =>
    split at h
    · next he =>
      cases h
      exact (isPlace_of_expect he).of_suffix (List.suffix_cons _ _)
    · cases h
  · cases h
    exact isPlace_placeOf finish tokens
termination_by tokens.length

theorem isPlace_of_readArguments (h : readArguments finish tokens = .error refusal) :
    IsPlace finish tokens refusal.offset := by
  unfold readArguments at h
  cases he : expect finish .openParen tokens with
  | error refusal' =>
    rw [he] at h
    cases h
    exact isPlace_of_expect he
  | ok inner =>
    obtain ⟨tail, hlt⟩ := inner
    rw [he] at h
    obtain ⟨o, rfl⟩ := eq_cons_of_expect he
    have hs : readStrings finish tail = .error refusal →
        IsPlace finish (⟨o, .openParen⟩ :: tail) refusal.offset :=
      fun hr => (isPlace_of_readStrings tail hr).of_suffix (List.suffix_cons _ _)
    rcases tail with _ | ⟨⟨q, token⟩, tail⟩
    · dsimp only at h
      apply hs
      split at h <;> simp_all
    · cases token with
      | closeParen => cases h
      | _ =>
        dsimp only at h
        apply hs
        split at h <;> simp_all

mutual

theorem isPlace_of_readDisjunction : ∀ (tokens : List Located),
    readDisjunction finish tokens = .error refusal → IsPlace finish tokens refusal.offset := by
  intro tokens h
  unfold readDisjunction at h
  split at h
  · next hl =>
    cases h
    exact isPlace_of_readConjunction tokens hl
  · next left middle hm hl =>
    split at h
    · next hr =>
      cases h
      exact (isPlace_of_readDisjuncts middle hr).of_suffix (derives_of_readConjunction tokens hl).suffix
    · cases h
termination_by tokens => (tokens.length, 4)
decreasing_by all_goals (simp [Prod.lex_def]; try omega)

theorem isPlace_of_readDisjuncts : ∀ (tokens : List Located) {left : Expr},
    readDisjuncts finish left tokens = .error refusal → IsPlace finish tokens refusal.offset
  | [], _, h => by simp [readDisjuncts] at h
  | ⟨o, token⟩ :: tail, left, h => by
    cases token with
    | disjunction =>
      simp only [readDisjuncts] at h
      split at h
      · next hr =>
        cases h
        exact (isPlace_of_readConjunction tail hr).of_suffix (List.suffix_cons _ _)
      · next right middle hm hr =>
        split at h
        · next hd =>
          cases h
          exact (isPlace_of_readDisjuncts middle hd).of_suffix
            ((derives_of_readConjunction tail hr).suffix.trans (List.suffix_cons _ _))
        · cases h
    | _ => simp [readDisjuncts] at h
termination_by tokens => (tokens.length, 0)
decreasing_by all_goals (simp [Prod.lex_def]; try omega)

theorem isPlace_of_readConjunction : ∀ (tokens : List Located),
    readConjunction finish tokens = .error refusal → IsPlace finish tokens refusal.offset := by
  intro tokens h
  unfold readConjunction at h
  split at h
  · next hl =>
    cases h
    exact isPlace_of_readOperand tokens hl
  · next left middle hm hl =>
    split at h
    · next hr =>
      cases h
      exact (isPlace_of_readConjuncts middle hr).of_suffix (derives_of_readOperand tokens hl).suffix
    · cases h
termination_by tokens => (tokens.length, 3)
decreasing_by all_goals (simp [Prod.lex_def]; try omega)

theorem isPlace_of_readConjuncts : ∀ (tokens : List Located) {left : Expr},
    readConjuncts finish left tokens = .error refusal → IsPlace finish tokens refusal.offset
  | [], _, h => by simp [readConjuncts] at h
  | ⟨o, token⟩ :: tail, left, h => by
    cases token with
    | conjunction =>
      simp only [readConjuncts] at h
      split at h
      · next hr =>
        cases h
        exact (isPlace_of_readOperand tail hr).of_suffix (List.suffix_cons _ _)
      · next right middle hm hr =>
        split at h
        · next hd =>
          cases h
          exact (isPlace_of_readConjuncts middle hd).of_suffix
            ((derives_of_readOperand tail hr).suffix.trans (List.suffix_cons _ _))
        · cases h
    | _ => simp [readConjuncts] at h
termination_by tokens => (tokens.length, 0)
decreasing_by all_goals (simp [Prod.lex_def]; try omega)

theorem isPlace_of_readOperand : ∀ (tokens : List Located),
    readOperand finish tokens = .error refusal → IsPlace finish tokens refusal.offset
  | [], h => by
    simp only [readOperand] at h
    cases h
    exact isPlace_placeOf finish []
  | ⟨o, token⟩ :: tail, h => by
    cases token with
    | negation =>
      simp only [readOperand] at h
      split at h
      · next hr =>
        cases h
        exact (isPlace_of_readOperand tail hr).of_suffix (List.suffix_cons _ _)
      · cases h
    | openParen =>
      simp only [readOperand] at h
      split at h
      · next hr =>
        cases h
        exact (isPlace_of_readDisjunction tail hr).of_suffix (List.suffix_cons _ _)
      · next inner middle hm hr =>
        split at h
        · next he =>
          cases h
          exact (isPlace_of_expect he).of_suffix
            ((derives_of_readDisjunction tail hr).suffix.trans (List.suffix_cons _ _))
        · cases h
    | identifier name =>
      simp only [readOperand] at h
      split at h
      · next hr =>
        cases h
        exact (isPlace_of_readArguments hr).of_suffix (List.suffix_cons _ _)
      · cases h
    | _ =>
      simp only [readOperand] at h
      cases h
      exact isPlace_placeOf finish (_ :: tail)
termination_by tokens => (tokens.length, 2)
decreasing_by all_goals (simp [Prod.lex_def]; try omega)

end

/-- Tokens that are no rule are refused at one of them, or after the last one. -/
theorem isPlace_of_readRule (h : readRule finish tokens = .error refusal) :
    IsPlace finish tokens refusal.offset := by
  unfold readRule at h
  split at h
  · next hr =>
    cases h
    exact isPlace_of_readDisjunction tokens hr
  · cases h
  · next e t tail hlt hr =>
    cases h
    exact .inr ⟨t, (derives_of_readDisjunction tokens hr).suffix.subset (List.mem_cons_self ..), rfl⟩

/-- A text that is no rule is refused at a place in it, which is not inside of a character. -/
theorem isBoundary_of_parse {rule : String} (h : parse rule = .error refusal) :
    IsBoundary rule.toList refusal.offset := by
  unfold parse at h
  split at h
  · cases h
    exact ⟨[], rule.toList, rfl, rfl⟩
  · cases ht : tokenize rule with
    | error refusal' =>
      rw [ht] at h
      cases h
      exact isBoundary_of_tokensFrom [] rfl ht
    | ok tokens =>
      rw [ht] at h
      rcases isPlace_of_readRule h with hplace | ⟨t, hmem, hplace⟩
      · exact ⟨rule.toList, [], (List.append_nil _).symm, hplace.symm⟩
      · exact hplace ▸ (inText_of_tokenize ht).boundary t hmem

/-- The calls of a rule stand in it in their order, each where its name is written. -/
theorem places_of_calls {rule : String} {e : Expr} (h : parse rule = .ok e) :
    e.calls.Pairwise (fun c d => c.offset < d.offset) ∧
      ∀ c ∈ e.calls, StandsAt rule.toList c.name.toList c.offset := by
  obtain ⟨-, tokens, ht, hderives⟩ := parse_eq_ok_iff.1 h
  have htext := inText_of_tokenize ht
  have hsublist := hderives.sublist_calls
  rw [List.append_nil] at hsublist
  constructor
  · have hordered := htext.ordered.sublist hsublist
    rwa [List.pairwise_map] at hordered
  · exact fun c hc => htext.named c.offset c.name (hsublist.subset (List.mem_map_of_mem hc))

/-! ### Calls that are not accepted -/

theorem offset_of_checkCall [Regex.Limits] {dialect : Dialect} {c : Call}
    (h : checkCall dialect c = .error refusal) : refusal.offset = c.offset := by
  unfold checkCall at h
  split at h
  · cases h
    rfl
  · split at h
    · cases h
    · cases h
      rfl

/-- A rule that can be read is refused at the first of its calls that is not accepted. -/
theorem refused_at_first_call [Regex.Limits] {rule : String} {dialect : Dialect} {priority : Int}
    {e : Expr} (hle : priority ≤ maxPriority) (hp : parse rule = .ok e)
    (h : validate rule dialect priority = .error refusal) :
    ∃ c ∈ e.calls, ¬ Accepts dialect c ∧ refusal.offset = c.offset ∧
      ∀ d ∈ e.calls, ¬ Accepts dialect d → c.offset ≤ d.offset := by
  have hforM : e.calls.forM (checkCall dialect) = .error refusal := by
    rw [validate, if_neg (Int.not_lt.2 hle), hp] at h
    exact (bind_eq_error_iff fun _ => ⟨_, rfl⟩).1 h
  obtain ⟨before, c, after, hsplit, hbefore, hc⟩ := forM_eq_error_iff.1 hforM
  have hordered := (places_of_calls hp).1
  rw [hsplit] at hordered ⊢
  refine ⟨c, List.mem_append_right _ (List.mem_cons_self ..), ?_, offset_of_checkCall hc, ?_⟩
  · intro haccepts
    cases hc.symm.trans haccepts
  · intro d hd hfails
    rcases List.mem_append.1 hd with hd | hd
    · exact absurd (hbefore d hd) hfails
    · rcases List.mem_cons.1 hd with rfl | hd
      · exact Nat.le_refl _
      · have hlater := (List.pairwise_cons.1 (List.pairwise_append.1 hordered).2.1).1 d hd
        exact Nat.le_of_lt hlater

/-- The calls of a rule are placed in their order, each where its name is written, and a text that is no
rule is refused at a place in it that is not inside of a character. A rule is accepted if and only if it
can be read and each of its calls is accepted; one with other calls is refused at the first of these. -/
theorem places_of_rule [Regex.Limits] (rule : String) :
    (∀ e, parse rule = .ok e → e.calls.Pairwise (fun c d => c.offset < d.offset) ∧
      ∀ c ∈ e.calls, StandsAt rule.toList c.name.toList c.offset) ∧
    (∀ refusal, parse rule = .error refusal →
      refusal.offset ≤ utf8Length rule.toList ∧ IsBoundary rule.toList refusal.offset) ∧
    ∀ (dialect : Dialect) (priority : Int), priority ≤ maxPriority →
      ((∃ route, validate rule dialect priority = .ok route) ↔
        ∃ e, parse rule = .ok e ∧ ∀ c ∈ e.calls, Accepts dialect c) ∧
      ∀ e refusal, parse rule = .ok e → validate rule dialect priority = .error refusal →
        ∃ c ∈ e.calls, ¬ Accepts dialect c ∧ refusal.offset = c.offset ∧
          ∀ d ∈ e.calls, ¬ Accepts dialect d → c.offset ≤ d.offset := by
  refine ⟨fun e => places_of_calls, fun refusal h => ?_, fun dialect priority hle => ⟨?_, ?_⟩⟩
  · exact ⟨(isBoundary_of_parse h).le, isBoundary_of_parse h⟩
  · constructor
    · rintro ⟨route, h⟩
      obtain ⟨-, hp, haccepts, -⟩ := validate_eq_ok_iff.1 h
      exact ⟨route.expr, hp, haccepts⟩
    · rintro ⟨e, hp, haccepts⟩
      exact (exists_validate_iff hle hp).2 haccepts
  · exact fun e refusal hp h => refused_at_first_call hle hp h

/-- A character of two bytes before the second call, which no version has. -/
theorem places_of_rule_two_bytes : ∃ e refusal, parse "Host(`é`) && Nope()" = .ok e ∧
    e.calls.map Call.offset = [0, 14] ∧ StandsAt "Host(`é`) && Nope()".toList "Nope".toList 14 ∧
    validate "Host(`é`) && Nope()" .v2 0 = .error refusal ∧ refusal.offset = 14 := by
  have ht : tokenize "Host(`é`) && Nope()" = .ok [⟨0, .identifier "Host"⟩, ⟨4, .openParen⟩,
      ⟨5, .text "é"⟩, ⟨9, .closeParen⟩, ⟨11, .conjunction⟩, ⟨14, .identifier "Nope"⟩,
      ⟨18, .openParen⟩, ⟨19, .closeParen⟩] := eq_ok_of_toOption (by decide +kernel)
  have hp := parse_of_derives ht (.conjunction (.and 11
    (.operand (.call 0 "Host" (.some 4 (.last 5 9 "é" _)))) (.call 14 "Nope" (.none 18 19 []))))
  obtain ⟨hcalls, -, hvalidate⟩ := places_of_rule "Host(`é`) && Nope()"
  obtain ⟨hiff, hfirst⟩ := hvalidate .v2 0 (by decide)
  have hhost : Accepts .v2 ⟨"Host", ["é"], 0⟩ := eq_ok_of_toOption (by decide +kernel)
  have hnope : ¬ Accepts .v2 ⟨"Nope", [], 14⟩ := nofun
  cases hv : validate "Host(`é`) && Nope()" .v2 0 with
  | ok route =>
    obtain ⟨e, he, haccepts⟩ := hiff.1 ⟨route, hv⟩
    cases hp.symm.trans he
    exact absurd (haccepts _ (List.mem_cons_of_mem _ (List.mem_singleton_self _))) hnope
  | error refusal =>
    have hstands := (hcalls _ hp).2 ⟨"Nope", [], 14⟩ (List.mem_cons_of_mem _ (List.mem_singleton_self _))
    obtain ⟨c, hc, hfails, hoffset, -⟩ := hfirst _ refusal hp hv
    obtain rfl : c = ⟨"Nope", [], 14⟩ := by
      rcases List.mem_cons.1 hc with rfl | hc
      · exact absurd hhost hfails
      · exact List.mem_singleton.1 hc
    exact ⟨_, refusal, hp, rfl, hstands, rfl, hoffset⟩

end TraefikUpgrade.Rule
