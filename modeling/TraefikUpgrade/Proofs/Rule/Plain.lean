/-
# Plainly written rules

A rule is plainly written if all its strings are in backticks and every name stands at its parenthesis;
blanks elsewhere and parentheses are free. In such a rule every call with arguments is found in its
text, and nothing else is (`siteOffsets_of_parse`).

Key definitions: `plainFrom`, `isPlain`.
Key theorems: `readArgs_of_strings`, `siteOffsets_of_parse`, `foundIn_iff`.
-/
import TraefikUpgrade.Proofs.Rule.Scan

namespace TraefikUpgrade.Rule

open Text (utf8Length)

/-- Whether the rest of a rule is plainly written; it begins inside of a string if `quoted`. -/
def plainFrom : (quoted : Bool) → List Char → Bool
  | _, [] => true
  | true, c :: cs => plainFrom (c != '\x60') cs
  | false, c :: cs =>
    c != '\x22' && (!isNamePart c || cs.head?.any fun d => isNamePart d || d == '(') &&
      plainFrom (c == '\x60') cs

/-- Whether a rule has no double-quoted string, and a parenthesis right after each name. -/
def isPlain (rule : String) : Bool := plainFrom false rule.toList

/-! ### Token by token -/

theorem plainFrom_cons {c : Char} {cs : List Char} (hc : c ≠ '\x60')
    (h : plainFrom false (c :: cs) = true) : plainFrom false cs = true := by
  rw [plainFrom, Bool.and_eq_true] at h
  rw [show (c == '\x60') = false by simpa using hc] at h
  exact h.2

theorem plainFrom_string : ∀ {value rest : List Char}, '\x60' ∉ value →
    plainFrom true (value ++ '\x60' :: rest) = true → plainFrom false rest = true
  | [], _, _, h => h
  | c :: cs, rest, hv, h => by
    rw [List.mem_cons, not_or] at hv
    rw [List.cons_append, plainFrom] at h
    rw [show (c != '\x60') = true by simpa using Ne.symm hv.1] at h
    exact plainFrom_string hv.2 h

theorem plainFrom_name : ∀ {c : Char} {cs : List Char}, isNamePart c = true →
    plainFrom false (c :: cs) = true → plainFrom false (cs.dropWhile isNamePart) = true ∧
      (cs.dropWhile isNamePart).head? = some '('
  | c, [], hc, h => by
    simp [plainFrom, hc] at h
  | c, d :: cs, hc, h => by
    have hne : c ≠ '\x60' := by
      rintro rfl
      cases hc
    have hrest := plainFrom_cons hne h
    by_cases hd : isNamePart d = true
    · rw [List.dropWhile_cons_of_pos hd]
      exact plainFrom_name hd hrest
    · rw [List.dropWhile_cons_of_neg hd]
      simp only [plainFrom, hc, hd, Bool.and_eq_true, Bool.or_eq_true, List.head?_cons,
        Option.any_some, Bool.not_true, Bool.false_eq_true, false_or, beq_iff_eq] at h
      exact ⟨hrest, congrArg some h.1.2⟩

/-- What a token of a plainly written text is, and that the text after it is plainly written. -/
theorem plainFrom_token {c : Char} {cs rest : List Char} {t : Token}
    (ht : tokenAt c cs = .ok (some t, rest)) (h : plainFrom false (c :: cs) = true) :
    plainFrom false rest = true ∧
      ((∃ value, c = '\x60' ∧ Text.cutAt '\x60' cs = some (value, rest) ∧
          t = .text (String.ofList value)) ∨
        (beginsName c = true ∧ cs = cs.takeWhile isNamePart ++ rest ∧ rest.head? = some '(' ∧
          t = .identifier (String.ofList (c :: cs.takeWhile isNamePart))) ∨
        ((∀ value, t ≠ .text value) ∧ (∀ name, t ≠ .identifier name) ∧
          ∃ text, cs = text ++ rest ∧ ∀ d ∈ c :: text, Unicode.isWord d = false)) := by
  rcases tokenAt_cases ht with ⟨rfl, hs⟩ | ⟨rfl, hs⟩ | ⟨rfl, value, hv, rfl⟩ | ⟨rfl, -⟩ |
    ⟨hb, rfl, rfl⟩
  · rcases hs with ⟨rfl, rfl⟩ | ⟨rfl, rfl⟩ | ⟨rfl, rfl⟩ | ⟨rfl, rfl⟩ <;>
      exact ⟨plainFrom_cons (by decide) h,
        .inr (.inr ⟨by simp, by simp, [], rfl, List.forall_mem_singleton.2 rfl⟩)⟩
  · rcases hs with ⟨rfl, rfl⟩ | ⟨rfl, rfl⟩ <;>
      exact ⟨plainFrom_cons (by decide) (plainFrom_cons (by decide) h),
        .inr (.inr ⟨by simp, by simp, [_], rfl,
          List.forall_mem_cons.2 ⟨rfl, List.forall_mem_singleton.2 rfl⟩⟩)⟩
  · refine ⟨plainFrom_string (Text.notMem_of_cutAt hv) ?_,
      .inl ⟨value, rfl, hv, rfl⟩⟩
    rw [← Text.eq_append_of_cutAt hv]
    rw [plainFrom, Bool.and_eq_true] at h
    exact h.2
  · rw [plainFrom] at h
    cases h
  · obtain ⟨hp, hh⟩ := plainFrom_name (isNamePart_of_beginsName hb) h
    exact ⟨hp, .inr (.inl ⟨hb, List.takeWhile_append_dropWhile.symm, hh, rfl⟩)⟩

theorem plainFrom_blanks : ∀ {blanks cs : List Char},
    (∀ b ∈ blanks, Unicode.isWhiteSpace b = true) → plainFrom false (blanks ++ cs) = true →
    plainFrom false cs = true
  | [], _, _, h => h
  | b :: blanks, cs, hb, h => by
    rw [List.forall_mem_cons] at hb
    refine plainFrom_blanks hb.2 (plainFrom_cons ?_ h)
    rintro rfl
    cases hb.1

theorem afterBlanks_append {blanks tail : List Char} {c : Char}
    (hb : ∀ b ∈ blanks, Unicode.isWhiteSpace b = true) (hc : Unicode.isWhiteSpace c = false) :
    afterBlanks (blanks ++ c :: tail) = c :: tail := by
  rw [afterBlanks, List.dropWhile_append_of_pos hb, List.dropWhile_cons_of_neg (by simp [hc])]

/-! ### Calls are found -/

variable {total : Nat}

/-- The first token of a plainly written text. -/
theorem exists_plainToken {cs : List Char} {t : Located} {tokens : List Located}
    (hp : plainFrom false cs = true) (ht : tokensFrom total cs = .ok (t :: tokens)) :
    ∃ blanks c tail rest, cs = blanks ++ c :: tail ∧
      (∀ b ∈ blanks, Unicode.isWhiteSpace b = true) ∧ plainFrom false (c :: tail) = true ∧
      tokenAt c tail = .ok (some t.token, rest) ∧ t.offset = total - utf8Length (c :: tail) ∧
      tokensFrom total rest = .ok tokens := by
  obtain ⟨blanks, c, tail, rest, rfl, hb, hat, ho, hr⟩ := exists_tokenAt_of_tokensFrom ht
  exact ⟨blanks, c, tail, rest, rfl, hb, plainFrom_blanks hb hp, hat, ho, hr⟩

/-- A string in a plainly written text stands in backticks. -/
theorem afterBlanks_of_text {cs : List Char} {o : Nat} {value : String} {tokens : List Located}
    (hp : plainFrom false cs = true) (ht : tokensFrom total cs = .ok (⟨o, .text value⟩ :: tokens)) :
    ∃ body rest, afterBlanks cs = '\x60' :: body ∧
      Text.cutAt '\x60' body = some (value.toList, rest) ∧ plainFrom false rest = true ∧
      tokensFrom total rest = .ok tokens := by
  obtain ⟨blanks, c, tail, rest, rfl, hb, hp, hat, -, hr⟩ := exists_plainToken hp ht
  obtain ⟨hp', ⟨v, rfl, hv, he⟩ | ⟨-, -, -, he⟩ | ⟨hne, -⟩⟩ := plainFrom_token hat hp
  · cases he
    rw [String.toList_ofList]
    exact ⟨tail, rest, afterBlanks_append hb rfl, hv, hp', hr⟩
  · cases he
  · exact absurd rfl (hne value)

/-- The last argument of a call. -/
theorem readArgs_last {cs body arg rest ds : List Char} (hb : afterBlanks cs = '\x60' :: body)
    (hc : Text.cutAt '\x60' body = some (arg, rest)) (hr : afterBlanks rest = ')' :: ds) :
    readArgs cs = some ([arg], ds) := by
  rw [readArgs]
  split
  · next he =>
    rw [hb] at he
    cases he
    split
    · next hn => rw [hc] at hn; cases hn
    · next hs =>
      rw [hc] at hs
      cases hs
      split <;> simp_all
  · next hn => exact absurd hb (hn body)

/-- An argument of a call before others. -/
theorem readArgs_more {cs body arg rest ds : List Char} (hb : afterBlanks cs = '\x60' :: body)
    (hc : Text.cutAt '\x60' body = some (arg, rest)) (hr : afterBlanks rest = ',' :: ds) :
    readArgs cs = (readArgs ds).map fun (args, rest) => (arg :: args, rest) := by
  rw [readArgs]
  split
  · next he =>
    rw [hb] at he
    cases he
    split
    · next hn => rw [hc] at hn; cases hn
    · next hs =>
      rw [hc] at hs
      cases hs
      split <;> simp_all
  · next hn => exact absurd hb (hn body)

/-- A comma or a closing parenthesis in a plainly written text. -/
theorem afterBlanks_of_mark {cs : List Char} {o : Nat} {c : Char} {mark : Token}
    {tokens : List Located} (hm : c = ',' ∧ mark = .comma ∨ c = ')' ∧ mark = .closeParen)
    (hp : plainFrom false cs = true) (ht : tokensFrom total cs = .ok (⟨o, mark⟩ :: tokens)) :
    ∃ rest, afterBlanks cs = c :: rest ∧ plainFrom false rest = true ∧
      tokensFrom total rest = .ok tokens := by
  obtain ⟨blanks, d, tail, rest, rfl, hb, hp, hat, -, hr⟩ := exists_plainToken hp ht
  have hd : d = c ∧ rest = tail := by
    rcases tokenAt_cases hat with ⟨rfl, hs⟩ | ⟨-, hs⟩ | ⟨-, v, -, he⟩ | ⟨-, v, -, he⟩ | ⟨-, -, he⟩ <;>
      rcases hm with ⟨rfl, rfl⟩ | ⟨rfl, rfl⟩ <;> simp_all
  obtain ⟨rfl, rfl⟩ := hd
  refine ⟨rest, afterBlanks_append hb ?_, (plainFrom_token hat hp).1, hr⟩
  rcases hm with ⟨rfl, -⟩ | ⟨rfl, -⟩ <;> rfl

theorem readArgs_of_strings {tokens rest : List Located} {values : List String}
    (h : Strings tokens values rest) : ∀ {cs : List Char}, plainFrom false cs = true →
    tokensFrom total cs = .ok tokens →
    ∃ ds, readArgs cs = some (values.map String.toList, ds) ∧ plainFrom false ds = true ∧
      tokensFrom total ds = .ok rest := by
  induction h with
  | last o q value rest =>
    intro cs hp ht
    obtain ⟨body, middle, hb, hc, hp1, ht1⟩ := afterBlanks_of_text hp ht
    obtain ⟨ds, hm, hp2, ht2⟩ := afterBlanks_of_mark (.inr ⟨rfl, rfl⟩) hp1 ht1
    exact ⟨ds, readArgs_last hb hc hm, hp2, ht2⟩
  | more o q value _ ih =>
    intro cs hp ht
    obtain ⟨body, middle, hb, hc, hp1, ht1⟩ := afterBlanks_of_text hp ht
    obtain ⟨ds, hm, hp2, ht2⟩ := afterBlanks_of_mark (.inl ⟨rfl, rfl⟩) hp1 ht1
    obtain ⟨ds', hr, hp3, ht3⟩ := ih hp2 ht2
    refine ⟨ds', ?_, hp3, ht3⟩
    rw [readArgs_more hb hc hm, hr]
    rfl

/-- Whether the call is found if it is plainly written. -/
def Call.Findable (c : Call) : Prop :=
  c.args ≠ [] ∧ ∀ d ∈ c.name.toList, Unicode.isWord d = true

theorem fragments_of_notWord : ∀ {used : List Char} (ds : List Char),
    (∀ c ∈ used, Unicode.isWord c = false) →
    fragments (used ++ ds) = used.map .other ++ fragments ds
  | [], _, _ => rfl
  | u :: used, ds, h => by
    rw [List.forall_mem_cons] at h
    rw [List.cons_append, fragments_other (callAt?_of_isWord h.1 _), fragments_of_notWord ds h.2]
    rfl

theorem siteOffsets_of_notWord {used : List Char} (ds : List Char)
    (h : ∀ c ∈ used, Unicode.isWord c = false) :
    siteOffsets total (fragments (used ++ ds)) = siteOffsets total (fragments ds) := by
  rw [fragments_of_notWord ds h, siteOffsets_map_other]

/-- At a token that is neither a name nor a string no call is found. -/
theorem siteOffsets_of_mark {cs : List Char} {t : Located} {tokens : List Located}
    (hp : plainFrom false cs = true) (ht : tokensFrom total cs = .ok (t :: tokens))
    (hv : ∀ value, t.token ≠ .text value) (hn : ∀ name, t.token ≠ .identifier name) :
    ∃ rest, plainFrom false rest = true ∧ tokensFrom total rest = .ok tokens ∧
      siteOffsets total (fragments cs) = siteOffsets total (fragments rest) := by
  obtain ⟨blanks, c, tail, rest, rfl, hb, hp, hat, -, hr⟩ := exists_plainToken hp ht
  obtain ⟨hp', ⟨v, -, -, he⟩ | ⟨-, -, -, he⟩ | ⟨-, -, text, rfl, hw⟩⟩ := plainFrom_token hat hp
  · exact absurd he (hv _)
  · exact absurd he (hn _)
  · refine ⟨rest, hp', hr, ?_⟩
    rw [siteOffsets_of_notWord _ fun b hm => isWord_of_isWhiteSpace (hb b hm)]
    exact @siteOffsets_of_notWord total (c :: text) rest hw

theorem callAt?_append {name tail rest : List Char} {args : List (List Char)} (hn : name ≠ [])
    (hw : ∀ d ∈ name, Unicode.isWord d = true) (hr : readArgs tail = some (args, rest)) :
    callAt? (name ++ '(' :: tail) = some (⟨name, args⟩, rest) := by
  have hp : Unicode.isWord '(' = false := rfl
  obtain ⟨d, ds, rfl⟩ := List.exists_cons_of_ne_nil hn
  rw [callAt?, List.takeWhile_append_of_pos hw, List.dropWhile_append_of_pos hw,
    List.takeWhile_cons_of_neg (by simp [hp]), List.dropWhile_cons_of_neg (by simp [hp]),
    List.append_nil]
  show (readArgs tail).map _ = _
  rw [hr]
  rfl

/-- A plainly written call is found where it stands. -/
theorem siteOffsets_of_call {cs : List Char} {c : Call} {tokens rest : List Located}
    (hc : c.Findable) (ha : Arguments tokens c.args rest) (hp : plainFrom false cs = true)
    (ht : tokensFrom total cs = .ok (⟨c.offset, .identifier c.name⟩ :: tokens)) :
    ∃ ds, plainFrom false ds = true ∧ tokensFrom total ds = .ok rest ∧
      siteOffsets total (fragments cs) = c.offset :: siteOffsets total (fragments ds) := by
  obtain ⟨blanks, d, tail, middle, rfl, hb, hp, hat, ho, hr⟩ := exists_plainToken hp ht
  obtain ⟨hp', ⟨v, -, -, he⟩ | ⟨-, htail, hhead, he⟩ | ⟨-, hne, -⟩⟩ := plainFrom_token hat hp
  · cases he
  · cases middle with
    | nil => cases hhead
    | cons paren inner =>
      cases hhead
      have hname : c.name.toList = d :: tail.takeWhile isNamePart := by
        simp only [Token.identifier.injEq] at he
        rw [he, String.toList_ofList]
      rcases hargs : c.args with _ | ⟨value, values⟩
      · exact absurd hargs hc.1
      rw [hargs] at ha
      cases ha with
      | some o hs =>
        rw [tokensFrom_token (tokenAt_openParen inner)] at hr
        cases hinner : tokensFrom total inner with
        | error refusal => rw [hinner] at hr; cases hr
        | ok tokens' =>
          rw [hinner] at hr
          cases hr
          obtain ⟨ds, hread, hpd, hd⟩ := readArgs_of_strings hs (plainFrom_cons (by decide) hp') hinner
          have hw := hc.2
          rw [hname] at hw
          have hcall := callAt?_append (List.cons_ne_nil _ _) hw hread
          rw [List.cons_append, ← htail] at hcall
          refine ⟨ds, hpd, hd, ?_⟩
          rw [siteOffsets_of_notWord _ fun b hm => isWord_of_isWhiteSpace (hb b hm),
            siteOffsets_call hcall, show c.offset = _ from ho]
  · exact absurd rfl (hne c.name)

/-- In a plainly written text the calls of an expression are found, each at its place. -/
theorem siteOffsets_of_derives {level : Level} {tokens rest : List Located} {e : Expr}
    (h : Derives level tokens e rest) : ∀ {cs : List Char}, (∀ c ∈ e.calls, c.Findable) →
    plainFrom false cs = true → tokensFrom total cs = .ok tokens →
    ∃ ds, plainFrom false ds = true ∧ tokensFrom total ds = .ok rest ∧
      siteOffsets total (fragments cs) =
        e.calls.map Call.offset ++ siteOffsets total (fragments ds) := by
  induction h with
  | call o name ha =>
    intro cs hc hp ht
    exact siteOffsets_of_call (c := ⟨name, _, o⟩) (hc _ (List.mem_singleton_self _)) ha hp ht
  | not o _ ih =>
    intro cs hc hp ht
    obtain ⟨ds, hp1, ht1, hs1⟩ := siteOffsets_of_mark hp ht (by simp) (by simp)
    obtain ⟨ds', hp2, ht2, hs2⟩ := ih hc hp1 ht1
    exact ⟨ds', hp2, ht2, by rw [hs1, hs2, Expr.calls]⟩
  | parens o q _ ih =>
    intro cs hc hp ht
    obtain ⟨ds, hp1, ht1, hs1⟩ := siteOffsets_of_mark hp ht (by simp) (by simp)
    obtain ⟨ds', hp2, ht2, hs2⟩ := ih hc hp1 ht1
    obtain ⟨ds'', hp3, ht3, hs3⟩ := siteOffsets_of_mark hp2 ht2 (by simp) (by simp)
    exact ⟨ds'', hp3, ht3, by rw [hs1, hs2, hs3]⟩
  | operand _ ih => exact ih
  | and o _ _ ihl ihr =>
    intro cs hc hp ht
    obtain ⟨ds, hp1, ht1, hs1⟩ := ihl (fun c hm => hc c (List.mem_append_left _ hm)) hp ht
    obtain ⟨ds', hp2, ht2, hs2⟩ := siteOffsets_of_mark hp1 ht1 (by simp) (by simp)
    obtain ⟨ds'', hp3, ht3, hs3⟩ := ihr (fun c hm => hc c (List.mem_append_right _ hm)) hp2 ht2
    refine ⟨ds'', hp3, ht3, ?_⟩
    rw [hs1, hs2, hs3, Expr.calls, List.map_append, List.append_assoc]
  | conjunction _ ih => exact ih
  | or o _ _ ihl ihr =>
    intro cs hc hp ht
    obtain ⟨ds, hp1, ht1, hs1⟩ := ihl (fun c hm => hc c (List.mem_append_left _ hm)) hp ht
    obtain ⟨ds', hp2, ht2, hs2⟩ := siteOffsets_of_mark hp1 ht1 (by simp) (by simp)
    obtain ⟨ds'', hp3, ht3, hs3⟩ := ihr (fun c hm => hc c (List.mem_append_right _ hm)) hp2 ht2
    refine ⟨ds'', hp3, ht3, ?_⟩
    rw [hs1, hs2, hs3, Expr.calls, List.map_append, List.append_assoc]

/-- The calls found in a plainly written rule are those of its expression. -/
theorem siteOffsets_of_parse {rule : String} {e : Expr} (hplain : isPlain rule = true)
    (hp : parse rule = .ok e) (hc : ∀ c ∈ e.calls, c.Findable) :
    siteOffsets (utf8Length rule.toList) (fragments rule.toList) = e.calls.map Call.offset := by
  obtain ⟨-, tokens, ht, hd⟩ := parse_eq_ok_iff.1 hp
  obtain ⟨ds, -, hend, hs⟩ := siteOffsets_of_derives hd hc hplain ht
  have hw : ∀ c ∈ ds, Unicode.isWord c = false := fun c hm =>
    isWord_of_isWhiteSpace (isWhiteSpace_of_tokensFrom_nil hend c hm)
  have hnil := @siteOffsets_of_notWord (utf8Length rule.toList) ds [] hw
  rw [List.append_nil] at hnil
  rw [hs, hnil, fragments_nil, siteOffsets, List.append_nil]

theorem foundIn_iff {rule : String} {e : Expr} (hplain : isPlain rule = true)
    (hp : parse rule = .ok e) (hc : ∀ c ∈ e.calls, c.Findable) (n : Nat) :
    foundIn rule n = true ↔ ∃ c ∈ e.calls, c.offset = n := by
  rw [foundIn, List.contains_iff_mem, siteOffsets_of_parse hplain hp hc, List.mem_map]

end TraefikUpgrade.Rule
