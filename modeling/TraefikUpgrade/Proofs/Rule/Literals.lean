/-
# Calls that are found inside of strings and names

The scan for calls does not know the tokens of a rule. Where it finds a call, either a token begins, and
what it has found is a call of the expression with its whole text (`isCallText_of_boundary`), or the
place is inside of a token. This must be a string, or a name with a letter that is no word character
right before the place, as in `a²Path` (`inLiteral_of_across`). So nothing but strings and names is ever
taken for a call that is none (`found_call_cases`). All calls in a rule in double quotes are of this
kind, and they are upgraded all the same (`upgrade_changes_string`).

Key definitions: `Across`, `IsCallText`, `InLiteral`, `DoubleQuoted`.
Key theorems: `boundary_or_across`, `inLiteral_of_doubleQuoted`, `found_call_cases`.
-/
import TraefikUpgrade.Proofs.Rule.Fixpoint

namespace TraefikUpgrade.Rule

open Text (utf8Length)

/-! ### Places in a text with tokens -/

/-- Whether the token begins in `front` and ends in `back`. -/
def Across (t : Located) (front back : List Char) : Prop :=
  ∃ before c used unused rest, front = before ++ c :: used ∧ back = unused ++ rest ∧ unused ≠ [] ∧
    tokenAt c (used ++ back) = .ok (some t.token, rest) ∧ t.offset = utf8Length before

/-- At every place of a text the next token begins, but for blanks, or the place is inside of a token. -/
theorem boundary_or_across {total : Nat} (before front back : List Char) {tokens : List Located}
    (htotal : utf8Length (before ++ (front ++ back)) = total)
    (ht : tokensFrom total (front ++ back) = .ok tokens) :
    (∃ ts, tokensFrom total back = .ok ts ∧ ts <:+ tokens) ∨
      ∃ t ∈ tokens, Across t (before ++ front) back := by
  match front with
  | [] => exact .inl ⟨tokens, ht, List.suffix_refl _⟩
  | c :: front =>
    cases hat : tokenAt c (front ++ back) with
    | error fault => rw [List.cons_append, tokensFrom_error hat] at ht; cases ht
    | ok read =>
      obtain ⟨_ | token, rest⟩ := read
      · obtain ⟨hb, -⟩ := isWhiteSpace_of_tokenAt hat
        rw [List.cons_append, tokensFrom_blank hb] at ht
        simpa using boundary_or_across (before ++ [c]) front back (by simpa using htotal) ht
      · rw [List.cons_append, tokensFrom_token hat] at ht
        cases hr : tokensFrom total rest with
        | error refusal => rw [hr] at ht; cases ht
        | ok tokens' =>
          rw [hr] at ht
          obtain rfl := Except.ok.inj ht
          obtain ⟨text, htext, -⟩ := exists_text_of_tokenAt hat
          rcases List.append_eq_append_iff.1 htext with ⟨unused, rfl, rfl⟩ | ⟨front', rfl, rfl⟩
          · by_cases hu : unused = []
            · subst hu
              exact .inl ⟨tokens', hr, List.suffix_cons _ _⟩
            · exact .inr ⟨_, List.mem_cons_self .., before, c, front, unused, rest, rfl, rfl, hu, hat,
                sub_utf8Length htotal⟩
          · have hlen : front'.length < (c :: (text ++ front')).length := by
              simp only [List.length_cons, List.length_append]
              omega
            rcases boundary_or_across (before ++ c :: text) front' back (by simpa using htotal) hr with
              ⟨ts, hts, hs⟩ | ⟨t, hm, ha⟩
            · exact .inl ⟨ts, hts, hs.trans (List.suffix_cons _ _)⟩
            · exact .inr ⟨t, List.mem_cons_of_mem _ hm, by simpa using ha⟩
termination_by front.length

/-! ### Where a call is found -/

theorem closing_of_readArgs (cs : List Char) {args : List (List Char)} {rest : List Char}
    (h : readArgs cs = some (args, rest)) : ')' :: rest <:+ cs := by
  rw [readArgs] at h
  split at h
  · next body hb =>
    split at h
    · cases h
    · next arg tail hc =>
      have hs : tail <:+ cs :=
        ((suffix_of_cutAt hc).trans (hb ▸ List.suffix_cons _ _)).trans (afterBlanks_suffix cs)
      have htail := afterBlanks_suffix tail
      split at h
      · next ds hr =>
        cases h
        rw [hr] at htail
        exact htail.trans hs
      · next ds hr =>
        obtain ⟨⟨args', rest'⟩, ha, he⟩ := Option.map_eq_some_iff.1 h
        cases he
        rw [hr] at htail
        exact (((closing_of_readArgs ds ha).trans (List.suffix_cons _ _)).trans htail).trans hs
      · cases h
  · cases h
termination_by cs.length
decreasing_by grind [length_afterBlanks_le, → Text.length_lt_of_cutAt]

/-- The text of a call ends with its closing parenthesis. -/
theorem getLast?_of_callAt? {site : CallSite} {source rest : List Char}
    (h : callAt? (source ++ rest) = some (site, rest)) : source.getLast? = some ')' := by
  obtain ⟨-, -, tail, hd, hr⟩ := callAt?_eq_some h
  have hs : (source ++ rest).dropWhile Unicode.isWord <:+ source ++ rest := List.dropWhile_suffix _
  rw [hd] at hs
  obtain ⟨used, hu⟩ := (closing_of_readArgs tail hr).trans ((List.suffix_cons _ _).trans hs)
  obtain rfl : used ++ [')'] = source := by
    rw [← List.singleton_append, ← List.append_assoc] at hu
    exact List.append_cancel_right hu
  simp

theorem callAt?_cons_of_isWord {c : Char} {cs rest : List Char} {site : CallSite}
    (hc : Unicode.isWord c = true) (h : callAt? cs = some (site, rest)) :
    callAt? (c :: cs) = some (⟨c :: site.name, site.args⟩, rest) := by
  obtain ⟨hname, -, tail, hd, hr⟩ := callAt?_eq_some h
  unfold callAt?
  rw [List.takeWhile_cons_of_pos hc, List.dropWhile_cons_of_pos hc, hd, ← hname]
  show (readArgs tail).map _ = _
  rw [hr]
  rfl

theorem isWord_of_callAt? {c : Char} {cs rest : List Char} {site : CallSite}
    (h : callAt? (c :: cs) = some (site, rest)) : Unicode.isWord c = true := by
  rw [← Bool.not_eq_false]
  intro hc
  rw [callAt?_of_isWord hc] at h
  cases h

/-- Where a call is found, it is in the text, and no word character stands before it. -/
theorem callAt?_of_fragments : ∀ (pre : List Fragment) {cs : List Char} {site : CallSite}
    {source : List Char} {post : List Fragment}, fragments cs = pre ++ .call site source :: post →
    ∃ back, cs = pre.flatMap Fragment.source ++ (source ++ back) ∧
      callAt? (source ++ back) = some (site, back) ∧
      ∀ p, (pre.flatMap Fragment.source).getLast? = some p → Unicode.isWord p = false
  | pre, [], site, source, post, h => by simp at h
  | pre, c :: tail, site, source, post, h => by
    cases hc : callAt? (c :: tail) with
    | none =>
      rw [fragments_other hc] at h
      cases pre with
      | nil => cases h
      | cons x pre =>
        obtain ⟨rfl, htail⟩ := List.cons.inj h
        obtain ⟨back, rfl, hfound, hlast⟩ := callAt?_of_fragments pre htail
        refine ⟨back, rfl, hfound, fun p hp => ?_⟩
        cases hpre : pre.flatMap Fragment.source with
        | nil =>
          rw [List.flatMap_cons, hpre] at hp
          obtain rfl : c = p := by simpa [Fragment.source] using hp
          rw [← Bool.not_eq_true]
          intro hw
          rw [hpre, List.nil_append, callAt?_cons_of_isWord hw hfound] at hc
          cases hc
        | cons d ds =>
          refine hlast p ?_
          rw [List.flatMap_cons, hpre] at hp
          rw [hpre]
          simpa [Fragment.source] using hp
    | some found =>
      obtain ⟨site', rest⟩ := found
      obtain ⟨source', hs⟩ := suffix_of_callAt? hc
      rw [← hs] at hc h
      rw [fragments_of_callAt? hc] at h
      cases pre with
      | nil =>
        cases h
        exact ⟨rest, hs.symm, hc, by simp⟩
      | cons x pre =>
        obtain ⟨rfl, hrest⟩ := List.cons.inj h
        have hlt : rest.length < (c :: tail).length := by
          rw [← hs]
          exact length_lt_of_callAt? hc
        obtain ⟨back, hback, hfound, hlast⟩ := callAt?_of_fragments pre hrest
        refine ⟨back, ?_, hfound, fun p hp => ?_⟩
        · rw [← hs, hback]
          simp [Fragment.source]
        · cases hpre : pre.flatMap Fragment.source with
          | nil =>
            rw [List.flatMap_cons, hpre, List.append_nil] at hp
            obtain rfl : ')' = p := Option.some.inj ((getLast?_of_callAt? hc).symm.trans hp)
            rfl
          | cons d ds =>
            refine hlast p ?_
            rw [List.flatMap_cons, hpre] at hp
            rw [hpre]
            simpa [Fragment.source, List.getLast?_append] using hp
termination_by _ cs => cs.length
decreasing_by
  · exact Nat.lt_succ_self _
  · exact hlt

/-! ### A call that is found where a token begins -/

/-- Whether the text after `front` is that of a call of the expression, from the name at its place to its
closing parenthesis. -/
structure IsCallText (e : Expr) (front : List Char) (site : CallSite) (source : List Char) : Prop where
  mem : site.call (utf8Length front) ∈ e.calls
  spells : Spells source (site.call (utf8Length front)).tokens
  closed : source.getLast? = some ')'

theorem isCallText_of_boundary {total : Nat} {front source back : List Char} {site : CallSite}
    {tokens ts : List Located} {e : Expr} (hd : Derives .disjunction tokens e [])
    (htotal : utf8Length (front ++ (source ++ back)) = total)
    (hfound : callAt? (source ++ back) = some (site, back))
    (hts : tokensFrom total (source ++ back) = .ok ts) (hs : ts <:+ tokens) :
    IsCallText e front site source := by
  obtain ⟨hplain, source', hsource, -, hspells⟩ := spells_of_callAt? hfound hts (utf8Length front)
  obtain rfl := List.append_cancel_right hsource
  obtain ⟨located, hl, hread⟩ := hspells total back
  rw [hts] at hread
  cases hback : tokensFrom total back with
  | error refusal => rw [hback] at hread; cases hread
  | ok rest =>
    rw [hback] at hread
    obtain rfl : ts = located ++ rest := Except.ok.inj hread
    obtain ⟨⟨o, token⟩, args, rfl⟩ : ∃ t args, located = t :: args := by
      cases located with
      | nil => cases hl
      | cons t args => exact ⟨t, args, rfl⟩
    obtain ⟨rfl, hargs⟩ : token = .identifier (site.call (utf8Length front)).name ∧
        args.map Located.token = .openParen :: argumentTokens (site.call (utf8Length front)).args :=
      List.cons.inj hl
    -- The first token is at the beginning of the text: a name begins with its first character.
    have ho : o = utf8Length front := by
      match source with
      | [] => cases getLast?_of_callAt? hfound
      | c :: source =>
        have hw := isWord_of_callAt? hfound
        obtain ⟨blanks, d, tail, rest', hcs, hb, hat, hoff, -⟩ := exists_tokenAt_of_tokensFrom hts
        match blanks with
        | [] =>
          rw [hcs] at htotal
          exact hoff.trans (sub_utf8Length htotal)
        | b :: blanks =>
          obtain ⟨rfl, -⟩ := List.cons.inj hcs
          rw [isWord_of_isWhiteSpace (hb c (List.mem_cons_self ..))] at hw
          cases hw
    subst ho
    obtain ⟨args', rest', ha, hm⟩ := hd.call_of_suffix hs (Nat.zero_le _)
    obtain ⟨rfl, -⟩ := ha.unique (arguments_of_tokens hargs rest)
    exact ⟨hm, hspells, getLast?_of_callAt? hfound⟩

/-! ### A call that is found inside of a token -/

/-- Whether the place after `front` is inside of a string, or inside of a name after a letter that is no
word character. -/
def InLiteral (tokens : List Located) (front back : List Char) : Prop :=
  ∃ t ∈ tokens, Across t front back ∧
    ((∃ value, t.token = .text value) ∨ (∃ name, t.token = .identifier name) ∧
      ∃ p, front.getLast? = some p ∧ isNamePart p = true ∧ Unicode.isWord p = false)

theorem inLiteral_of_across {front back rest : List Char} {site : CallSite} {t : Located}
    {tokens : List Located} (hm : t ∈ tokens) (ha : Across t front back)
    (hfound : callAt? back = some (site, rest))
    (hlast : ∀ p, front.getLast? = some p → Unicode.isWord p = false) :
    InLiteral tokens front back := by
  refine ⟨t, hm, ha, ?_⟩
  obtain ⟨before, c, used, unused, after, rfl, hback, hu, hat, -⟩ := ha
  rcases tokenAt_cases hat with ⟨hrest, -⟩ | ⟨hrest, hc⟩ | ⟨-, value, -, ht⟩ | ⟨-, value, -, ht⟩ |
    ⟨hc, hrest, ht⟩
  · -- A token of one character has no inside.
    have hlen := congrArg List.length hrest
    have hpos := List.length_pos_iff.2 hu
    simp only [hback, List.length_append] at hlen
    omega
  · have hlen := congrArg List.length hrest
    have hpos := List.length_pos_iff.2 hu
    simp only [hback, List.length_append, List.length_cons] at hlen
    obtain rfl : used = [] := List.eq_nil_of_length_eq_zero (by omega)
    rw [List.nil_append] at hrest
    rw [hrest] at hfound
    have hw := isWord_of_callAt? hfound
    rcases hc with ⟨rfl, -⟩ | ⟨rfl, -⟩ <;> cases hw
  · exact .inl ⟨_, ht⟩
  · exact .inl ⟨_, ht⟩
  · refine .inr ⟨⟨_, ht⟩, ?_⟩
    have hparts : ∀ d ∈ c :: used, isNamePart d = true := by
      have htake : (used ++ back).takeWhile isNamePart = used ++ unused := by
        have hsplit := List.takeWhile_append_dropWhile (p := isNamePart) (l := used ++ back)
        rw [← hrest] at hsplit
        refine List.append_cancel_right (hsplit.trans ?_)
        rw [hback, List.append_assoc]
      have hall : ∀ d ∈ (used ++ back).takeWhile isNamePart, isNamePart d = true :=
        List.all_eq_true.1 List.all_takeWhile
      rw [htake] at hall
      exact List.forall_mem_cons.2
        ⟨isNamePart_of_beginsName hc, fun d hd => hall d (List.mem_append_left _ hd)⟩
    obtain ⟨p, hp⟩ : ∃ p, (c :: used).getLast? = some p :=
      ⟨_, List.getLast?_eq_some_getLast (List.cons_ne_nil _ _)⟩
    have hfront : (before ++ c :: used).getLast? = some p := by
      rw [List.getLast?_append, hp]
      rfl
    exact ⟨p, hfront, hparts p (List.mem_of_getLast? hp), hlast p hfront⟩

/-! ### Rules in double quotes -/

/-- The character that begins at a byte of a text. -/
def charAt? : List Char → Nat → Option Char
  | [], _ => none
  | c :: cs, n =>
    if n = 0 then some c else if c.utf8Size ≤ n then charAt? cs (n - c.utf8Size) else none

theorem charAt?_append (c : Char) (back : List Char) : ∀ (front : List Char),
    charAt? (front ++ c :: back) (utf8Length front) = some c
  | [] => rfl
  | d :: front => by
    have hpos := Char.utf8Size_pos d
    rw [List.cons_append, charAt?, utf8Length, if_neg (by omega), if_pos (by omega),
      Nat.add_sub_cancel_left, charAt?_append c back front]

/-- Whether all strings of a rule are in double quotes. -/
def DoubleQuoted (rule : String) (tokens : List Located) : Prop :=
  ∀ t ∈ tokens, ∀ value, t.token = .text value → charAt? rule.toList t.offset = some '\x22'

/-- In a call that is found where a token begins, a string begins with a backtick. -/
theorem exists_backtick_of_found {total : Nat} {cs rest : List Char} {site : CallSite}
    {ts : List Located} (hfound : callAt? cs = some (site, rest))
    (hts : tokensFrom total cs = .ok ts) :
    ∃ used body value, cs = used ++ '\x60' :: body ∧
      ⟨total - utf8Length ('\x60' :: body), .text value⟩ ∈ ts := by
  obtain ⟨⟨hname, -⟩, -⟩ := spells_of_callAt? hfound hts 0
  obtain ⟨hsite, -, tail, hd, hr⟩ := callAt?_eq_some hfound
  obtain ⟨blanks, htail, hs⟩ := afterBlanks_spells tail
  rw [readArgs] at hr
  split at hr
  · next body hb =>
    have hcs : cs = (site.name ++ '(' :: blanks) ++ '\x60' :: body := by
      rw [hb] at htail
      rw [List.append_assoc, List.cons_append, ← htail, ← hd, hsite,
        List.takeWhile_append_dropWhile]
    obtain ⟨located, -, hread⟩ := (spells_name hname).append hs total ('\x60' :: body)
    have hused : ((site.call 0).name ++ "(").toList ++ blanks = site.name ++ '(' :: blanks := by
      simp [CallSite.call]
    rw [hused, ← hcs, hts] at hread
    cases hc : Text.cutAt '\x60' body with
    | none =>
      rw [hc] at hr
      cases hr
    | some p =>
      rw [tokensFrom_token (@tokenAt_backtick body p.1 p.2 hc)] at hread
      cases hrest : tokensFrom total p.2 with
      | error refusal => rw [hrest] at hread; cases hread
      | ok rest' =>
        rw [hrest] at hread
        obtain rfl := Except.ok.inj hread
        exact ⟨_, body, String.ofList p.1, hcs,
          List.mem_append_right _ (List.mem_cons_self ..)⟩
  · cases hr

/-! ### Calls that are found in a rule -/

section
variable {rule : String} {e : Expr} {tokens : List Located} {pre post : List Fragment}
  {site : CallSite} {source : List Char}

theorem found_cases (ht : tokenize rule = .ok tokens)
    (hf : fragments rule.toList = pre ++ .call site source :: post) :
    rule.toList = pre.flatMap Fragment.source ++ (source ++ post.flatMap Fragment.source) ∧
      callAt? (source ++ post.flatMap Fragment.source) =
        some (site, post.flatMap Fragment.source) ∧
      ((∃ ts, tokensFrom (utf8Length rule.toList) (source ++ post.flatMap Fragment.source) = .ok ts ∧
          ts <:+ tokens) ∨
        InLiteral tokens (pre.flatMap Fragment.source) (source ++ post.flatMap Fragment.source)) := by
  obtain ⟨back, hrule, hfound, hlast⟩ := callAt?_of_fragments pre hf
  obtain rfl : post.flatMap Fragment.source = back := by
    have hsources := flatMap_source_fragments rule.toList
    rw [hf, hrule, List.flatMap_append, List.flatMap_cons] at hsources
    exact List.append_cancel_left (List.append_cancel_left hsources)
  refine ⟨hrule, hfound, ?_⟩
  have hread : tokensFrom (utf8Length rule.toList)
      (pre.flatMap Fragment.source ++ (source ++ post.flatMap Fragment.source)) = .ok tokens := by
    rw [← hrule]
    exact ht
  exact (boundary_or_across [] _ _ (congrArg utf8Length hrule).symm hread).imp_right
    fun ⟨t, hm, ha⟩ => inLiteral_of_across hm ha hfound hlast

/-- In a rule in double quotes calls are found only inside of strings and names. -/
theorem inLiteral_of_doubleQuoted (ht : tokenize rule = .ok tokens) (hq : DoubleQuoted rule tokens)
    (hf : fragments rule.toList = pre ++ .call site source :: post) :
    InLiteral tokens (pre.flatMap Fragment.source) (source ++ post.flatMap Fragment.source) := by
  obtain ⟨hrule, hfound, hcases⟩ := found_cases ht hf
  refine hcases.resolve_left ?_
  rintro ⟨ts, hts, hs⟩
  obtain ⟨used, body, value, hcs, htoken⟩ := exists_backtick_of_found hfound hts
  have hchar := hq _ (hs.subset htoken) value rfl
  rw [hrule, hcs, ← List.append_assoc, Text.utf8Length_append, Nat.add_sub_cancel,
    charAt?_append] at hchar
  cases hchar

end

/-- A call that is found in a rule is a call of its expression with its whole text, or begins inside of a
string or a name. A rule in double quotes has calls of the second kind only, and stays as it is if it
has none. -/
theorem found_call_cases [Regex.Limits] {rule : String} {e : Expr} (hp : parse rule = .ok e) :
    ∃ tokens, tokenize rule = .ok tokens ∧
      (∀ pre site source post, fragments rule.toList = pre ++ .call site source :: post →
        IsCallText e (pre.flatMap Fragment.source) site source ∨
          InLiteral tokens (pre.flatMap Fragment.source) (source ++ post.flatMap Fragment.source)) ∧
      (DoubleQuoted rule tokens →
        (∀ pre site source post, fragments rule.toList = pre ++ .call site source :: post →
          InLiteral tokens (pre.flatMap Fragment.source)
            (source ++ post.flatMap Fragment.source)) ∧
        ((∀ pre site source post, fragments rule.toList = pre ++ .call site source :: post →
          ¬ InLiteral tokens (pre.flatMap Fragment.source)
            (source ++ post.flatMap Fragment.source)) →
          ∀ priority rule', upgrade rule priority = .ok rule' → rule' = rule)) := by
  obtain ⟨-, tokens, ht, hd⟩ := parse_eq_ok_iff.1 hp
  refine ⟨tokens, ht, fun pre site source post hf => ?_, fun hq =>
    ⟨fun pre site source post => inLiteral_of_doubleQuoted ht hq, fun hnone priority rule' hu => ?_⟩⟩
  · obtain ⟨hrule, hfound, hcases⟩ := found_cases ht hf
    refine hcases.imp_left ?_
    rintro ⟨ts, hts, hs⟩
    exact isCallText_of_boundary hd (congrArg utf8Length hrule).symm hfound hts hs
  · have hsame : upgradeText rule = .ok rule := by
      refine upgradeText_eq_self_iff.2 fun site source hm => ?_
      obtain ⟨pre, post, hf⟩ := List.append_of_mem hm
      exact absurd (inLiteral_of_doubleQuoted ht hq hf) (hnone pre site source post hf)
    rw [(upgrade_eq_ok_iff.1 hu).1] at hsame
    exact Except.ok.inj hsame

/-- At the beginning of a rule a call is no part of a string. -/
theorem found_call_cases_first : ∃ e, parse "Path(`/a`) || B()" = .ok e ∧
    fragments "Path(`/a`) || B()".toList =
      .call ⟨"Path".toList, [['/', 'a']]⟩ "Path(`/a`)".toList :: " || B()".toList.map .other ∧
    IsCallText e [] ⟨"Path".toList, [['/', 'a']]⟩ "Path(`/a`)".toList := by
  have ht : tokenize "Path(`/a`) || B()" = .ok [⟨0, .identifier "Path"⟩, ⟨4, .openParen⟩,
      ⟨5, .text "/a"⟩, ⟨9, .closeParen⟩, ⟨11, .disjunction⟩, ⟨14, .identifier "B"⟩,
      ⟨15, .openParen⟩, ⟨16, .closeParen⟩] := eq_ok_of_toOption (by decide +kernel)
  have hp := parse_of_derives ht (.or _
    (.conjunction (.operand (.call _ _ (.some _ (.last _ _ _ _)))))
    (.operand (.call _ _ (.none _ _ _))))
  have hf : fragments "Path(`/a`) || B()".toList =
      .call ⟨"Path".toList, [['/', 'a']]⟩ "Path(`/a`)".toList :: " || B()".toList.map .other := by
    decide +kernel
  obtain ⟨tokens, -, hcases, -⟩ := found_call_cases hp
  refine ⟨_, hp, hf, (hcases [] _ _ _ hf).resolve_right ?_⟩
  rintro ⟨t, -, ⟨before, c, used, unused, rest, hfront, -⟩, -⟩
  cases before <;> cases hfront

/-- In a string in double quotes the text of a call is upgraded. -/
theorem upgrade_changes_string :
    (¬ ∀ (rule : String) (e : Expr), parse rule = .ok e → ∀ pre site source post,
      fragments rule.toList = pre ++ .call site source :: post →
        IsCallText e (pre.flatMap Fragment.source) site source) ∧
    ¬ ∀ (rule rule' : String) (e : Expr) (tokens : List Located) (priority : Int),
      parse rule = .ok e → tokenize rule = .ok tokens → DoubleQuoted rule tokens →
        upgrade rule priority = .ok rule' → rule' = rule := by
  have ht : tokenize "Header(\x22X\x22, \x22Path(`/\x7bb\x7d`)\x22)" = .ok [⟨0, .identifier "Header"⟩,
      ⟨6, .openParen⟩, ⟨7, .text "X"⟩, ⟨10, .comma⟩, ⟨12, .text "Path(`/\x7bb\x7d`)"⟩,
      ⟨26, .closeParen⟩] := eq_ok_of_toOption (by decide +kernel)
  have ht' : tokenize "Header(\x22X\x22, \x22PathRegexp(`^/(?P<b>[^/]+)$`)\x22)" =
      .ok [⟨0, .identifier "Header"⟩, ⟨6, .openParen⟩, ⟨7, .text "X"⟩, ⟨10, .comma⟩,
        ⟨12, .text "PathRegexp(`^/(?P<b>[^/]+)$`)"⟩, ⟨43, .closeParen⟩] :=
    eq_ok_of_toOption (by decide +kernel)
  have hderives : ∀ {o a b c d f : Nat} {x y : String}, Derives .disjunction
      [⟨o, .identifier "Header"⟩, ⟨a, .openParen⟩, ⟨b, .text x⟩, ⟨c, .comma⟩, ⟨d, .text y⟩,
        ⟨f, .closeParen⟩] (.call ⟨"Header", [x, y], o⟩) [] :=
    .conjunction (.operand (.call _ _ (.some _ (.more _ _ _ (.last _ _ _ _)))))
  have hp := parse_of_derives ht hderives
  constructor
  · intro h
    have hf : fragments "Header(\x22X\x22, \x22Path(`/\x7bb\x7d`)\x22)".toList =
        "Header(\x22X\x22, \x22".toList.map .other ++
          .call ⟨"Path".toList, ["/\x7bb\x7d".toList]⟩ "Path(`/\x7bb\x7d`)".toList ::
            "\x22)".toList.map .other := by
      decide +kernel
    have hm := (h _ _ hp _ _ _ _ hf).mem
    simp [Expr.calls, CallSite.call] at hm
  · intro h
    have ha : Accepts .v3 ⟨"Header", ["X", "PathRegexp(`^/(?P<b>[^/]+)$`)"], 0⟩ :=
      eq_ok_of_toOption (by decide +kernel)
    have hu : upgrade "Header(\x22X\x22, \x22Path(`/\x7bb\x7d`)\x22)" 0 =
        .ok "Header(\x22X\x22, \x22PathRegexp(`^/(?P<b>[^/]+)$`)\x22)" :=
      upgrade_eq_ok_iff.2 ⟨eq_ok_of_toOption (by decide +kernel), _,
        validate_of_call (parse_of_derives ht' hderives) ha⟩
    have hq : DoubleQuoted "Header(\x22X\x22, \x22Path(`/\x7bb\x7d`)\x22)" [⟨0, .identifier "Header"⟩,
        ⟨6, .openParen⟩, ⟨7, .text "X"⟩, ⟨10, .comma⟩, ⟨12, .text "Path(`/\x7bb\x7d`)"⟩,
        ⟨26, .closeParen⟩] := by
      simp [DoubleQuoted]
      decide +kernel
    exact absurd (h _ _ _ _ 0 hp ht hq hu) (by decide)

end TraefikUpgrade.Rule
