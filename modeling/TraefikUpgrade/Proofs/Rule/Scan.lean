/-
# The calls found in the text of a rule

The calls of a rule are searched in its text, without its tokens. `foundIn` says where one is found. What
is found cuts the text into pieces (`Cut`), and leaving some of the calls out cuts it again
(`Cut.keepCalls`). `Scanned` is what holds at every place between two tokens when each call of a cut
begins at the name of a matcher: the pieces then go along with the tokens, one token at a time
(`Scanned.copy`) where nothing is found and one whole call at a time (`Scanned.call`) where a call is.

Key definitions: `Cut`, `keepCalls`, `siteOffsets`, `foundIn`, `Scanned`.
Key theorems: `cut_fragments`, `Cut.keepCalls`, `siteOffsets_keepCalls`, `Scanned.copy`, `Scanned.call`.
-/
import TraefikUpgrade.Proofs.Rule.Lexing
import TraefikUpgrade.Rule.CallSite

namespace TraefikUpgrade.Rule

open Text (utf8Length)

/-! ### Characters -/

/-- No blank is a word character. -/
theorem isWord_of_isWhiteSpace {c : Char} (h : Unicode.isWhiteSpace c = true) :
    Unicode.isWord c = false :=
  Unicode.of_isWhiteSpace (P := fun c => Unicode.isWord c = false) (by decide +kernel) h

/-- A word character that begins a token begins a name. -/
theorem beginsName_of_isWord {c : Char} {cs rest : List Char} {t : Option Token}
    (hw : Unicode.isWord c = true) (h : tokenAt c cs = .ok (t, rest)) : beginsName c = true := by
  cases t with
  | none =>
    rw [isWord_of_isWhiteSpace (isWhiteSpace_of_tokenAt h).1] at hw
    cases hw
  | some t =>
    rcases tokenAt_cases h with ⟨-, ⟨rfl, -⟩ | ⟨rfl, -⟩ | ⟨rfl, -⟩ | ⟨rfl, -⟩⟩ |
      ⟨-, ⟨rfl, -⟩ | ⟨rfl, -⟩⟩ | ⟨rfl, -⟩ | ⟨rfl, -⟩ | ⟨hb, -⟩
    iterate 8 cases hw
    exact hb

/-! ### The pieces of a text -/

/-- The text of a piece. -/
def Fragment.source : Fragment → List Char
  | .call _ source => source
  | .other c => [c]

@[simp] theorem fragments_nil : fragments [] = [] := by
  rw [fragments]

theorem fragments_call {c : Char} {tail rest : List Char} {site : CallSite}
    (h : callAt? (c :: tail) = some (site, rest)) :
    fragments (c :: tail) =
      .call site ((c :: tail).take ((c :: tail).length - rest.length)) :: fragments rest := by
  rw [fragments]
  split
  · next he => rw [h] at he; cases he; rfl
  · next he => rw [h] at he; cases he

theorem fragments_of_callAt? {site : CallSite} {source rest : List Char}
    (h : callAt? (source ++ rest) = some (site, rest)) :
    fragments (source ++ rest) = .call site source :: fragments rest := by
  match hs : source ++ rest with
  | [] => rw [hs] at h; cases h
  | c :: tail =>
    rw [hs] at h
    rw [fragments_call h, ← hs]
    simp

theorem fragments_other {c : Char} {tail : List Char} (h : callAt? (c :: tail) = none) :
    fragments (c :: tail) = .other c :: fragments tail := by
  rw [fragments]
  split
  · next he => rw [h] at he; cases he
  · rfl

theorem callAt?_of_isWord {c : Char} (h : Unicode.isWord c = false) (cs : List Char) :
    callAt? (c :: cs) = none := by
  simp [callAt?, h]

theorem afterBlanks_suffix (cs : List Char) : afterBlanks cs <:+ cs := List.dropWhile_suffix _

theorem suffix_of_cutAt {sep : Char} {cs before after : List Char}
    (h : Text.cutAt sep cs = some (before, after)) : after <:+ cs :=
  ⟨before ++ [sep], by rw [Text.eq_append_of_cutAt h]; simp⟩

theorem suffix_of_readArgs (cs : List Char) {args : List (List Char)} {rest : List Char}
    (h : readArgs cs = some (args, rest)) : rest <:+ cs := by
  rw [readArgs] at h
  split at h
  · next body hb =>
    split at h
    · cases h
    · next arg tail hc =>
      have hs : tail <:+ cs :=
        ((suffix_of_cutAt hc).trans (hb ▸ List.suffix_cons _ _)).trans (afterBlanks_suffix cs)
      have htail := afterBlanks_suffix tail
      split at h
      · next ds hr =>
        cases h
        rw [hr] at htail
        exact ((List.suffix_cons _ _).trans htail).trans hs
      · next ds hr =>
        obtain ⟨⟨args', rest'⟩, ha, he⟩ := Option.map_eq_some_iff.1 h
        cases he
        rw [hr] at htail
        exact (((suffix_of_readArgs ds ha).trans (List.suffix_cons _ _)).trans htail).trans hs
      · cases h
  · cases h
termination_by cs.length
decreasing_by grind [length_afterBlanks_le, → Text.length_lt_of_cutAt]

/-- What is read as a call, and the text after it. -/
theorem callAt?_eq_some {cs rest : List Char} {site : CallSite}
    (h : callAt? cs = some (site, rest)) :
    site.name = cs.takeWhile Unicode.isWord ∧ site.name ≠ [] ∧
      ∃ tail, cs.dropWhile Unicode.isWord = '(' :: tail ∧ readArgs tail = some (site.args, rest) := by
  unfold callAt? at h
  split at h
  · cases h
  · next tail hd hne =>
    obtain ⟨⟨args, rest'⟩, hr, he⟩ := Option.map_eq_some_iff.1 h
    cases he
    exact ⟨rfl, hne, tail, hd, hr⟩
  · cases h

theorem suffix_of_callAt? {cs rest : List Char} {site : CallSite}
    (h : callAt? cs = some (site, rest)) : rest <:+ cs := by
  obtain ⟨-, -, tail, hd, hr⟩ := callAt?_eq_some h
  have hs : cs.dropWhile Unicode.isWord <:+ cs := List.dropWhile_suffix _
  rw [hd] at hs
  exact ((suffix_of_readArgs tail hr).trans (List.suffix_cons _ _)).trans hs

/-- A text is cut into its characters and some calls that are read at their places. -/
inductive Cut : List Char → List Fragment → Prop
  | nil : Cut [] []
  | other (c : Char) {cs : List Char} {pieces : List Fragment} :
    Cut cs pieces → Cut (c :: cs) (.other c :: pieces)
  | call {cs source rest : List Char} {site : CallSite} {pieces : List Fragment} :
    callAt? cs = some (site, rest) → cs = source ++ rest → Cut rest pieces →
      Cut cs (.call site source :: pieces)

theorem cut_fragments (cs : List Char) : Cut cs (fragments cs) := by
  match cs with
  | [] => rw [fragments_nil]; exact .nil
  | c :: tail =>
    cases h : callAt? (c :: tail) with
    | none =>
      rw [fragments_other h]
      exact .other c (cut_fragments tail)
    | some found =>
      obtain ⟨site, rest⟩ := found
      have hlt := length_lt_of_callAt? h
      obtain ⟨source, hs⟩ := suffix_of_callAt? h
      have hf := fragments_of_callAt? (hs ▸ h)
      rw [hs] at hf
      rw [hf]
      exact .call h hs.symm (cut_fragments rest)
termination_by cs.length
decreasing_by
  · exact Nat.lt_succ_self _
  · exact hlt

/-- The pieces of a text make up the text. -/
theorem Cut.flatMap_source {cs : List Char} {pieces : List Fragment} (h : Cut cs pieces) :
    pieces.flatMap Fragment.source = cs := by
  induction h with
  | nil => rfl
  | other c _ ih => exact congrArg (c :: ·) ih
  | call _ hs _ ih => rw [List.flatMap_cons, ih, hs, Fragment.source]

theorem flatMap_source_fragments (cs : List Char) :
    (fragments cs).flatMap Fragment.source = cs := (cut_fragments cs).flatMap_source

theorem Cut.map_other (used : List Char) {cs : List Char} {pieces : List Fragment}
    (h : Cut cs pieces) : Cut (used ++ cs) (used.map .other ++ pieces) := by
  induction used with
  | nil => exact h
  | cons c used ih => exact .other c ih

/-! ### Where calls are found -/

/-- The places of the calls among the last pieces of a text of `total` bytes. -/
def siteOffsets (total : Nat) : List Fragment → List Nat
  | [] => []
  | .other _ :: pieces => siteOffsets total pieces
  | .call site source :: pieces =>
    (total - utf8Length ((Fragment.call site source :: pieces).flatMap Fragment.source)) ::
      siteOffsets total pieces

/-- Whether a call is found at a place in the text of a rule. -/
def foundIn (rule : String) (offset : Nat) : Bool :=
  (siteOffsets (utf8Length rule.toList) (fragments rule.toList)).contains offset

theorem Cut.siteOffsets_call {cs source : List Char} {site : CallSite} {pieces : List Fragment}
    (h : Cut cs (.call site source :: pieces)) (total : Nat) :
    siteOffsets total (.call site source :: pieces) =
      (total - utf8Length cs) :: siteOffsets total pieces := by
  rw [siteOffsets, h.flatMap_source]

theorem siteOffsets_call {c : Char} {tail rest : List Char} {site : CallSite}
    (h : callAt? (c :: tail) = some (site, rest)) (total : Nat) :
    siteOffsets total (fragments (c :: tail)) =
      (total - utf8Length (c :: tail)) :: siteOffsets total (fragments rest) := by
  have hcut := cut_fragments (c :: tail)
  rw [fragments_call h] at hcut ⊢
  exact hcut.siteOffsets_call total

theorem utf8Length_pos (c : Char) (cs : List Char) : 0 < utf8Length (c :: cs) :=
  Nat.add_pos_left (Char.utf8Size_pos c) _

theorem utf8Length_le_of_suffix {cs ds : List Char} (h : ds <:+ cs) :
    utf8Length ds ≤ utf8Length cs := by
  obtain ⟨used, rfl⟩ := h
  rw [Text.utf8Length_append]
  exact Nat.le_add_left _ _

theorem Cut.le_of_mem_siteOffsets {total n : Nat} {cs : List Char} {pieces : List Fragment}
    (h : Cut cs pieces) (hn : n ∈ siteOffsets total pieces) : total - utf8Length cs ≤ n := by
  induction h with
  | nil => cases hn
  | other c _ ih =>
    have := ih hn
    rw [utf8Length]
    omega
  | call hc hs hrest ih =>
    rw [(Cut.call hc hs hrest).siteOffsets_call, List.mem_cons] at hn
    rcases hn with rfl | hn
    · exact Nat.le_refl _
    · have := ih hn
      have := utf8Length_le_of_suffix (suffix_of_callAt? hc)
      omega

theorem le_of_mem_tokens {total : Nat} : ∀ {cs : List Char} {tokens : List Located},
    tokensFrom total cs = .ok tokens → ∀ t ∈ tokens, total - utf8Length cs ≤ t.offset
  | cs, [], _ => by simp
  | cs, t :: tokens, h => by
    intro t' ht'
    obtain ⟨blanks, c, tail, rest, rfl, -, hc, ho, hr⟩ := exists_tokenAt_of_tokensFrom h
    have hb : utf8Length (c :: tail) ≤ utf8Length (blanks ++ c :: tail) :=
      utf8Length_le_of_suffix (List.suffix_append _ _)
    rcases List.mem_cons.1 ht' with rfl | ht'
    · omega
    · obtain ⟨text, rfl, -⟩ := exists_text_of_tokenAt hc
      have := le_of_mem_tokens hr t' ht'
      have : utf8Length rest ≤ utf8Length (c :: (text ++ rest)) :=
        utf8Length_le_of_suffix ((List.suffix_append _ _).trans (List.suffix_cons _ _))
      omega

/-- A stretch of text at whose places no call is found is cut into its characters. -/
theorem Cut.of_append {total : Nat} : ∀ {used ds : List Char} {pieces : List Fragment},
    Cut (used ++ ds) pieces → utf8Length (used ++ ds) ≤ total →
    (∀ n < total - utf8Length ds, n ∉ siteOffsets total pieces) →
    ∃ rest, pieces = used.map .other ++ rest ∧ Cut ds rest
  | [], _, pieces, hcut, _, _ => ⟨pieces, rfl, hcut⟩
  | u :: used, ds, _, hcut, hle, h => by
    have hd : utf8Length ds ≤ utf8Length (used ++ ds) :=
      utf8Length_le_of_suffix (List.suffix_append _ _)
    have hu := Char.utf8Size_pos u
    rw [List.cons_append, utf8Length] at hle
    cases hcut with
    | call hc hs hrest =>
      rw [(Cut.call hc hs hrest).siteOffsets_call, List.cons_append, utf8Length] at h
      exact absurd (List.mem_cons_self ..) (h _ (by omega))
    | other _ htail =>
      obtain ⟨rest, rfl, hrest⟩ := htail.of_append (by omega) h
      exact ⟨rest, rfl, hrest⟩

theorem siteOffsets_map_other (total : Nat) (cs : List Char) (pieces : List Fragment) :
    siteOffsets total (cs.map .other ++ pieces) = siteOffsets total pieces := by
  induction cs with
  | nil => rfl
  | cons c cs ih => exact ih

theorem mem_siteOffsets_append (total : Nat) (site : CallSite) (source : List Char)
    (pre post : List Fragment) :
    total - utf8Length (source ++ post.flatMap Fragment.source) ∈
      siteOffsets total (pre ++ .call site source :: post) := by
  induction pre with
  | nil => exact List.mem_cons_self
  | cons piece pre ih =>
    cases piece with
    | other c => exact ih
    | call => exact List.mem_cons_of_mem _ ih

/-- The place of a call is the length of the text before it. -/
theorem offset_of_fragments {rule : String} {pre post : List Fragment} {site : CallSite}
    {source : List Char} (h : fragments rule.toList = pre ++ .call site source :: post) :
    utf8Length rule.toList - utf8Length (source ++ post.flatMap Fragment.source) =
      utf8Length (pre.flatMap Fragment.source) := by
  have hs := flatMap_source_fragments rule.toList
  rw [h, List.flatMap_append, List.flatMap_cons] at hs
  rw [← hs, Text.utf8Length_append, Fragment.source, Nat.add_sub_cancel]

theorem foundIn_of_fragments {rule : String} {pre post : List Fragment} {site : CallSite}
    {source : List Char} (h : fragments rule.toList = pre ++ .call site source :: post) :
    foundIn rule (utf8Length (pre.flatMap Fragment.source)) = true := by
  rw [foundIn, List.contains_iff_mem, ← offset_of_fragments h, h]
  exact mem_siteOffsets_append ..

/-! ### Fewer calls -/

/-- The pieces of a text in which the calls at the places `keep` are left and the others are cut into
their characters. -/
def keepCalls (keep : Nat → Bool) (total : Nat) : List Fragment → List Fragment
  | [] => []
  | .other c :: pieces => .other c :: keepCalls keep total pieces
  | .call site source :: pieces =>
    if keep (total - utf8Length (source ++ pieces.flatMap Fragment.source)) then
      .call site source :: keepCalls keep total pieces
    else source.map .other ++ keepCalls keep total pieces

theorem Cut.keepCalls (keep : Nat → Bool) (total : Nat) {cs : List Char} {pieces : List Fragment}
    (h : Cut cs pieces) : Cut cs (keepCalls keep total pieces) := by
  induction h with
  | nil => exact .nil
  | other c _ ih => exact .other c ih
  | call hc hs _ ih =>
    rw [Rule.keepCalls]
    split
    · exact .call hc hs ih
    · rw [hs]
      exact ih.map_other _

theorem siteOffsets_keepCalls (keep : Nat → Bool) (total : Nat) {cs : List Char}
    {pieces : List Fragment} (h : Cut cs pieces) :
    siteOffsets total (keepCalls keep total pieces) = (siteOffsets total pieces).filter keep := by
  induction h with
  | nil => rfl
  | other c _ ih => exact ih
  | call hc hs hrest ih =>
    rw [keepCalls, (Cut.call hc hs hrest).siteOffsets_call, List.filter_cons, ← ih,
      hrest.flatMap_source, ← hs]
    split
    · exact (Cut.call hc hs (hrest.keepCalls keep total)).siteOffsets_call total
    · exact siteOffsets_map_other ..

/-! ### The text of a call that is found -/

theorem strings_of_tokens : ∀ {located : List Located} {args : List String}, args ≠ [] →
    located.map Located.token = argumentTokens args → ∀ (rest : List Located),
    Strings (located ++ rest) args rest
  | _, [], h, _, _ => absurd rfl h
  | located, [value], _, ht, rest => by
    obtain ⟨o, tail, rfl, h1⟩ :=
      @eq_cons_of_map_token located [⟨0, .closeParen⟩] ⟨0, .text value⟩ ht
    obtain ⟨q, tail', rfl, h2⟩ := eq_cons_of_map_token h1
    rw [List.map_eq_nil_iff.1 h2]
    exact .last o q value rest
  | [], value :: value' :: values, _, ht, _ => by cases ht
  | [_], value :: value' :: values, _, ht, _ => by
    rw [argumentTokens, List.map_cons, List.cons.injEq] at ht
    cases ht.2
  | ⟨o, token⟩ :: ⟨q, token'⟩ :: tail, value :: value' :: values, _, ht, rest => by
    rw [argumentTokens, List.map_cons, List.map_cons, List.cons.injEq, List.cons.injEq] at ht
    obtain ⟨rfl, rfl, ht⟩ := ht
    exact .more o q value (strings_of_tokens (List.cons_ne_nil _ _) ht rest)

theorem identifier_notMem_argumentTokens (name : String) : ∀ (args : List String),
    Token.identifier name ∉ .openParen :: argumentTokens args
  | [] => by simp [argumentTokens]
  | [value] => by simp [argumentTokens]
  | value :: value' :: values => by
    have ih := identifier_notMem_argumentTokens name (value' :: values)
    simp only [List.mem_cons, reduceCtorEq, false_or] at ih
    simp [argumentTokens, ih]

theorem arguments_of_tokens {located : List Located} {args : List String}
    (h : located.map Located.token = .openParen :: argumentTokens args) (rest : List Located) :
    Arguments (located ++ rest) args rest := by
  cases located with
  | nil => cases h
  | cons t tail =>
    obtain ⟨o, token⟩ := t
    rw [List.map_cons, List.cons.injEq] at h
    obtain ⟨rfl, h⟩ := h
    cases args with
    | nil =>
      obtain ⟨q, tail', rfl, h2⟩ := @eq_cons_of_map_token tail [] ⟨0, .closeParen⟩ h
      rw [List.map_eq_nil_iff.1 h2]
      exact .none o q rest
    | cons value values => exact .some o (strings_of_tokens (List.cons_ne_nil _ _) h rest)

theorem afterBlanks_spells (cs : List Char) :
    ∃ blanks, cs = blanks ++ afterBlanks cs ∧ Spells blanks [] :=
  ⟨cs.takeWhile Unicode.isWhiteSpace, List.takeWhile_append_dropWhile.symm,
    .blanks (List.all_eq_true.1 List.all_takeWhile)⟩

theorem spells_string {arg : List Char} (h : '\x60' ∉ arg) :
    Spells ('\x60' :: (arg ++ ['\x60'])) [.text (String.ofList arg)] := by
  refine spells_of_tokenAt fun tail => ?_
  rw [List.append_assoc, List.singleton_append, tokenAt_backtick (Text.cutAt_append h tail)]

theorem spells_of_readArgs (cs : List Char) {args : List (List Char)} {ds : List Char}
    (h : readArgs cs = some (args, ds)) :
    args ≠ [] ∧ (∀ arg ∈ args, '\x60' ∉ arg) ∧
      ∃ text, cs = text ++ ds ∧ Spells text (argumentTokens (args.map String.ofList)) := by
  rw [readArgs] at h
  split at h
  · next body hb =>
    obtain ⟨blanks, hcs, hs⟩ := afterBlanks_spells cs
    split at h
    · cases h
    · next arg tail hc =>
      have harg := Text.notMem_of_cutAt hc
      obtain ⟨blanks', htail, hs'⟩ := afterBlanks_spells tail
      have hbefore := hs.append ((spells_string harg).append hs')
      rw [hb, Text.eq_append_of_cutAt hc, htail] at hcs
      split at h
      · next rest hr =>
        cases h
        refine ⟨List.cons_ne_nil _ _, by simpa using harg, _, ?_, hbefore.append spells_closeParen⟩
        rw [hcs, hr]
        simp
      · next rest hr =>
        obtain ⟨⟨args', rest'⟩, ha, he⟩ := Option.map_eq_some_iff.1 h
        cases he
        obtain ⟨hne, hargs, text, rfl, ht⟩ := spells_of_readArgs rest ha
        obtain ⟨value, values, rfl⟩ := List.exists_cons_of_ne_nil hne
        have hcomma : Spells [','] [.comma] := spells_of_tokenAt tokenAt_comma
        refine ⟨List.cons_ne_nil _ _, ?_, _, ?_, hbefore.append (hcomma.append ht)⟩
        · intro arg' ha'
          rcases List.mem_cons.1 ha' with rfl | ha'
          · exact harg
          · exact hargs arg' ha'
        · rw [hcs, hr]
          simp
      · cases h
  · cases h
termination_by cs.length
decreasing_by grind [length_afterBlanks_le, → Text.length_lt_of_cutAt]

theorem isNamePart_of_beginsName {c : Char} (h : beginsName c = true) : isNamePart c = true := by
  simp only [beginsName, isNameStart, Bool.and_eq_true, Bool.or_eq_true] at h
  unfold isNamePart
  rcases h.1.1 with h | h <;> simp [h]

theorem beginsInName_of_isName {name : List Char} (h : isName (String.ofList name) = true)
    (tail : List Char) : beginsInName (name ++ tail) = true := by
  rw [isName, String.toList_ofList] at h
  cases name with
  | nil => cases h
  | cons c cs => exact isNamePart_of_beginsName (Bool.and_eq_true_iff.1 h).1

/-- In a text that is read as tokens, a run of word characters can be a name. -/
theorem isName_of_isWord {total : Nat} {c : Char} {cs : List Char} {tokens : List Located}
    (ht : tokensFrom total (c :: cs) = .ok tokens) (hc : Unicode.isWord c = true) :
    isName (String.ofList (c :: cs.takeWhile Unicode.isWord)) = true := by
  cases hat : tokenAt c cs with
  | error fault => rw [tokensFrom_error hat] at ht; cases ht
  | ok read =>
    obtain ⟨t, after⟩ := read
    have hb := beginsName_of_isWord hc hat
    rw [tokensFrom_token (tokenAt_name hb cs)] at ht
    have hparts : ∀ d ∈ cs.takeWhile Unicode.isWord, isNamePart d = true := by
      have hnames : ∀ d ∈ cs.takeWhile isNamePart, isNamePart d = true :=
        List.all_eq_true.1 List.all_takeWhile
      have hrest := beginsInName_dropWhile cs
      have hcs := List.takeWhile_append_dropWhile (p := isNamePart) (l := cs)
      intro d hd
      cases hr : cs.dropWhile isNamePart with
      | nil =>
        rw [hr, List.append_nil] at hcs
        rw [hcs] at hnames
        exact hnames d ((List.takeWhile_prefix _).subset hd)
      | cons e rest =>
        -- The name ends before `e`, which is no word character: else it would begin a name.
        rw [hr] at hrest ht hcs
        have he : Unicode.isWord e = false := by
          rw [← Bool.not_eq_true]
          intro hw
          cases hat : tokenAt e rest with
          | error fault => rw [tokensFrom_error hat] at ht; cases ht
          | ok read =>
            obtain ⟨t, after⟩ := read
            have hb := beginsName_of_isWord hw hat
            rw [beginsInName, List.head?_cons, Option.any_some, isNamePart_of_beginsName hb] at hrest
            cases hrest
        rw [← hcs, List.takeWhile_append] at hd
        split at hd
        · rw [List.takeWhile_cons_of_neg (by simp [he]), List.append_nil] at hd
          exact hnames d hd
        · exact hnames d ((List.takeWhile_prefix _).subset hd)
    rw [isName, String.toList_ofList]
    show (beginsName c && (cs.takeWhile Unicode.isWord).all isNamePart) = true
    rw [hb, Bool.true_and, List.all_eq_true]
    exact hparts

/-- A call that is found at a place, as the call of an expression. -/
def CallSite.call (site : CallSite) (offset : Nat) : Call :=
  ⟨String.ofList site.name, site.args.map String.ofList, offset⟩

/-- The text of a call that is found is read as the call, whatever follows it. -/
theorem spells_of_callAt? {total : Nat} {cs ds : List Char} {site : CallSite}
    {tokens : List Located} (h : callAt? cs = some (site, ds))
    (ht : tokensFrom total cs = .ok tokens) (offset : Nat) :
    (site.call offset).Plain ∧ ∃ source, cs = source ++ ds ∧ beginsInName source = true ∧
      Spells source (site.call offset).tokens := by
  obtain ⟨hname, hne, tail, hd, hr⟩ := callAt?_eq_some h
  obtain ⟨-, hargs, text, rfl, hs⟩ := spells_of_readArgs tail hr
  have hn : isName (String.ofList site.name) = true := by
    cases cs with
    | nil => rw [hname] at hne; exact absurd rfl hne
    | cons c cs =>
      by_cases hc : Unicode.isWord c = true
      · rw [hname, List.takeWhile_cons_of_pos hc]
        exact isName_of_isWord ht hc
      · rw [hname, List.takeWhile_cons_of_neg hc] at hne
        exact absurd rfl hne
  refine ⟨⟨hn, by simpa [CallSite.call] using hargs⟩, site.name ++ '(' :: text, ?_,
    beginsInName_of_isName hn _, ?_⟩
  · rw [List.append_assoc, List.cons_append, ← hd, hname, List.takeWhile_append_dropWhile]
  · have hs' := (spells_name hn).append hs
    rwa [String.toList_append, String.toList_ofList, List.append_assoc] at hs'

/-! ### Between two tokens -/

variable {found : Nat → Bool} {total : Nat} {cs : List Char} {pieces : List Fragment} {t : Located}
  {tokens : List Located}

/-- The rest `cs` of a rule that is cut into `pieces` and read as `tokens`: the calls among the pieces are
where `found` says, and only at the names of matchers. -/
structure Scanned (found : Nat → Bool) (total : Nat) (cs : List Char) (pieces : List Fragment)
    (tokens : List Located) : Prop where
  bound : utf8Length cs ≤ total
  cut : Cut cs pieces
  read : tokensFrom total cs = .ok tokens
  found_iff : ∀ n, total - utf8Length cs ≤ n → (found n = true ↔ n ∈ siteOffsets total pieces)
  named : ∀ n ∈ siteOffsets total pieces, ∃ name, ⟨n, .identifier name⟩ ∈ tokens

theorem Scanned.nil (h : Scanned found total cs pieces []) :
    pieces = cs.map .other ∧ ∀ c ∈ cs, Unicode.isWhiteSpace c = true := by
  refine ⟨?_, isWhiteSpace_of_tokensFrom_nil h.read⟩
  have hcut : Cut (cs ++ []) pieces := by simpa using h.cut
  obtain ⟨rest, rfl, hrest⟩ := hcut.of_append (by simpa using h.bound) fun n _ hn => by
    obtain ⟨name, hm⟩ := h.named n hn
    cases hm
  cases hrest with
  | nil => rw [List.append_nil]
  | call hc => cases hc

/-- The search goes on after a stretch of text in which no call is found. -/
theorem Scanned.skip {used ds : List Char} {rest : List Located}
    (h : Scanned found total (used ++ ds) pieces tokens) (hr : tokensFrom total ds = .ok rest)
    (hn : ∀ n < total - utf8Length ds, ∀ name, ⟨n, .identifier name⟩ ∈ tokens → found n = false)
    (hrest : ∀ n, total - utf8Length ds ≤ n → ∀ name, ⟨n, .identifier name⟩ ∈ tokens →
      (⟨n, .identifier name⟩ : Located) ∈ rest) :
    ∃ pieces', pieces = used.map .other ++ pieces' ∧ Scanned found total ds pieces' rest := by
  have hle : utf8Length ds ≤ utf8Length (used ++ ds) :=
    utf8Length_le_of_suffix (List.suffix_append _ _)
  obtain ⟨pieces', rfl, hcut⟩ := h.cut.of_append h.bound fun n hlt hm => by
    obtain ⟨name, ht⟩ := h.named n hm
    have hfn := (h.found_iff n (h.cut.le_of_mem_siteOffsets hm)).2 hm
    rw [hn n hlt name ht] at hfn
    cases hfn
  have hs := siteOffsets_map_other total used pieces'
  refine ⟨pieces', rfl, Nat.le_trans hle h.bound, hcut, hr, fun n hge => ?_, fun n hm => ?_⟩
  · rw [h.found_iff n (by omega), hs]
  · obtain ⟨name, ht⟩ := h.named n (by rw [hs]; exact hm)
    exact ⟨name, hrest n (hcut.le_of_mem_siteOffsets hm) name ht⟩

/-- The search goes past a token at which no call is found. -/
theorem Scanned.copy (h : Scanned found total cs pieces (t :: tokens))
    (hn : found t.offset = false) :
    ∃ (blanks : List Char) (c : Char) (text ds : List Char) (pieces' : List Fragment),
      cs = (blanks ++ c :: text) ++ ds ∧
      (∀ b ∈ blanks, Unicode.isWhiteSpace b = true) ∧
      tokenAt c (text ++ ds) = .ok (some t.token, ds) ∧
      pieces = (blanks ++ c :: text).map .other ++ pieces' ∧
      Scanned found total ds pieces' tokens := by
  obtain ⟨blanks, c, tail, ds, hcs, hb, ht, ho, hr⟩ := exists_tokenAt_of_tokensFrom h.read
  obtain ⟨text, rfl, -⟩ := exists_text_of_tokenAt ht
  have hcs : cs = (blanks ++ c :: text) ++ ds := by rw [hcs]; simp
  subst hcs
  have hbound := h.bound
  have hlt : t.offset < total - utf8Length ds := by
    have := Char.utf8Size_pos c
    simp only [Text.utf8Length_append, utf8Length] at ho hbound
    omega
  obtain ⟨pieces', hf, hs⟩ := h.skip hr
    (by
      intro n hn' name hm
      rcases List.mem_cons.1 hm with he | hm
      · rw [← he] at hn
        exact hn
      · have := le_of_mem_tokens hr _ hm
        dsimp only at this
        omega)
    (by
      intro n hge name hm
      rcases List.mem_cons.1 hm with he | hm
      · rw [← he] at hlt
        dsimp only at hlt
        omega
      · exact hm)
  exact ⟨blanks, c, text, ds, pieces', rfl, hb, ht, hf, hs⟩

/-- The search goes past blanks. -/
theorem Scanned.past_blanks {blanks : List Char} {c : Char} {tail : List Char}
    (h : Scanned found total (blanks ++ c :: tail) pieces tokens)
    (hb : ∀ b ∈ blanks, Unicode.isWhiteSpace b = true) :
    ∃ pieces', pieces = blanks.map .other ++ pieces' ∧
      Scanned found total (c :: tail) pieces' tokens := by
  have hread : tokensFrom total (c :: tail) = .ok tokens := by
    obtain ⟨located, hl, hs⟩ := Spells.blanks hb total (c :: tail)
    rw [List.map_eq_nil_iff.1 hl] at hs
    have hread := h.read
    rw [hs] at hread
    cases htf : tokensFrom total (c :: tail) with
    | error refusal => rw [htf] at hread; cases hread
    | ok tokens' => rw [htf] at hread; exact hread
  refine h.skip hread (fun n hlt name hm => ?_) (fun _ _ _ hm => hm)
  have hle := le_of_mem_tokens hread _ hm
  dsimp only at hle
  omega

/-- After a call the search goes on: none of its arguments is a name. -/
theorem Scanned.after_call {site : CallSite} {source ds : List Char} {located rest : List Located}
    {args : List String}
    (h : Scanned found total cs (.call site source :: pieces) (t :: (located ++ rest)))
    (hcut : Cut ds pieces) (hr : tokensFrom total ds = .ok rest) (ho : t.offset = total - utf8Length cs)
    (hlt : t.offset < total - utf8Length ds)
    (hl : located.map Located.token = .openParen :: argumentTokens args) :
    Scanned found total ds pieces rest := by
  have hbound := h.bound
  have hsites := h.cut.siteOffsets_call total
  refine ⟨by omega, hcut, hr, fun n hge => ?_, fun n hm => ?_⟩
  · rw [h.found_iff n (by omega), hsites, List.mem_cons]
    exact or_iff_right (by omega)
  · have hge := hcut.le_of_mem_siteOffsets hm
    obtain ⟨name, hin⟩ := h.named n (by
      rw [hsites]
      exact List.mem_cons_of_mem _ hm)
    refine ⟨name, ?_⟩
    rcases List.mem_cons.1 hin with he | hin
    · rw [← he] at hlt
      dsimp only at hlt
      omega
    · rcases List.mem_append.1 hin with hin | hin
      · have hmem := List.mem_map_of_mem (f := Located.token) hin
        rw [hl] at hmem
        exact absurd hmem (identifier_notMem_argumentTokens name _)
      · exact hin

/-- The search takes a call that begins at a token as a whole. -/
theorem Scanned.call (h : Scanned found total cs pieces (t :: tokens))
    (hfound : found t.offset = true) :
    ∃ (blanks : List Char) (site : CallSite) (source ds : List Char) (pieces' : List Fragment)
      (rest : List Located),
      pieces = blanks.map .other ++ .call site source :: pieces' ∧
      (∀ b ∈ blanks, Unicode.isWhiteSpace b = true) ∧
      t.token = .identifier (site.call t.offset).name ∧
      Arguments tokens (site.call t.offset).args rest ∧
      (site.call t.offset).Plain ∧ beginsInName source = true ∧
      Spells source (site.call t.offset).tokens ∧
      Scanned found total ds pieces' rest := by
  obtain ⟨blanks, c, tail, rest, rfl, hb, hat, ho, hr⟩ := exists_tokenAt_of_tokensFrom h.read
  obtain ⟨pieces', hf, hs⟩ := h.past_blanks hb
  have hsite := (hs.found_iff t.offset (by omega)).1 hfound
  have hbound := hs.bound
  cases hs.cut with
  | other _ htail =>
    have hle := htail.le_of_mem_siteOffsets hsite
    have hpos := Char.utf8Size_pos c
    rw [utf8Length] at hbound ho
    omega
  | @call _ source ds site pieces' hc hsource hcut =>
    obtain ⟨hplain, source', hsource', hbegins, hspells⟩ := spells_of_callAt? hc hs.read t.offset
    obtain rfl := List.append_cancel_right (hsource.symm.trans hsource')
    obtain ⟨located, hl, hd⟩ := hspells total ds
    rw [← hsource, hs.read] at hd
    cases hds : tokensFrom total ds with
    | error refusal => rw [hds] at hd; cases hd
    | ok rest =>
      rw [hds] at hd
      cases located with
      | nil => cases hl
      | cons t' located =>
        simp only [Except.map, Except.ok.injEq, List.cons_append, List.cons.injEq] at hd
        obtain ⟨rfl, rfl⟩ := hd
        rw [Call.tokens, List.map_cons, List.cons.injEq] at hl
        have hlt : t.offset < total - utf8Length ds := by
          have hlen := length_lt_of_callAt? hc
          cases source with
          | nil => simp [hsource] at hlen
          | cons d source =>
            have hpos := utf8Length_pos d source
            rw [hsource, Text.utf8Length_append] at ho hbound
            omega
        exact ⟨blanks, site, source, ds, pieces', rest, hf, hb, hl.1,
          arguments_of_tokens hl.2 rest, hplain, hbegins, hspells,
          hs.after_call hcut hds ho hlt hl.2⟩

/-- A rule is scanned from its beginning, whatever calls at names are kept. -/
theorem scanned_rule {rule : String} (keep : Nat → Bool) (ht : tokenize rule = .ok tokens)
    (hn : ∀ n, foundIn rule n = true → keep n = true → ∃ name, ⟨n, .identifier name⟩ ∈ tokens) :
    Scanned (fun n => foundIn rule n && keep n) (utf8Length rule.toList) rule.toList
      (keepCalls keep (utf8Length rule.toList) (fragments rule.toList)) tokens where
  bound := Nat.le_refl _
  cut := (cut_fragments _).keepCalls ..
  read := ht
  found_iff n _ := by
    rw [siteOffsets_keepCalls _ _ (cut_fragments _), List.mem_filter, Bool.and_eq_true, foundIn,
      List.contains_iff_mem]
  named n hm := by
    rw [siteOffsets_keepCalls _ _ (cut_fragments _), List.mem_filter] at hm
    exact hn n (by rw [foundIn, List.contains_iff_mem]; exact hm.1) hm.2

end TraefikUpgrade.Rule
