/-
# The reader of sets

A set in brackets is taken from the front of a pattern, whatever comes after it (`readSet_local`). The
members are read one by one: a hyphen behind which nothing counts leads beyond the text
(`length_le_of_readMembers_hyphen`), and in a text that is a part of a name no bracket closes the set
(`readMembers_of_nameChars`).

Key theorems: `readMembers_local`, `readSet_local`.
-/
import TraefikUpgrade.Proofs.Regex.Members

namespace TraefikUpgrade.Regex

variable {mode : Mode} {cs rest after left : List Char} {set : CharSet}

/-! ### One member at a time -/

/-- The operator that two of a character are. -/
def operator? (c : Char) : Option SetOperator :=
  match c with
  | '&' => some .intersection
  | '-' => some .difference
  | '~' => some .symmetricDifference
  | _ => none

variable {outer : List OpenSet} {top : OpenSet}

theorem readMembers_bracket (h : mode.skip cs = '[' :: rest) : readMembers mode outer top cs =
    match readNamed rest with
    | some (.complement set, rest') =>
      if mode.unicode then readMembers mode outer (top.add (.complement set)) rest' else none
    | some (set, rest') => readMembers mode outer (top.add set) rest'
    | none => readMembers mode (top :: outer) (openSet mode rest).1 (openSet mode rest).2 := by
  rw [readMembers.eq_def]
  split
  case h_2 he =>
    rw [h] at he
    cases he
    split
    · next hn => rw [hn]
    · next hne hn =>
      rw [hn]
      split
      · next he => cases he; exact absurd rfl (hne _)
      · next he => cases he; rfl
      · next he => cases he
    · next hn => rw [hn]
  case h_7 ho _ _ _ _ he =>
    rw [h] at he
    cases he
    exact absurd rfl ho
  all_goals
    next he =>
      rw [h] at he
      cases he

/-- Whether a set can be used. Without Unicode one that reaches beyond ASCII cannot. -/
def CharSet.isAllowed (mode : Mode) : CharSet → Bool
  | .complement _ => mode.unicode
  | _ => true

theorem readMembers_named {mid : List Char} (h : mode.skip cs = '[' :: rest)
    (hn : readNamed rest = some (set, mid)) : readMembers mode outer top cs =
      if set.isAllowed mode then readMembers mode outer (top.add set) mid else none := by
  rw [readMembers_bracket h, hn]
  cases set <;> rfl

theorem readMembers_nested (h : mode.skip cs = '[' :: rest) (hn : readNamed rest = none) :
    readMembers mode outer top cs =
      readMembers mode (top :: outer) (openSet mode rest).1 (openSet mode rest).2 := by
  rw [readMembers_bracket h, hn]

theorem readMembers_close (h : mode.skip cs = ']' :: rest) : readMembers mode outer top cs =
    if top.negated && !mode.unicode then none
    else
      match outer with
      | [] => some (top.close, rest)
      | next :: outer => readMembers mode outer (next.add top.close) rest := by
  rw [readMembers.eq_def]
  split
  case h_3 he =>
    rw [h] at he
    cases he
    rfl
  case h_7 hc _ _ _ he =>
    rw [h] at he
    cases he
    exact absurd rfl hc
  all_goals
    next he =>
      rw [h] at he
      cases he

theorem readMembers_operator {c : Char} {operator : SetOperator} (h : mode.skip cs = c :: c :: rest)
    (hc : operator? c = some operator) :
    readMembers mode outer top cs = readMembers mode outer (top.addOperator operator) rest := by
  rw [readMembers.eq_def]
  split
  case h_4 he | h_5 he | h_6 he =>
    rw [h] at he
    cases he
    cases hc
    rfl
  case h_7 ha hd hs he =>
    rw [h] at he
    cases he
    unfold operator? at hc
    split at hc
    · exact absurd rfl (ha rest rfl)
    · exact absurd rfl (hd rest rfl)
    · exact absurd rfl (hs rest rfl)
    · cases hc
  case h_1 he =>
    rw [h] at he
    cases he
  all_goals
    next he =>
      rw [h] at he
      cases he
      cases hc

theorem readMembers_member {c : Char} (h : mode.skip cs = c :: rest) (ho : c ≠ '[') (hc : c ≠ ']')
    (hr : operator? c ≠ none → rest.head? ≠ some c) : readMembers mode outer top cs =
      (readMember mode (c :: rest)).bind fun p => readMembers mode outer (top.add p.1) p.2 := by
  rw [readMembers.eq_def]
  split
  case h_7 he =>
    rw [h] at he
    cases he
    split
    · next hm => rw [hm]; rfl
    · next hm => rw [hm]; rfl
  case h_1 he =>
    rw [h] at he
    cases he
  case h_2 he =>
    rw [h] at he
    cases he
    exact absurd rfl ho
  case h_3 he =>
    rw [h] at he
    cases he
    exact absurd rfl hc
  all_goals
    next he =>
      rw [h] at he
      cases he
      exact absurd rfl (hr (by decide))

theorem readMembers_skip (mode : Mode) (outer : List OpenSet) (top : OpenSet) (cs : List Char) :
    readMembers mode outer top (mode.skip cs) = readMembers mode outer top cs := by
  rw [readMembers.eq_def, readMembers.eq_def mode outer top cs, mode.skip_skip]

theorem shrinks_readMembers (mode : Mode) (outer : List OpenSet) (top : OpenSet) :
    Shrinks (readMembers mode outer top) :=
  fun _ _ _ h => Nat.le_of_lt (length_lt_of_readMembers h)

/-! A text of name characters closes no set. -/

theorem isNameChar_facts {c : Char} (h : isNameChar c = true) :
    Unicode.isWhiteSpace c = false ∧ c ∉ ['#', '[', ']', '-', '\\'] ∧ operator? c = none := by
  simp only [isNameChar, Bool.or_eq_true, beq_iff_eq] at h
  rcases h with (hl | rfl) | rfl
  · have hrange : 97 ≤ c.toNat ∧ c.toNat ≤ 122 := by
      obtain ⟨hlow, hhigh⟩ := Bool.and_eq_true_iff.1 hl
      exact ⟨of_decide_eq_true hlow, of_decide_eq_true hhigh⟩
    refine ⟨?_, fun hm => ?_, ?_⟩
    · simp [Unicode.isWhiteSpace]
      omega
    · simp only [List.mem_cons, List.not_mem_nil, or_false] at hm
      rcases hm with rfl | rfl | rfl | rfl | rfl <;> exact absurd hrange (by decide)
    · unfold operator?
      split
      · exact absurd hrange (by decide)
      · exact absurd hrange (by decide)
      · exact absurd hrange (by decide)
      · rfl
  · decide
  · decide

theorem skip_of_nameChars (h : ∀ c ∈ cs, isNameChar c = true) : mode.skip cs = cs := by
  cases cs with
  | nil => exact mode.skip_nil
  | cons c cs =>
    obtain ⟨hw, hc, -⟩ := isNameChar_facts (h c (List.mem_cons_self ..))
    simp only [List.mem_cons, not_or] at hc
    exact mode.skip_of_mark hw hc.1 cs

theorem readMembers_of_nameChars : ∀ {cs : List Char} (outer : List OpenSet) (top : OpenSet),
    (∀ c ∈ cs, isNameChar c = true) → readMembers mode outer top cs = none
  | [], outer, top, _ => by
    rw [readMembers.eq_def]
    split
    case h_1 => rfl
    all_goals
      next he =>
        rw [mode.skip_nil] at he
        cases he
  | c :: cs, outer, top, h => by
    obtain ⟨hw, hc, hop⟩ := isNameChar_facts (h c (List.mem_cons_self ..))
    have htail : ∀ d ∈ cs, isNameChar d = true := fun d hd => h d (List.mem_cons_of_mem _ hd)
    simp only [List.mem_cons, not_or] at hc
    rw [readMembers_member (skip_of_nameChars h) hc.2.1 hc.2.2.1 (fun ho => absurd hop ho),
      Option.bind_eq_none_iff]
    rintro ⟨set, rest⟩ hm
    rw [readMember_eq] at hm
    simp only [readAtom, if_neg hc.2.2.2.2.1, Option.bind_some] at hm
    have hrest : rest = cs := by
      cases cs with
      | nil =>
        unfold memberOf at hm
        rw [mode.skip_nil] at hm
        obtain ⟨value, -, he⟩ := Option.map_eq_some_iff.1 hm
        cases he
        rfl
      | cons d cs =>
        have hd := (isNameChar_facts (htail d (List.mem_cons_self ..))).2.1
        simp only [List.mem_cons, not_or] at hd
        rw [memberOf_of_ne (skip_of_nameChars htail) hd.2.2.2.1] at hm
        obtain ⟨value, -, he⟩ := Option.map_eq_some_iff.1 hm
        cases he
        rfl
    rw [hrest]
    exact readMembers_of_nameChars outer (top.add set) htail

theorem openSet_of_nameChars (h : ∀ c ∈ cs, isNameChar c = true) :
    ∀ c ∈ (openSet mode cs).2, isNameChar c = true := by
  have hopen : ∀ (negated : Bool) {ds : List Char}, (∀ c ∈ ds, isNameChar c = true) →
      (openMembers mode negated ds).2 = ds := by
    intro negated ds hds
    rw [openMembers_eq]
    cases ds with
    | nil =>
      rw [readHyphens.eq_def]
      split
      · rfl
      · next he =>
        rw [mode.skip_nil] at he
        cases he
    | cons c ds =>
      have hc := (isNameChar_facts (hds c (List.mem_cons_self ..))).2.1
      simp only [List.mem_cons, not_or] at hc
      rw [readHyphens_of_skip (skip_of_nameChars hds), if_neg hc.2.2.2.1]
      simp [firstBracket, hc]
  unfold openSet
  rw [skip_of_nameChars h]
  split
  · rw [hopen true fun c hc => h c (List.mem_cons_of_mem _ hc)]
    exact fun c hc => h c (List.mem_cons_of_mem _ hc)
  · rw [hopen false h]
    exact h

/-- After a hyphen behind which nothing of the text counts, a set is not closed in the text. -/
theorem length_le_of_readMembers_hyphen {ds : List Char} (hds : mode.skip ds = [])
    (h : readMembers mode outer top ('-' :: (ds ++ after)) = some (set, left)) :
    left.length ≤ after.length := by
  have hskip : ∀ es, mode.skip ('-' :: es) = '-' :: es := mode.skip_of_mark rfl (by decide)
  by_cases hhead : (ds ++ after).head? = some '-'
  · obtain ⟨es, hes⟩ := List.head?_eq_some_iff.1 hhead
    have hnil : ds = [] := by
      cases ds with
      | nil => rfl
      | cons d ds =>
        rw [List.cons_append] at hes
        cases hes
        rw [hskip] at hds
        cases hds
    rw [hes, readMembers_operator (hskip _) rfl] at h
    rw [hnil, List.nil_append] at hes
    have := length_lt_of_readMembers h
    rw [hes, List.length_cons]
    omega
  · rw [readMembers_member (hskip _) (by decide) (by decide) fun _ => hhead] at h
    obtain ⟨⟨member, rest⟩, hm, hr⟩ := Option.bind_eq_some_iff.1 h
    rw [readMember_eq] at hm
    have hle : rest.length ≤ (mode.skip (ds ++ after)).length := length_memberOf_le hm
    have := mode.length_skip_append_le hds after
    have := length_lt_of_readMembers hr
    dsimp only at this
    omega

theorem readMembers_bracket_local (hskip : ∀ ds, mode.skip ('[' :: ds) = '[' :: ds)
    (ih : ∀ (outer : List OpenSet) (top : OpenSet) (ds : List Char), ds.length ≤ rest.length →
      Local (readMembers mode outer top) ds) : Local (readMembers mode outer top) ('[' :: rest) := by
  intro after a left hlt
  rw [List.cons_append]
  cases hn : readNamed rest with
  | some p =>
    obtain ⟨set, mid⟩ := p
    rw [readMembers_named (hskip _) hn, readMembers_named (hskip _) (readNamed_append hn after)]
    split
    · exact ih outer (top.add set) mid (Nat.le_of_lt (length_lt_of_readNamed hn)) hlt
    · simp
  | none =>
    have hnested := @readMembers_nested mode ('[' :: rest) rest outer top (hskip rest) hn
    cases hn' : readNamed (rest ++ after) with
    | none =>
      rw [hnested, readMembers_nested (hskip _) hn']
      refine (openSet_local mode rest).bind (g := readMembers mode (top :: outer))
        (shrinks_readMembers mode (top :: outer)) (fun s mid hmid => ?_) hlt
      have hle := length_openSet_le mode rest
      rw [Option.some.inj hmid] at hle
      exact ih (top :: outer) s mid hle
    | some p =>
      -- Only a text without a closing bracket can be a part of a name.
      obtain ⟨set, mid⟩ := p
      rcases exists_of_readNamed_append hn' with ⟨mid', -, hm⟩ | ⟨hmid, hchars⟩
      · rw [hn] at hm
        cases hm
      · rw [hnested, readMembers_of_nameChars _ _ (openSet_of_nameChars hchars),
          readMembers_named (hskip _) hn']
        constructor
        · intro h
          split at h
          · have := length_lt_of_readMembers h
            omega
          · cases h
        · rintro ⟨_, -, h⟩
          cases h

theorem readMembers_member_local {c : Char} (hskip : ∀ ds, mode.skip (c :: ds) = c :: ds)
    (hopen : c ≠ '[') (hclose : c ≠ ']') (hr : operator? c ≠ none → rest.head? ≠ some c)
    (ih : ∀ (outer : List OpenSet) (top : OpenSet) (ds : List Char), ds.length ≤ rest.length →
      Local (readMembers mode outer top) ds) : Local (readMembers mode outer top) (c :: rest) := by
  cases rest with
  | nil => exact .of_le fun after a left h => Nat.le_of_lt_succ (length_lt_of_readMembers h)
  | cons d rest =>
    have hmember : ∀ ds, readMembers mode outer top (c :: d :: ds) =
        (readMember mode (c :: d :: ds)).bind fun p => readMembers mode outer (top.add p.1) p.2 :=
      fun ds => readMembers_member (hskip _) hopen hclose hr
    intro after a left hlt
    rw [List.cons_append, List.cons_append, hmember, hmember]
    constructor
    · intro h
      obtain ⟨⟨member, mid'⟩, hm, hrest⟩ := Option.bind_eq_some_iff.1 h
      change readMember mode (c :: d :: rest ++ after) = some (member, mid') at hm
      have hlt' := Nat.lt_trans hlt (length_lt_of_readMembers hrest)
      rcases exists_of_readMember_append hm hlt' with ⟨mid, rfl, hmid⟩ | ⟨ds, rfl, hds⟩
      · have hle := Nat.le_of_lt_succ (length_lt_of_readMember hmid)
        obtain ⟨rest', rfl, hrest'⟩ := (ih outer (top.add member) mid hle hlt).1 hrest
        exact ⟨rest', rfl, Option.bind_eq_some_iff.2 ⟨(member, mid), hmid, hrest'⟩⟩
      · have := length_le_of_readMembers_hyphen hds hrest
        omega
    · rintro ⟨rest', rfl, h⟩
      obtain ⟨⟨member, mid⟩, hm, hrest⟩ := Option.bind_eq_some_iff.1 h
      have hmid : mid ≠ [] := by
        rintro rfl
        exact absurd (length_lt_of_readMembers hrest) (Nat.not_lt_zero _)
      have hle := Nat.le_of_lt_succ (length_lt_of_readMember hm)
      exact Option.bind_eq_some_iff.2 ⟨(member, mid ++ after), readMember_append hm hmid,
        (ih outer (top.add member) mid hle hlt).2 ⟨rest', rfl, hrest⟩⟩

theorem readMembers_local (mode : Mode) (outer : List OpenSet) (top : OpenSet) (cs : List Char) :
    Local (readMembers mode outer top) cs := by
  refine .of_skip (readMembers_skip mode outer top) (shrinks_readMembers mode outer top)
    fun c rest hcs => ?_
  have hlen : rest.length < cs.length := by
    have := mode.length_skip_le cs
    rwa [hcs] at this
  have hskip := mode.skip_cons hcs
  have ih : ∀ (outer : List OpenSet) (top : OpenSet) (ds : List Char), ds.length ≤ rest.length →
      Local (readMembers mode outer top) ds :=
    fun outer top ds hds => readMembers_local mode outer top ds
  by_cases hclose : c = ']'
  · subst hclose
    refine .cons (fun ds => readMembers_close (hskip ds)) (.ite (fun _ => .none rest) fun _ => ?_)
    cases outer with
    | nil => exact .pure top.close rest
    | cons next outer => exact ih outer (next.add top.close) rest (Nat.le_refl _)
  by_cases hopen : c = '['
  · subst hopen
    exact readMembers_bracket_local hskip ih
  by_cases hoperator : operator? c ≠ none ∧ rest.head? = some c
  · obtain ⟨ho, hhead⟩ := hoperator
    obtain ⟨operator, ho⟩ := Option.ne_none_iff_exists'.1 ho
    cases rest with
    | nil => cases hhead
    | cons d rest =>
      cases hhead
      exact .cons (k := fun ds => readMembers mode outer top (c :: ds)) (fun _ => rfl)
        (.cons (fun ds => readMembers_operator (hskip _) ho)
          (ih outer (top.addOperator operator) rest (Nat.le_succ _)))
  · exact readMembers_member_local hskip hopen hclose (fun ho hhead => hoperator ⟨ho, hhead⟩) ih
termination_by cs.length

theorem readSet_local (mode : Mode) (cs : List Char) : Local (readSet mode) cs :=
  (openSet_local mode cs).bind (g := readMembers mode []) (shrinks_readMembers mode [])
    fun s mid _ => readMembers_local mode [] s mid

end TraefikUpgrade.Regex
