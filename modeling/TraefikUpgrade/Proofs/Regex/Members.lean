/-
# The readers of the members of a set

What a set begins with is taken from the front of a pattern (`openSet_local`). A member is so but for
one case: a hyphen is left for the next member when nothing behind it counts, and the next member then
goes beyond the text (`exists_of_readMember_append`). A name before `:]` that ends beyond the text has
all of the text in it (`exists_of_readNamed_append`).

Key definitions: `isNameChar`, `memberOf`.
Key theorems: `exists_of_readNamed_append`, `openSet_local`, `readMember_append`,
`exists_of_readMember_append`.
-/
import TraefikUpgrade.Proofs.Regex.Lexemes

namespace TraefikUpgrade.Regex

variable {mode : Mode} {cs rest after left : List Char} {set : CharSet} {atom : Atom}

/-! ### Named sets -/

/-- The characters of a named set between its brackets. -/
def isNameChar (c : Char) : Bool := c.isLower || c == ':' || c == '^'

theorem isNameChar_of_asciiSet {name : List Char} (h : asciiSets.contains (String.ofList name) = true) :
    ∀ c ∈ name, c.isLower = true := by
  have hall : asciiSets.all (fun n => n.toList.all Char.isLower) = true := by decide
  rw [List.contains_iff_mem] at h
  have hname := List.all_eq_true.1 hall _ h
  rw [String.toList_ofList] at hname
  exact List.all_eq_true.1 hname

theorem exists_of_readName? {negated : Bool} (h : readName? negated cs = some (set, rest)) :
    ∃ name, cs = name ++ ':' :: ']' :: rest ∧ (∀ c ∈ name, c.isLower = true) ∧
      ∀ ds, readName? negated (name ++ ':' :: ']' :: ds) = some (set, ds) := by
  unfold readName? at h
  split at h
  · next name rest' hcut =>
    split at h
    · next hn =>
      cases h
      have hlower := isNameChar_of_asciiSet hn
      refine ⟨name, Text.eq_append_of_cutAt hcut, hlower, fun ds => ?_⟩
      rw [readName?, Text.cutAt_append (Text.notMem_of_cutAt hcut)]
      split
      · next he => cases he; exact if_pos hn
      · next hne => exact absurd rfl (hne _ _)
    · cases h
  · cases h

/-- A named set is the text up to its closing bracket, whatever follows. -/
theorem exists_of_readNamed (h : readNamed cs = some (set, rest)) :
    ∃ word, cs = word ++ ']' :: rest ∧ (∀ c ∈ word, isNameChar c = true) ∧
      ∀ ds, readNamed (word ++ ']' :: ds) = some (set, ds) := by
  have hchars : ∀ name : List Char, (∀ c ∈ name, c.isLower = true) →
      ∀ c ∈ name ++ [':'], isNameChar c = true := by
    intro name hname c hc
    rcases List.mem_append.1 hc with hc | hc
    · simp [isNameChar, hname c hc]
    · rw [List.mem_singleton.1 hc]
      rfl
  unfold readNamed at h
  split at h
  · next text =>
    obtain ⟨name, rfl, hname, hread⟩ := exists_of_readName? h
    refine ⟨':' :: '^' :: (name ++ [':']), by simp, ?_, fun ds => ?_⟩
    · simp only [List.mem_cons]
      rintro c (rfl | rfl | hc)
      · rfl
      · rfl
      · exact hchars name hname c hc
    · rw [show ':' :: '^' :: (name ++ [':']) ++ ']' :: ds = ':' :: '^' :: (name ++ ':' :: ']' :: ds)
        by simp]
      exact hread ds
  · next text hne =>
    obtain ⟨name, rfl, hname, hread⟩ := exists_of_readName? h
    refine ⟨':' :: (name ++ [':']), by simp, ?_, fun ds => ?_⟩
    · simp only [List.mem_cons]
      rintro c (rfl | hc)
      · rfl
      · exact hchars name hname c hc
    · rw [show ':' :: (name ++ [':']) ++ ']' :: ds = ':' :: (name ++ ':' :: ']' :: ds) by simp]
      unfold readNamed
      split
      · next he =>
        -- No name begins with the circumflex.
        cases name with
        | nil => cases he
        | cons c name =>
          cases he
          exact absurd (hname _ (List.mem_cons_self ..)) (by decide)
      · next he => cases he; exact hread ds
      · next hn => exact absurd rfl (hn _)
  · cases h

theorem readNamed_append (h : readNamed cs = some (set, rest)) (after : List Char) :
    readNamed (cs ++ after) = some (set, rest ++ after) := by
  obtain ⟨word, rfl, -, hread⟩ := exists_of_readNamed h
  rw [List.append_assoc, List.cons_append]
  exact hread _

/-- A named set of a longer text is one of the text, or the text is a part of the name. -/
theorem exists_of_readNamed_append (h : readNamed (cs ++ after) = some (set, left)) :
    (∃ rest, left = rest ++ after ∧ readNamed cs = some (set, rest)) ∨
      (left.length < after.length ∧ ∀ c ∈ cs, isNameChar c = true) := by
  obtain ⟨word, he, hword, hread⟩ := exists_of_readNamed h
  rw [← List.singleton_append, ← List.append_assoc] at he
  rcases List.append_eq_append_iff.1 he with ⟨more, hm, rfl⟩ | ⟨rest, rfl, rfl⟩
  · rcases List.eq_nil_or_concat more with rfl | ⟨front, c, rfl⟩
    · refine .inl ⟨[], rfl, ?_⟩
      rw [List.append_nil] at hm
      rw [← hm]
      exact hread []
    · rw [List.concat_eq_append] at hm ⊢
      rw [← List.append_assoc] at hm
      have hcs := (List.append_inj' hm rfl).1
      refine .inr ⟨by simp only [List.length_append, List.length_singleton]; omega, fun c hc => ?_⟩
      exact hword c (by rw [hcs]; exact List.mem_append_left _ hc)
  · refine .inl ⟨rest, rfl, ?_⟩
    rw [List.append_assoc]
    exact hread rest

/-! ### The beginning of a set -/

theorem readHyphens_of_skip {s : OpenSet} {c : Char} (h : mode.skip cs = c :: rest) :
    readHyphens mode s cs =
      if c = '-' then readHyphens mode (s.add (single '-')) rest else (s, c :: rest) := by
  rw [readHyphens.eq_def]
  split
  · next he => rw [h] at he; cases he
  · next he => rw [h] at he; cases he; rfl

theorem readHyphens_skip (mode : Mode) (s : OpenSet) (cs : List Char) :
    readHyphens mode s (mode.skip cs) = readHyphens mode s cs := by
  rw [readHyphens.eq_def, readHyphens.eq_def mode s cs, mode.skip_skip]

theorem shrinks_readHyphens (mode : Mode) (s : OpenSet) :
    Shrinks fun cs => some (readHyphens mode s cs) := by
  intro cs a rest h
  have hle := length_readHyphens_le mode s cs
  rwa [Option.some.inj h] at hle

theorem readHyphens_local (mode : Mode) (s : OpenSet) (cs : List Char) :
    Local (fun cs => some (readHyphens mode s cs)) cs := by
  refine .of_skip (fun cs => by rw [readHyphens_skip]) (shrinks_readHyphens mode s) fun c rest hcs => ?_
  have hread := fun ds => readHyphens_of_skip (s := s) (mode.skip_cons hcs ds)
  have hlt : rest.length < cs.length := by
    have := mode.length_skip_le cs
    rwa [hcs] at this
  by_cases hc : c = '-'
  · exact .cons (fun ds => by rw [hread, if_pos hc]) (readHyphens_local mode (s.add (single '-')) rest)
  · exact .congr_cons (k := fun ds => some (s, ds)) (fun ds => by rw [hread, if_neg hc]) (.pure s _)
termination_by cs.length

/-- A closing bracket at the beginning of a set, where it is a member. -/
def firstBracket (s : OpenSet) : List Char → OpenSet × List Char
  | ']' :: rest => if s.members = .empty then (s.add (single ']'), rest) else (s, ']' :: rest)
  | rest => (s, rest)

theorem openMembers_eq (mode : Mode) (negated : Bool) (cs : List Char) : openMembers mode negated cs =
    firstBracket (readHyphens mode { negated } cs).1 (readHyphens mode { negated } cs).2 := by
  unfold openMembers
  rcases readHyphens mode { negated } cs with ⟨s, _ | ⟨c, rest⟩⟩
  · rfl
  · by_cases hc : c = ']'
    · subst hc
      rfl
    · simp [firstBracket, hc]

theorem shrinks_firstBracket (s : OpenSet) : Shrinks fun cs => some (firstBracket s cs) := by
  intro cs a rest h
  rw [show rest = (firstBracket s cs).2 by rw [Option.some.inj h]]
  unfold firstBracket
  split
  · split
    · exact Nat.le_succ _
    · exact Nat.le_refl _
  · exact Nat.le_refl _

theorem firstBracket_local (s : OpenSet) (cs : List Char) :
    Local (fun cs => some (firstBracket s cs)) cs := by
  cases cs with
  | nil => exact .nil (shrinks_firstBracket s)
  | cons c cs =>
    by_cases hc : c = ']'
    · subst hc
      by_cases hs : s.members = .empty
      · exact .cons (fun ds => by rw [firstBracket, if_pos hs]) (.pure (s.add (single ']')) cs)
      · exact .congr_cons (k := fun ds => some (s, ds)) (fun ds => by rw [firstBracket, if_neg hs])
          (.pure s _)
    · refine .congr_cons (k := fun ds => some (s, ds)) (fun ds => ?_) (.pure s _)
      unfold firstBracket
      split
      · next he => cases he; exact absurd rfl hc
      · rfl

theorem openMembers_local (mode : Mode) (negated : Bool) (cs : List Char) :
    Local (fun cs => some (openMembers mode negated cs)) cs := by
  simp only [openMembers_eq]
  refine (readHyphens_local mode { negated } cs).bind (g := fun s ds => some (firstBracket s ds))
    shrinks_firstBracket fun s mid _ => firstBracket_local s mid

theorem openSet_local (mode : Mode) (cs : List Char) :
    Local (fun cs => some (openSet mode cs)) cs := by
  have hskip : ∀ cs, some (openSet mode (mode.skip cs)) = some (openSet mode cs) := by
    intro cs
    unfold openSet
    rw [mode.skip_skip]
  refine .of_skip hskip (fun cs a rest h => ?_) fun c rest hcs => ?_
  · have hle := length_openSet_le mode cs
    rwa [Option.some.inj h] at hle
  · by_cases hc : c = '^'
    · subst hc
      refine .cons (fun ds => ?_) (openMembers_local mode true rest)
      unfold openSet
      rw [mode.skip_cons hcs]
      split
      · next he => cases he; rfl
      · next hne => exact absurd rfl (hne _)
    · refine .congr_cons (fun ds => ?_) (openMembers_local mode false (c :: rest))
      unfold openSet
      rw [mode.skip_cons hcs]
      split
      · next he => cases he; exact absurd rfl hc
      · rfl

/-! ### Members -/

theorem readAtom_append (h : readAtom mode cs = some (atom, rest)) (hr : rest ≠ []) :
    readAtom mode (cs ++ after) = some (atom, rest ++ after) := by
  cases cs with
  | nil => cases h
  | cons c cs =>
    rw [List.cons_append]
    simp only [readAtom] at h ⊢
    by_cases hc : c = '\\'
    · rw [if_pos hc] at h ⊢
      exact readEscape_append h hr
    · rw [if_neg hc] at h ⊢
      cases h
      rfl

/-- An atom of a longer text is one of the text, or a boundary. -/
theorem exists_of_readAtom_append (h : readAtom mode (cs ++ after) = some (atom, left))
    (hlt : after.length < left.length) :
    (∃ rest, left = rest ++ after ∧ readAtom mode cs = some (atom, rest)) ∨
      ∃ kind, atom = .assertion kind := by
  cases cs with
  | nil =>
    have := length_lt_of_readAtom h
    simp only [List.nil_append] at this
    omega
  | cons c cs =>
    rw [List.cons_append] at h
    simp only [readAtom] at h ⊢
    by_cases hc : c = '\\'
    · rw [if_pos hc] at h ⊢
      rcases exists_of_readEscape_append h hlt with hrest | ⟨hkind, -⟩
      · exact .inl hrest
      · exact .inr hkind
    · rw [if_neg hc] at h ⊢
      cases h
      exact .inl ⟨cs, rfl, rfl⟩

/-- The range between two atoms, the second of which stands before `cs`. -/
def rangeOf (mode : Mode) (first last : Atom) (cs : List Char) : Option (CharSet × List Char) :=
  match first.char? mode, last.char? mode with
  | some first, some last => if first ≤ last then some (.range first last, cs) else none
  | _, _ => none

/-- The member that begins with an atom. -/
def memberOf (mode : Mode) (atom : Atom) (cs : List Char) : Option (CharSet × List Char) :=
  match mode.skip cs with
  | '-' :: after =>
    if mode.peek after = some ']' || mode.peek after = some '-' then
      (atom.set? mode).map (·, '-' :: after)
    else (readAtom mode (mode.skip after)).bind fun p => rangeOf mode atom p.1 p.2
  | rest => (atom.set? mode).map (·, rest)

theorem memberOf_hyphen {ds : List Char} (h : mode.skip cs = '-' :: ds) (atom : Atom) :
    memberOf mode atom cs =
      if mode.peek ds = some ']' || mode.peek ds = some '-' then
        (atom.set? mode).map (·, '-' :: ds)
      else (readAtom mode (mode.skip ds)).bind fun p => rangeOf mode atom p.1 p.2 := by
  unfold memberOf
  rw [h]
  split
  · next he => cases he; rfl
  · next hne => exact absurd rfl (hne ds)

theorem memberOf_of_ne {c : Char} {ds : List Char} (h : mode.skip cs = c :: ds) (hc : c ≠ '-')
    (atom : Atom) : memberOf mode atom cs = (atom.set? mode).map (·, c :: ds) := by
  unfold memberOf
  rw [h]
  split
  · next he => cases he; exact absurd rfl hc
  · rfl

theorem readMember_eq (mode : Mode) (cs : List Char) :
    readMember mode cs = (readAtom mode cs).bind fun p => memberOf mode p.1 p.2 := by
  unfold readMember
  rcases readAtom mode cs with _ | ⟨atom, ds⟩
  · rfl
  · dsimp only [Option.bind_some]
    split
    · next rest hs =>
      rw [memberOf_hyphen hs]
      split
      · rfl
      · cases readAtom mode (mode.skip rest) <;> rfl
    · next hne =>
      unfold memberOf
      split
      · next hs => exact absurd hs (hne _)
      · rfl

theorem memberOf_assertion (mode : Mode) (kind : Assertion) (cs : List Char) :
    memberOf mode (.assertion kind) cs = none := by
  unfold memberOf
  split
  · split
    · rfl
    · rw [Option.bind_eq_none_iff]
      rintro p -
      rfl
  · rfl

theorem rangeOf_assertion (mode : Mode) (atom : Atom) (kind : Assertion) (cs : List Char) :
    rangeOf mode atom (.assertion kind) cs = none := by
  unfold rangeOf
  split
  · next he => cases he
  · rfl

theorem rangeOf_eq_some {first last : Atom} (h : rangeOf mode first last cs = some (set, rest)) :
    rest = cs ∧ ∀ ds, rangeOf mode first last ds = some (set, ds) := by
  unfold rangeOf at h ⊢
  split at h
  · next hf hl =>
    split at h
    · next hle =>
      cases h
      exact ⟨rfl, fun ds => if_pos hle⟩
    · cases h
  · cases h

theorem length_memberOf_le (h : memberOf mode atom cs = some (set, rest)) :
    rest.length ≤ (mode.skip cs).length := by
  cases hs : mode.skip cs with
  | nil =>
    unfold memberOf at h
    rw [hs] at h
    have := Shrinks.ofOption _ h
    exact this
  | cons c ds =>
    by_cases hc : c = '-'
    · subst hc
      rw [memberOf_hyphen hs] at h
      split at h
      · have hle : rest.length ≤ ('-' :: ds).length := Shrinks.ofOption _ h
        exact hle
      · obtain ⟨⟨last, rest'⟩, ha, hr⟩ := Option.bind_eq_some_iff.1 h
        have := length_lt_of_readAtom ha
        have := mode.length_skip_le ds
        have hrest : rest = rest' := (rangeOf_eq_some hr).1
        rw [hrest, List.length_cons]
        omega
    · rw [memberOf_of_ne hs hc] at h
      exact Shrinks.ofOption _ h

/-! ### Members in a longer text -/

theorem skipBlanks_dropWhile (cs : List Char) :
    skipBlanks false (cs.dropWhile Unicode.isWhiteSpace) = skipBlanks false cs := by
  induction cs with
  | nil => rfl
  | cons c cs ih =>
    by_cases hc : Unicode.isWhiteSpace c = true
    · rw [List.dropWhile_cons_of_pos hc, ih]
      simp [skipBlanks, hc]
    · rw [List.dropWhile_cons_of_neg hc]

theorem skipBlanks_of_dropWhile {cs : List Char} (h : cs.dropWhile Unicode.isWhiteSpace = [])
    (inComment : Bool) : skipBlanks inComment cs = [] := by
  induction cs generalizing inComment with
  | nil => rfl
  | cons c cs ih =>
    by_cases hc : Unicode.isWhiteSpace c = true
    · rw [List.dropWhile_cons_of_pos hc] at h
      unfold skipBlanks
      split
      · exact ih h _
      · simpa only [hc, if_true] using ih h false
    · rw [List.dropWhile_cons_of_neg hc] at h
      cases h

theorem dropWhile_append_of_ne {p : Char → Bool} {cs : List Char} (h : cs.dropWhile p ≠ [])
    (after : List Char) : (cs ++ after).dropWhile p = cs.dropWhile p ++ after := by
  rw [List.dropWhile_append, if_neg (by simpa [List.isEmpty_iff] using h)]

namespace Mode

theorem peek_off (hm : ¬ mode.ignoreBlanks = true) (cs : List Char) : mode.peek cs = cs.head? := by
  rw [peek, if_neg hm]

theorem peek_comment (hm : mode.ignoreBlanks = true) {ds : List Char}
    (h : cs.dropWhile Unicode.isWhiteSpace = '#' :: ds) :
    mode.peek cs = (ds.dropWhile Unicode.isWhiteSpace).head? := by
  rw [peek, if_pos hm, h]
  split
  · next he => cases he; rfl
  · next hne => exact absurd rfl (hne ds)

theorem peek_of_ne (hm : mode.ignoreBlanks = true) {c : Char} {ds : List Char} (hc : c ≠ '#')
    (h : cs.dropWhile Unicode.isWhiteSpace = c :: ds) : mode.peek cs = some c := by
  rw [peek, if_pos hm, h]
  split
  · next he => cases he; exact absurd rfl hc
  · rfl

theorem peek_blank (hm : mode.ignoreBlanks = true) (h : cs.dropWhile Unicode.isWhiteSpace = []) :
    mode.peek cs = none := by
  rw [peek, if_pos hm, h]
  rfl

/-- Something is next in a text if anything in it counts. -/
theorem peek_ne_none (h : mode.skip cs ≠ []) : mode.peek cs ≠ none := by
  by_cases hm : mode.ignoreBlanks = true
  · rw [skip, if_pos hm, ← skipBlanks_dropWhile] at h
    cases hd : cs.dropWhile Unicode.isWhiteSpace with
    | nil => exact absurd (by rw [hd]; rfl) h
    | cons c ds =>
      by_cases hc : c = '#'
      · subst hc
        rw [peek_comment hm hd]
        intro hnone
        -- A comment of blanks alone is passed over with all that is after its mark.
        apply h
        rw [hd, skipBlanks, if_neg (by decide), if_neg (by decide), if_pos rfl]
        exact skipBlanks_of_dropWhile (List.head?_eq_none_iff.1 hnone) true
      · rw [peek_of_ne hm hc hd]
        exact Option.some_ne_none c
  · rw [skip, if_neg hm] at h
    rw [peek_off hm]
    exact fun hnone => h (List.head?_eq_none_iff.1 hnone)

/-- What comes after a text does not matter to what is next in it. -/
theorem peek_append (h : mode.peek cs ≠ none) (after : List Char) :
    mode.peek (cs ++ after) = mode.peek cs := by
  have hhead : ∀ ds : List Char, ds.head? ≠ none → ds ≠ [] ∧ (ds ++ after).head? = ds.head? := by
    rintro (_ | ⟨d, ds⟩) hd
    · exact absurd rfl hd
    · exact ⟨List.cons_ne_nil d ds, rfl⟩
  by_cases hm : mode.ignoreBlanks = true
  · cases hd : cs.dropWhile Unicode.isWhiteSpace with
    | nil => exact absurd (peek_blank hm hd) h
    | cons c ds =>
      have hd' : (cs ++ after).dropWhile Unicode.isWhiteSpace = c :: (ds ++ after) := by
        rw [dropWhile_append_of_ne (by simp [hd]), hd, List.cons_append]
      by_cases hc : c = '#'
      · subst hc
        rw [peek_comment hm hd] at h ⊢
        obtain ⟨hne, he⟩ := hhead _ h
        rw [peek_comment hm hd', dropWhile_append_of_ne hne, he]
      · rw [peek_of_ne hm hc hd, peek_of_ne hm hc hd']
  · rw [peek_off hm] at h ⊢
    rw [peek_off hm, (hhead _ h).2]

end Mode

theorem memberOf_append (h : memberOf mode atom cs = some (set, rest)) (hr : rest ≠ []) :
    memberOf mode atom (cs ++ after) = some (set, rest ++ after) := by
  cases hs : mode.skip cs with
  | nil =>
    have := length_memberOf_le h
    rw [hs, List.length_nil, Nat.le_zero, List.length_eq_zero_iff] at this
    exact absurd this hr
  | cons c ds =>
    have hskip : mode.skip (cs ++ after) = c :: (ds ++ after) := by
      rw [mode.skip_append (by simp [hs]), hs, List.cons_append]
    by_cases hc : c = '-'
    · subst hc
      rw [memberOf_hyphen hs] at h
      rw [memberOf_hyphen hskip]
      split at h
      · next hp =>
        obtain ⟨value, hv, he⟩ := Option.map_eq_some_iff.1 h
        cases he
        have hpeek : mode.peek ds ≠ none := by
          intro hnone
          rw [hnone] at hp
          exact absurd hp (by decide)
        rw [mode.peek_append hpeek, if_pos hp, hv]
        rfl
      · next hp =>
        obtain ⟨⟨last, rest'⟩, ha, hrange⟩ := Option.bind_eq_some_iff.1 h
        obtain ⟨rfl, hrange⟩ := rangeOf_eq_some hrange
        have hds : mode.skip ds ≠ [] := by
          intro he
          rw [he] at ha
          cases ha
        rw [mode.peek_append (mode.peek_ne_none hds), if_neg hp, mode.skip_append hds,
          readAtom_append ha hr]
        exact hrange _
    · rw [memberOf_of_ne hs hc] at h
      rw [memberOf_of_ne hskip hc]
      obtain ⟨value, hv, he⟩ := Option.map_eq_some_iff.1 h
      cases he
      rw [hv]
      rfl

/-- A member of a longer text is one of the text, or it is before a hyphen behind which nothing of the
text counts. -/
theorem exists_of_memberOf_append (h : memberOf mode atom (cs ++ after) = some (set, left))
    (hlt : after.length < left.length) :
    (∃ rest, left = rest ++ after ∧ memberOf mode atom cs = some (set, rest)) ∨
      ∃ ds, left = '-' :: (ds ++ after) ∧ mode.skip ds = [] := by
  cases hs : mode.skip cs with
  | nil =>
    have := length_memberOf_le h
    have := mode.length_skip_append_le hs after
    omega
  | cons c ds =>
    have hskip : mode.skip (cs ++ after) = c :: (ds ++ after) := by
      rw [mode.skip_append (by simp [hs]), hs, List.cons_append]
    by_cases hc : c = '-'
    · subst hc
      rw [memberOf_hyphen hskip] at h
      rw [memberOf_hyphen hs]
      by_cases hds : mode.skip ds = []
      · split at h
        · obtain ⟨value, -, he⟩ := Option.map_eq_some_iff.1 h
          cases he
          exact .inr ⟨ds, rfl, hds⟩
        · obtain ⟨⟨last, rest⟩, ha, hrange⟩ := Option.bind_eq_some_iff.1 h
          have hleft : left = rest := (rangeOf_eq_some hrange).1
          have := length_lt_of_readAtom ha
          have := mode.length_skip_append_le hds after
          rw [hleft] at hlt
          omega
      · left
        rw [mode.peek_append (mode.peek_ne_none hds)] at h
        split at h
        · next hp =>
          obtain ⟨value, hv, he⟩ := Option.map_eq_some_iff.1 h
          cases he
          exact ⟨'-' :: ds, rfl, by rw [if_pos hp, hv]; rfl⟩
        · next hp =>
          obtain ⟨⟨last, left'⟩, ha, hrange⟩ := Option.bind_eq_some_iff.1 h
          obtain ⟨rfl, hrange'⟩ := rangeOf_eq_some hrange
          rw [mode.skip_append hds] at ha
          rcases exists_of_readAtom_append ha hlt with ⟨rest, rfl, hatom⟩ | ⟨kind, rfl⟩
          · refine ⟨rest, rfl, ?_⟩
            rw [if_neg hp, hatom]
            exact hrange' rest
          · rw [rangeOf_assertion] at hrange
            cases hrange
    · left
      rw [memberOf_of_ne hskip hc] at h
      rw [memberOf_of_ne hs hc]
      obtain ⟨value, hv, he⟩ := Option.map_eq_some_iff.1 h
      cases he
      exact ⟨c :: ds, rfl, by rw [hv]; rfl⟩

theorem readMember_append (h : readMember mode cs = some (set, rest)) (hr : rest ≠ []) :
    readMember mode (cs ++ after) = some (set, rest ++ after) := by
  rw [readMember_eq] at h ⊢
  obtain ⟨⟨atom, mid⟩, ha, hm⟩ := Option.bind_eq_some_iff.1 h
  have hmid : mid ≠ [] := by
    rintro rfl
    have := length_memberOf_le hm
    rw [mode.skip_nil, List.length_nil, Nat.le_zero, List.length_eq_zero_iff] at this
    exact hr this
  exact Option.bind_eq_some_iff.2 ⟨(atom, mid ++ after), readAtom_append ha hmid, memberOf_append hm hr⟩

theorem exists_of_readMember_append (h : readMember mode (cs ++ after) = some (set, left))
    (hlt : after.length < left.length) :
    (∃ rest, left = rest ++ after ∧ readMember mode cs = some (set, rest)) ∨
      ∃ ds, left = '-' :: (ds ++ after) ∧ mode.skip ds = [] := by
  rw [readMember_eq] at h
  obtain ⟨⟨atom, mid'⟩, ha, hm⟩ := Option.bind_eq_some_iff.1 h
  have hle : left.length ≤ mid'.length := Nat.le_trans (length_memberOf_le hm) (mode.length_skip_le _)
  rcases exists_of_readAtom_append ha (Nat.lt_of_lt_of_le hlt hle) with ⟨mid, rfl, hatom⟩ | ⟨kind, rfl⟩
  · rcases exists_of_memberOf_append hm hlt with ⟨rest, rfl, hmember⟩ | hhyphen
    · refine .inl ⟨rest, rfl, ?_⟩
      rw [readMember_eq]
      exact Option.bind_eq_some_iff.2 ⟨(atom, mid), hatom, hmember⟩
    · exact .inr hhyphen
  · rw [memberOf_assertion] at hm
    cases hm

end TraefikUpgrade.Regex
