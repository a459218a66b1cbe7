/-
# The readers of flags, bounds and escapes

These take what they read from the front of a pattern, whatever comes after it (`Local`). The boundary
after `\b` alone looks further ahead than it takes: a brace is left for the next reader when nothing
behind it counts, and then the next reader goes beyond the text (`exists_of_readBoundary_append`).

Key theorems: `readFlags_local`, `readBounds_local`, `readEscape_local`, `readBoundary_append`.
-/
import TraefikUpgrade.Proofs.Regex.Locality
import TraefikUpgrade.Regex.Parser

namespace TraefikUpgrade.Regex

/-! ### Flags, names and bounds -/

theorem readFlags_local : ∀ (seen : List FlagItem) (cs : List Char),
    Local (fun cs => (readFlags seen cs).map fun p => ((p.1, p.2.1), p.2.2)) cs
  | seen, [] => .of_le fun after a left h => by
    obtain ⟨⟨items, colon, rest⟩, hf, he⟩ := Option.map_eq_some_iff.1 h
    cases he
    exact length_le_of_readFlags hf
  | seen, c :: cs => by
    by_cases hend : (c = ':' || c = ')') = true
    · by_cases hm : seen.head? = some .minus
      · exact .cons (fun ds => by simp only [readFlags, hend, hm, if_true]; rfl) (.none cs)
      · exact .cons (fun ds => by simp only [readFlags, hend, hm, if_true, if_false]; rfl)
          (.pure (seen.reverse, decide (c = ':')) cs)
    · by_cases hc : c = '-'
      · by_cases hm : seen.contains .minus = true
        · exact .cons (fun ds => by simp only [readFlags, hc, hm]; rfl) (.none cs)
        · exact .cons (fun ds => by simp only [readFlags, hc, hm]; rfl)
            (readFlags_local (.minus :: seen) cs)
      · cases hf : flag? c with
        | none => exact .cons (fun ds => by simp only [readFlags, hend, hc, hf]; rfl) (.none cs)
        | some f =>
          by_cases hm : seen.contains (.flag f) = true
          · exact .cons (fun ds => by simp only [readFlags, hend, hc, hf, hm]; rfl) (.none cs)
          · exact .cons (fun ds => by simp only [readFlags, hend, hc, hf, hm]; rfl)
              (readFlags_local (.flag f :: seen) cs)

theorem readGreed_local (cs : List Char) : Local (fun cs => some (readGreed cs)) cs := by
  cases cs with
  | nil =>
    refine .nil fun cs a rest h => ?_
    have hle := length_readGreed_le cs
    rwa [Option.some.inj h] at hle
  | cons c cs =>
    by_cases hc : c = '?'
    · subst hc
      exact .cons (fun ds => rfl) (.pure false cs)
    · have hr : ∀ ds, readGreed (c :: ds) = (true, c :: ds) := by
        intro ds
        unfold readGreed
        split
        · next h => cases h; exact absurd rfl hc
        · rfl
      exact .congr_cons (k := fun ds => some (true, ds)) (fun ds => by rw [hr]) (.pure true _)

theorem shrinks_readDigits (mode : Mode) : Shrinks fun cs => some (readDigits mode cs) := by
  intro cs a rest h
  have hle := length_readDigits_le mode cs
  rwa [Option.some.inj h] at hle

theorem readDigits_local (mode : Mode) (cs : List Char) :
    Local (fun cs => some (readDigits mode cs)) cs := by
  match cs with
  | [] => exact .nil (shrinks_readDigits mode)
  | c :: cs =>
    by_cases hc : c.isDigit = true
    · refine .cons (k := fun ds => (some (readDigits mode (mode.skip ds))).map
        fun p => (c :: p.1, p.2)) (fun ds => ?_) ?_
      · rw [readDigits, if_pos hc]
        rfl
      · have hrest := Local.afterSkip (shrinks_readDigits mode) (readDigits_local mode (mode.skip cs))
        exact hrest.map (c :: ·)
    · have hr : ∀ ds, readDigits mode (c :: ds) = ([], c :: ds) := by
        intro ds
        rw [readDigits, if_neg hc]
      exact .congr_cons (k := fun ds => some ([], ds)) (fun ds => by rw [hr]) (.pure [] _)
termination_by cs.length
decreasing_by
  have := mode.length_skip_le cs
  simp only [List.length_cons]
  omega

/-- What the digits before `cs` count. -/
def count (digits cs : List Char) : Option (Option Nat × List Char) :=
  if digits.isEmpty then some (.none, cs)
  else if decimal digits < 4294967296 then some (some (decimal digits), cs)
  else .none

theorem shrinks_count (digits : List Char) : Shrinks (count digits) := by
  intro cs a rest h
  unfold count at h
  repeat' split at h
  all_goals cases h
  all_goals exact Nat.le_refl _

theorem readCount_local (mode : Mode) (cs : List Char) : Local (readCount mode) cs := by
  have hafter : ∀ digits, Shrinks fun ds =>
      count digits (mode.skip (ds.dropWhile Unicode.isWhiteSpace)) :=
    fun digits => (shrinks_count digits).afterSkip.afterDropWhile Unicode.isWhiteSpace
  have hdigits : Shrinks fun ds => (some (readDigits mode ds)).bind fun p =>
      count p.1 (mode.skip (p.2.dropWhile Unicode.isWhiteSpace)) :=
    Shrinks.bind (g := fun digits ds => count digits (mode.skip (ds.dropWhile Unicode.isWhiteSpace)))
      (shrinks_readDigits mode) hafter
  have hl : Local (fun ds => (some (readDigits mode (ds.dropWhile Unicode.isWhiteSpace))).bind
      fun p => count p.1 (mode.skip (p.2.dropWhile Unicode.isWhiteSpace))) cs := by
    refine .afterDropWhile Unicode.isWhiteSpace hdigits ?_
    refine .bind (g := fun digits ds => count digits (mode.skip (ds.dropWhile Unicode.isWhiteSpace)))
      (readDigits_local mode _) hafter fun digits mid _ => ?_
    refine .afterDropWhile Unicode.isWhiteSpace (shrinks_count digits).afterSkip
      (.afterSkip (shrinks_count digits) ?_)
    exact .ite (fun _ => .pure _ _) fun _ => .ite (fun _ => .pure _ _) fun _ => .none _
  exact hl

/-- The closing brace after the second count of a repetition. -/
def closeBounds (least : Nat) : Option Nat → List Char → Option ((Nat × Option Nat) × List Char)
  | some most, '}' :: rest => if least ≤ most then some ((least, some most), rest) else .none
  | _, _ => .none

/-- What follows the comma of a repetition. -/
def upperBound (mode : Mode) (least : Nat) : List Char → Option ((Nat × Option Nat) × List Char)
  | '}' :: rest => some ((least, .none), rest)
  | rest => (readCount mode rest).bind fun p => closeBounds least p.1 p.2

/-- What follows the first count of a repetition. -/
def lowerBound (mode : Mode) : Option Nat → List Char → Option ((Nat × Option Nat) × List Char)
  | some least, '}' :: rest => some ((least, some least), rest)
  | some least, ',' :: rest => upperBound mode least (mode.skip rest)
  | _, _ => .none

theorem upperBound_eq (mode : Mode) (least : Nat) (cs : List Char) : upperBound mode least cs =
    match cs with
    | '}' :: rest => some ((least, .none), rest)
    | rest =>
      match readCount mode rest with
      | some (some most, '}' :: rest) =>
        if least ≤ most then some ((least, some most), rest) else .none
      | _ => .none := by
  unfold upperBound
  split
  · rfl
  · rcases readCount mode cs with _ | ⟨_ | most, _ | ⟨c, rest'⟩⟩
    · rfl
    · rfl
    · rfl
    · rfl
    · by_cases hc : c = '}'
      · subst hc
        rfl
      · simp [closeBounds, hc]

theorem readBounds_eq (mode : Mode) (cs : List Char) : readBounds mode cs =
    (readCount mode (mode.skip cs)).bind fun p => lowerBound mode p.1 p.2 := by
  unfold readBounds
  rcases readCount mode (mode.skip cs) with _ | ⟨_ | least, _ | ⟨c, rest⟩⟩
  · rfl
  · rfl
  · rfl
  · rfl
  · by_cases hc : c = '}'
    · subst hc
      rfl
    by_cases hc' : c = ','
    · subst hc'
      exact (upperBound_eq mode least (mode.skip rest)).symm
    · simp [lowerBound, hc, hc']

theorem shrinks_readCount (mode : Mode) : Shrinks (readCount mode) :=
  fun _ _ _ h => length_le_of_readCount h

theorem shrinks_closeBounds (least : Nat) (count : Option Nat) :
    Shrinks (closeBounds least count) := by
  intro cs a rest h
  unfold closeBounds at h
  repeat' split at h
  all_goals cases h
  exact Nat.le_succ _

theorem shrinks_upperBound (mode : Mode) (least : Nat) : Shrinks (upperBound mode least) := by
  intro cs a rest h
  unfold upperBound at h
  split at h
  · cases h
    exact Nat.le_succ _
  · exact (shrinks_readCount mode).bind (shrinks_closeBounds least) h

theorem shrinks_lowerBound (mode : Mode) (count : Option Nat) : Shrinks (lowerBound mode count) := by
  intro cs a rest h
  unfold lowerBound at h
  split at h
  · cases h
    exact Nat.le_succ _
  · exact Nat.le_succ_of_le ((shrinks_upperBound mode _).afterSkip h)
  · cases h

theorem closeBounds_local (least : Nat) (count : Option Nat) (cs : List Char) :
    Local (closeBounds least count) cs := by
  cases count with
  | none => exact .none cs
  | some most =>
    cases cs with
    | nil => exact .nil (shrinks_closeBounds ..)
    | cons c cs =>
      by_cases hc : c = '}'
      · subst hc
        exact .cons (fun ds => rfl) (.ite (fun _ => .pure _ cs) fun _ => .none cs)
      · exact .cons (fun ds => by simp [closeBounds, hc]) (.none cs)

theorem upperBound_local (mode : Mode) (least : Nat) (cs : List Char) :
    Local (upperBound mode least) cs := by
  have hcount : ∀ ds, Local (fun ds => (readCount mode ds).bind fun p =>
      closeBounds least p.1 p.2) ds := fun ds =>
    (readCount_local mode ds).bind (shrinks_closeBounds least)
      fun count mid _ => closeBounds_local least count mid
  cases cs with
  | nil => exact .nil (shrinks_upperBound ..)
  | cons c cs =>
    by_cases hc : c = '}'
    · subst hc
      exact .cons (fun ds => rfl) (.pure _ cs)
    · exact .congr_cons (fun ds => by simp [upperBound, hc]) (hcount (c :: cs))

theorem lowerBound_local (mode : Mode) (count : Option Nat) (cs : List Char) :
    Local (lowerBound mode count) cs := by
  cases count with
  | none => exact .none cs
  | some least =>
    cases cs with
    | nil => exact .nil (shrinks_lowerBound ..)
    | cons c cs =>
      by_cases hc : c = '}'
      · subst hc
        exact .cons (fun ds => rfl) (.pure _ cs)
      by_cases hc' : c = ','
      · subst hc'
        exact .cons (fun ds => rfl)
          (.afterSkip (shrinks_upperBound mode least) (upperBound_local mode least _))
      · exact .cons (fun ds => by simp [lowerBound, hc, hc']) (.none cs)

theorem readBounds_local (mode : Mode) (cs : List Char) : Local (readBounds mode) cs := by
  have hs : Shrinks fun ds => (readCount mode ds).bind fun p => lowerBound mode p.1 p.2 :=
    (shrinks_readCount mode).bind (shrinks_lowerBound mode)
  have hl := Local.afterSkip hs ((readCount_local mode (mode.skip cs)).bind (shrinks_lowerBound mode)
    fun count mid _ => lowerBound_local mode count mid)
  intro after a left hlt
  rw [readBounds_eq, readBounds_eq]
  exact hl hlt

/-! ### Escapes -/

theorem readFixed_local (mode : Mode) : ∀ (count : Nat) (cs : List Char),
    Local (readFixed mode count) cs
  | 0, cs => .pure [] cs
  | _ + 1, [] => .nil fun _ _ _ h => length_le_of_readFixed h
  | count + 1, c :: cs =>
    .cons (fun _ => rfl) ((Local.afterSkip (fun _ _ _ h => length_le_of_readFixed h)
      (readFixed_local mode count (mode.skip cs))).map (c :: ·))

theorem shrinks_readBraced (mode : Mode) : Shrinks (readBraced mode) :=
  fun _ _ _ h => Nat.le_of_lt (length_lt_of_readBraced h)

theorem readBraced_of_skip {mode : Mode} {cs rest : List Char} {c : Char}
    (h : mode.skip cs = c :: rest) : readBraced mode cs =
      if c = '}' then some ([], rest)
      else (readBraced mode rest).map fun p => (c :: p.1, p.2) := by
  rw [readBraced.eq_def]
  split
  · next he => rw [h] at he; cases he
  · next he => rw [h] at he; cases he; rfl

theorem readBraced_skip (mode : Mode) (cs : List Char) :
    readBraced mode (mode.skip cs) = readBraced mode cs := by
  rw [readBraced.eq_def, readBraced.eq_def mode cs, mode.skip_skip]

theorem readBraced_local (mode : Mode) (cs : List Char) : Local (readBraced mode) cs := by
  refine .of_skip (readBraced_skip mode) (shrinks_readBraced mode) fun c rest hcs => ?_
  refine .cons (fun ds => readBraced_of_skip (mode.skip_cons hcs ds))
    (.ite (fun _ => .pure [] rest) fun _ => ?_)
  have hlt : rest.length < cs.length := by
    have := mode.length_skip_le cs
    rwa [hcs] at this
  exact (readBraced_local mode rest).map (c :: ·)
termination_by cs.length

theorem shrinks_readNumbered (mode : Mode) (count : Nat) : Shrinks (readNumbered mode count) :=
  fun _ _ _ h => length_le_of_readNumbered h

/-- The character of the digits before `cs`. -/
def numbered (digits cs : List Char) : Option (Char × List Char) :=
  ((Text.hexNumber? digits).bind Text.charOf?).map (·, cs)

theorem readNumbered_brace (mode : Mode) (count : Nat) {cs ds : List Char}
    (h : mode.skip cs = '{' :: ds) : readNumbered mode count cs =
      (readBraced mode ds).bind fun p => if p.1 = [] then .none else numbered p.1 p.2 := by
  unfold readNumbered
  rw [h]
  split
  · next he =>
    cases he
    rcases readBraced mode ds with _ | ⟨_ | ⟨c, digits⟩, rest⟩ <;> rfl
  · next hne => exact absurd rfl (hne ds)

theorem readNumbered_digit (mode : Mode) (count : Nat) {cs ds : List Char} {c : Char} (hc : c ≠ '{')
    (h : mode.skip cs = c :: ds) : readNumbered mode count cs =
      (readFixed mode count (c :: ds)).bind fun p => numbered p.1 p.2 := by
  unfold readNumbered
  rw [h]
  split
  · next he => cases he; exact absurd rfl hc
  · cases readFixed mode count (c :: ds) <;> rfl

theorem readNumbered_skip (mode : Mode) (count : Nat) (cs : List Char) :
    readNumbered mode count (mode.skip cs) = readNumbered mode count cs := by
  unfold readNumbered
  rw [mode.skip_skip]

theorem readNumbered_local (mode : Mode) (count : Nat) (cs : List Char) :
    Local (readNumbered mode count) cs := by
  refine .of_skip (readNumbered_skip mode count) (shrinks_readNumbered mode count) fun c rest hcs => ?_
  by_cases hc : c = '{'
  · subst hc
    refine .cons (fun ds => readNumbered_brace mode count (mode.skip_cons hcs ds)) ?_
    refine (readBraced_local mode rest).bind (g := fun digits ds =>
      if digits = [] then .none else numbered digits ds) (fun digits => ?_) fun digits mid _ => ?_
    · by_cases he : digits = []
      · simp [Shrinks, he]
      · simp only [if_neg he]
        exact Shrinks.ofOption _
    · exact .ite (fun _ => .none mid) fun _ => .ofOption _ mid
  · refine .congr_cons (k := fun ds => (readFixed mode count ds).bind fun p => numbered p.1 p.2)
      (fun ds => readNumbered_digit mode count hc (mode.skip_cons hcs ds)) ?_
    exact (readFixed_local mode count (c :: rest)).bind (g := numbered) (fun _ => Shrinks.ofOption _)
      fun _ mid _ => .ofOption _ mid

/-- The set of the property before `cs`. -/
def property (negated : Bool) (text cs : List Char) : Option (CharSet × List Char) :=
  ((propertySet? text).map fun set => if negated then .complement set else set).map (·, cs)

theorem readProperty_skip (mode : Mode) (negated : Bool) (cs : List Char) :
    readProperty mode negated (mode.skip cs) = readProperty mode negated cs := by
  unfold readProperty
  rw [mode.skip_skip]

theorem readProperty_of_skip (mode : Mode) (negated : Bool) {cs ds : List Char} {c : Char}
    (h : mode.skip cs = c :: ds) : readProperty mode negated cs =
      if c = '{' then (readBraced mode ds).bind fun p => property negated p.1 p.2
      else if c = '\\' then .none
      else property negated [c] ds := by
  unfold readProperty property
  rw [h]
  dsimp only
  split
  · cases readBraced mode ds with
    | none => rfl
    | some p => simp [Function.comp_def]
  · simp [Function.comp_def]

theorem readProperty_local (mode : Mode) (negated : Bool) (cs : List Char) :
    Local (readProperty mode negated) cs := by
  refine .of_skip (readProperty_skip mode negated) (fun _ _ _ h => length_le_of_readProperty h)
    fun c rest hcs => ?_
  refine .cons (fun ds => readProperty_of_skip mode negated (mode.skip_cons hcs ds)) ?_
  refine .ite (fun _ => ?_) fun _ => .ite (fun _ => .none rest) fun _ => .ofOption _ rest
  exact (readBraced_local mode rest).bind (g := property negated) (fun _ => Shrinks.ofOption _)
    fun _ mid _ => .ofOption _ mid

/-! ### Word boundaries -/

variable {mode : Mode} {cs rest after left : List Char} {kind : Assertion} {atom : Atom}

theorem readBoundary_of_ne {c : Char} (hc : c ≠ '{') (mode : Mode) (cs : List Char) :
    readBoundary mode (c :: cs) = some (.wordBoundary, c :: cs) := by
  unfold readBoundary
  split
  · next he => cases he; exact absurd rfl hc
  · rfl

theorem readBoundary_brace {ds : List Char} {c : Char} (h : mode.skip cs = c :: ds) :
    readBoundary mode ('{' :: cs) =
      if isBoundaryChar c then
        (readBraced mode cs).bind fun p => (boundary? p.1).map (·, p.2)
      else some (.wordBoundary, '{' :: cs) := by
  unfold readBoundary
  split
  · next he =>
    cases he
    rw [h]
    dsimp only
    split
    · cases readBraced mode cs <;> rfl
    · rfl
  · next hne => exact absurd rfl (hne cs)

/-- The name of a boundary and its closing brace. -/
theorem boundaryName_local (mode : Mode) (cs : List Char) :
    Local (fun cs => (readBraced mode cs).bind fun p => (boundary? p.1).map (·, p.2)) cs :=
  (readBraced_local mode cs).bind (g := fun name ds => (boundary? name).map (·, ds))
    (fun _ => Shrinks.ofOption _) fun _ mid _ => .ofOption _ mid

/-- What comes after a text does not matter to a boundary that leaves something of the text. -/
theorem readBoundary_append (h : readBoundary mode cs = some (kind, rest)) (hr : rest ≠ []) :
    readBoundary mode (cs ++ after) = some (kind, rest ++ after) := by
  cases cs with
  | nil => cases h; exact absurd rfl hr
  | cons c cs =>
    rw [List.cons_append]
    by_cases hc : c = '{'
    · subst hc
      cases hs : mode.skip cs with
      | nil => simp [readBoundary, hs] at h
      | cons d ds =>
        have hne : mode.skip cs ≠ [] := by simp [hs]
        have hskip : mode.skip (cs ++ after) = d :: (ds ++ after) := by
          rw [mode.skip_append hne, hs, List.cons_append]
        rw [readBoundary_brace hs] at h
        rw [readBoundary_brace hskip]
        by_cases hd : isBoundaryChar d = true
        · rw [if_pos hd] at h ⊢
          exact (boundaryName_local mode cs (by simpa [List.length_pos_iff] using hr)).2 ⟨rest, rfl, h⟩
        · rw [if_neg hd] at h ⊢
          cases h
          rfl
    · rw [readBoundary_of_ne hc] at h ⊢
      cases h
      rfl

/-- What is read of a boundary in a longer text is read in the text, or it is a boundary before a brace
behind which nothing of the text counts. -/
theorem exists_of_readBoundary_append (h : readBoundary mode (cs ++ after) = some (kind, left))
    (hlt : after.length < left.length) :
    (∃ rest, left = rest ++ after ∧ readBoundary mode cs = some (kind, rest)) ∨
      ∃ ds, left = '{' :: (ds ++ after) ∧ mode.skip ds = [] := by
  cases cs with
  | nil =>
    have := length_le_of_readBoundary h
    simp only [List.nil_append] at this
    omega
  | cons c cs =>
    rw [List.cons_append] at h
    by_cases hc : c = '{'
    · subst hc
      cases hs : mode.skip cs with
      | nil =>
        right
        have hlen := mode.length_skip_append_le hs after
        cases hs' : mode.skip (cs ++ after) with
        | nil => simp [readBoundary, hs'] at h
        | cons d ds =>
          rw [readBoundary_brace hs'] at h
          split at h
          · obtain ⟨⟨name, mid⟩, hb, hm⟩ := Option.bind_eq_some_iff.1 h
            rw [← readBraced_skip, hs'] at hb
            have := length_lt_of_readBraced hb
            have := Shrinks.ofOption _ hm
            rw [hs'] at hlen
            dsimp only at *
            omega
          · cases h
            exact ⟨cs, rfl, hs⟩
      | cons d ds =>
        left
        have hne : mode.skip cs ≠ [] := by simp [hs]
        have hskip : mode.skip (cs ++ after) = d :: (ds ++ after) := by
          rw [mode.skip_append hne, hs, List.cons_append]
        rw [readBoundary_brace hskip] at h
        rw [readBoundary_brace hs]
        by_cases hd : isBoundaryChar d = true
        · rw [if_pos hd] at h ⊢
          exact (boundaryName_local mode cs hlt).1 h
        · rw [if_neg hd] at h ⊢
          cases h
          exact ⟨'{' :: cs, rfl, rfl⟩
    · rw [readBoundary_of_ne hc] at h ⊢
      cases h
      exact .inl ⟨c :: cs, rfl, rfl⟩

/-! ### Escapes -/

/-- The character given by two digits, or in braces, after `cs`. -/
theorem readEscape_byte (mode : Mode) (cs : List Char) : readEscape mode ('x' :: cs) =
    (readNumbered mode 2 cs).bind fun p =>
      if !mode.unicode && 0x80 ≤ p.1.val && (mode.skip cs).head? != some '{' then none
      else some (.literal p.1, p.2) := by
  rw [readEscape, if_neg (by decide), if_pos rfl]
  cases readNumbered mode 2 cs <;> rfl

theorem readEscape_byte_local (mode : Mode) (cs : List Char) : Local (readEscape mode) ('x' :: cs) := by
  -- Whether the number is in braces shows in what it begins with, which is part of the text.
  have hhead : ∀ {d : Char} {rest : List Char}, readNumbered mode 2 cs = some (d, rest) →
      ∀ after, (mode.skip (cs ++ after)).head? = (mode.skip cs).head? := by
    intro d rest h after
    cases hs : mode.skip cs with
    | nil => simp [readNumbered, hs, readFixed] at h
    | cons c ds =>
      rw [mode.skip_append (by simp [hs]), hs]
      rfl
  intro after atom left hlt
  rw [List.cons_append, readEscape_byte, readEscape_byte]
  constructor
  · intro h
    obtain ⟨⟨d, left'⟩, hn, hi⟩ := Option.bind_eq_some_iff.1 h
    split at hi
    · cases hi
    · next hc =>
      cases hi
      obtain ⟨rest, rfl, hr⟩ := (readNumbered_local mode 2 cs hlt).1 hn
      rw [hhead hr] at hc
      exact ⟨rest, rfl, Option.bind_eq_some_iff.2 ⟨(d, rest), hr, if_neg hc⟩⟩
  · rintro ⟨rest, rfl, h⟩
    obtain ⟨⟨d, rest'⟩, hn, hi⟩ := Option.bind_eq_some_iff.1 h
    split at hi
    · cases hi
    · next hc =>
      cases hi
      rw [← hhead hn after] at hc
      exact Option.bind_eq_some_iff.2
        ⟨(d, rest' ++ after), (readNumbered_local mode 2 cs hlt).2 ⟨rest', rfl, hn⟩, if_neg hc⟩

/-- The escapes of one letter that stand for more than themselves. -/
def letterEscape (mode : Mode) (c : Char) : Option Atom :=
  match control? c, assertion? c, letterClass? c with
  | some d, _, _ => some (.literal d)
  | none, some kind, _ => some (.assertion kind)
  | none, none, some (name, false) => some (.set (.letter name))
  | none, none, some (name, true) =>
    if mode.unicode then some (.set (.complement (.letter name))) else none
  | none, none, none => none

theorem readEscape_letter (mode : Mode) {c : Char} (hp : isPlainEscape c = false)
    (hc : c ∉ ['x', 'u', 'U', 'p', 'P', 'b']) (cs : List Char) :
    readEscape mode (c :: cs) = (letterEscape mode c).map (·, cs) := by
  simp only [List.mem_cons, List.not_mem_nil, or_false, not_or] at hc
  simp only [readEscape, hp, hc, letterEscape]
  rcases control? c with _ | d
  · rcases assertion? c with _ | kind
    · rcases letterClass? c with _ | ⟨name, _ | _⟩
      · rfl
      · rfl
      · cases mode.unicode <;> rfl
    · rfl
  · rfl

/-- What comes after an escape other than a boundary does not matter. -/
theorem readEscape_local (mode : Mode) {cs : List Char} (h : cs.head? ≠ some 'b') :
    Local (readEscape mode) cs := by
  cases cs with
  | nil => exact .nil fun _ _ _ h => Nat.le_of_lt (length_lt_of_readEscape h)
  | cons c cs =>
    by_cases hp : isPlainEscape c = true
    · exact .cons (fun ds => by rw [readEscape, if_pos hp]) (.pure (.literal c) cs)
    rw [Bool.not_eq_true] at hp
    by_cases hc : c ∈ ['x', 'u', 'U', 'p', 'P', 'b']
    · simp only [List.mem_cons, List.not_mem_nil, or_false] at hc
      rcases hc with rfl | rfl | rfl | rfl | rfl | rfl
      · exact readEscape_byte_local mode cs
      · exact .cons (fun ds => rfl) ((readNumbered_local mode 4 cs).map Atom.literal)
      · exact .cons (fun ds => rfl) ((readNumbered_local mode 8 cs).map Atom.literal)
      · exact .cons (fun ds => rfl)
          (.ite (fun _ => (readProperty_local mode false cs).map Atom.set) fun _ => .none cs)
      · exact .cons (fun ds => rfl)
          (.ite (fun _ => (readProperty_local mode true cs).map Atom.set) fun _ => .none cs)
      · exact absurd rfl h
    · exact .cons (readEscape_letter mode hp hc) (.ofOption _ cs)

theorem readEscape_boundary (mode : Mode) (cs : List Char) : readEscape mode ('b' :: cs) =
    (readBoundary mode cs).map fun p => (.assertion p.1, p.2) := rfl

/-- What comes after a text does not matter to an escape that leaves something of the text. -/
theorem readEscape_append (h : readEscape mode cs = some (atom, rest)) (hr : rest ≠ []) :
    readEscape mode (cs ++ after) = some (atom, rest ++ after) := by
  by_cases hb : cs.head? = some 'b'
  · obtain ⟨ds, rfl⟩ := List.head?_eq_some_iff.1 hb
    rw [readEscape_boundary] at h
    obtain ⟨⟨kind, rest'⟩, hk, he⟩ := Option.map_eq_some_iff.1 h
    cases he
    rw [List.cons_append, readEscape_boundary, readBoundary_append hk hr]
    rfl
  · exact (readEscape_local mode hb (by simpa [List.length_pos_iff] using hr)).2 ⟨rest, rfl, h⟩

/-- What is read of an escape in a longer text is read in the text, or it is a boundary before a brace
behind which nothing of the text counts. -/
theorem exists_of_readEscape_append (h : readEscape mode (cs ++ after) = some (atom, left))
    (hlt : after.length < left.length) :
    (∃ rest, left = rest ++ after ∧ readEscape mode cs = some (atom, rest)) ∨
      ((∃ kind, atom = .assertion kind) ∧ ∃ ds, left = '{' :: (ds ++ after) ∧ mode.skip ds = []) := by
  by_cases hb : cs.head? = some 'b'
  · obtain ⟨ds, rfl⟩ := List.head?_eq_some_iff.1 hb
    rw [List.cons_append, readEscape_boundary] at h
    obtain ⟨⟨kind, left'⟩, hk, he⟩ := Option.map_eq_some_iff.1 h
    cases he
    rcases exists_of_readBoundary_append hk hlt with ⟨rest, rfl, hr⟩ | hbrace
    · exact .inl ⟨rest, rfl, by rw [readEscape_boundary, hr]; rfl⟩
    · exact .inr ⟨⟨kind, rfl⟩, hbrace⟩
  · exact .inl ((readEscape_local mode hb hlt).1 h)

end TraefikUpgrade.Regex
