/-
# Escapes in patterns

After a backslash a punctuation character stands for itself, and a letter for a control character, a set
of characters, an assertion or a character given by its number. Every other letter and every digit is
refused, so that it can be given a meaning later.

Each reader takes what follows in the pattern and gives what it read with the rest.

Key definitions: `Atom`, `readEscape`.
-/
import TraefikUpgrade.Regex.Mode
import TraefikUpgrade.Regex.Property
import TraefikUpgrade.Text.Cut
import TraefikUpgrade.Text.Hexadecimal

namespace TraefikUpgrade.Regex

/-- What an escape stands for. -/
inductive Atom where
  | literal (c : Char)
  | assertion (kind : Assertion)
  | set (set : CharSet)
deriving DecidableEq, Repr

/-- The next `count` characters, and the rest. Blanks after each may be skipped. -/
def readFixed (mode : Mode) : (count : Nat) → List Char → Option (List Char × List Char)
  | 0, cs => some ([], cs)
  | _ + 1, [] => none
  | count + 1, c :: cs =>
    (readFixed mode count (mode.skip cs)).map fun (taken, rest) => (c :: taken, rest)

/-- The characters up to a closing brace, and what follows the brace. -/
def readBraced (mode : Mode) (cs : List Char) : Option (List Char × List Char) :=
  match _h : mode.skip cs with
  | [] => none
  | c :: rest =>
    if c = '}' then some ([], rest)
    else (readBraced mode rest).map fun (taken, rest') => (c :: taken, rest')
termination_by cs.length
decreasing_by
  have := mode.length_skip_le cs
  rw [_h] at this
  exact this

/-- A character given by `count` hexadecimal digits, or by any number of them in braces. -/
def readNumbered (mode : Mode) (count : Nat) (cs : List Char) : Option (Char × List Char) :=
  match mode.skip cs with
  | '{' :: cs =>
    match readBraced mode cs with
    | some (c :: digits, rest) => ((Text.hexNumber? (c :: digits)).bind Text.charOf?).map (·, rest)
    | _ => none
  | cs =>
    match readFixed mode count cs with
    | some (digits, rest) => ((Text.hexNumber? digits).bind Text.charOf?).map (·, rest)
    | none => none

/-- The position of the first `!=` of a property, if it has one: what stands before and after it. -/
def cutAtUnequal : List Char → Option (List Char × List Char)
  | [] => none
  | c :: cs =>
    match c, cs with
    | '!', '=' :: rest => some ([], rest)
    | _, _ => (cutAtUnequal cs).map fun (before, after) => (c :: before, after)

/-- The set that a property stands for: a name, or a name and a value joined by `=`, `:` or `!=`. -/
def propertySet? (text : List Char) : Option CharSet :=
  let valued (name value : List Char) : Option CharSet :=
    if isPropertyValue name value then
      some (.property (String.ofList name) (some (String.ofList value)))
    else none
  match cutAtUnequal text with
  | some (name, value) => (valued name value).map .complement
  | none =>
    match Text.cutAt ':' text with
    | some (name, value) => valued name value
    | none =>
      match Text.cutAt '=' text with
      | some (name, value) => valued name value
      | none => if isPropertyName text then some (.property (String.ofList text) none) else none

/-- A property after `\p` or `\P`: a single letter, or a text in braces. -/
def readProperty (mode : Mode) (negated : Bool) (cs : List Char) : Option (CharSet × List Char) :=
  let finish (text rest : List Char) : Option (CharSet × List Char) :=
    (propertySet? text).map fun set => (if negated then .complement set else set, rest)
  match mode.skip cs with
  | [] => none
  | c :: cs =>
    if c = '{' then
      match readBraced mode cs with
      | some (text, rest) => finish text rest
      | none => none
    else if c = '\\' then none
    else finish [c] cs

/-- Whether a character can stand in the name of a kind of word boundary. -/
def isBoundaryChar (c : Char) : Bool :=
  ('a' ≤ c && c ≤ 'z') || ('A' ≤ c && c ≤ 'Z') || c == '-'

/-- The word boundary of a name. -/
def boundary? (name : List Char) : Option Assertion :=
  match String.ofList name with
  | "start" => some .wordStart
  | "end" => some .wordEnd
  | "start-half" => some .wordStartHalf
  | "end-half" => some .wordEndHalf
  | _ => none

/-- A word boundary after `\b`. Its kind may follow in braces; braces that begin with anything but a
letter or a hyphen are left to be read as a repetition. -/
def readBoundary (mode : Mode) (cs : List Char) : Option (Assertion × List Char) :=
  match cs with
  | '{' :: rest =>
    match mode.skip rest with
    | [] => none
    | c :: _ =>
      if isBoundaryChar c then
        match readBraced mode rest with
        | some (name, rest') => (boundary? name).map (·, rest')
        | none => none
      else some (.wordBoundary, cs)
  | _ => some (.wordBoundary, cs)

/-- The control character of a letter. -/
def control? (c : Char) : Option Char :=
  match c with
  | 'a' => some '\x07'
  | 'f' => some '\x0c'
  | 't' => some '\t'
  | 'n' => some '\n'
  | 'r' => some '\r'
  | 'v' => some '\x0b'
  | _ => none

/-- The assertion of a letter or angle bracket. -/
def assertion? (c : Char) : Option Assertion :=
  match c with
  | 'A' => some .textStart
  | 'z' => some .textEnd
  | 'B' => some .noWordBoundary
  | '<' => some .wordStart
  | '>' => some .wordEnd
  | _ => none

/-- The class of a letter, and whether the letter stands for what is outside of it. -/
def letterClass? (c : Char) : Option (LetterClass × Bool) :=
  match c with
  | 'd' => some (.digit, false)
  | 's' => some (.space, false)
  | 'w' => some (.word, false)
  | 'D' => some (.digit, true)
  | 'S' => some (.space, true)
  | 'W' => some (.word, true)
  | _ => none

/-- Whether an escaped character stands for itself: ASCII, no letter or digit, and no angle bracket. -/
def isPlainEscape (c : Char) : Bool :=
  c.val < 0x80 && !c.isAlphanum && c != '<' && c != '>'

/-- What follows a backslash. Without Unicode, sets that reach beyond ASCII are refused, and so is a
byte beyond ASCII given by two digits. -/
def readEscape (mode : Mode) (cs : List Char) : Option (Atom × List Char) :=
  match cs with
  | [] => none
  | c :: rest =>
    if isPlainEscape c then some (.literal c, rest)
    else if c = 'x' then
      match readNumbered mode 2 rest with
      | some (d, rest') =>
        if !mode.unicode && 0x80 ≤ d.val && (mode.skip rest).head? != some '{' then none
        else some (.literal d, rest')
      | none => none
    else if c = 'u' then (readNumbered mode 4 rest).map fun (d, rest') => (.literal d, rest')
    else if c = 'U' then (readNumbered mode 8 rest).map fun (d, rest') => (.literal d, rest')
    else if c = 'p' || c = 'P' then
      if mode.unicode then
        (readProperty mode (c = 'P') rest).map fun (set, rest') => (.set set, rest')
      else none
    else if c = 'b' then
      (readBoundary mode rest).map fun (kind, rest') => (.assertion kind, rest')
    else
      match control? c, assertion? c, letterClass? c with
      | some d, _, _ => some (.literal d, rest)
      | none, some kind, _ => some (.assertion kind, rest)
      | none, none, some (name, false) => some (.set (.letter name), rest)
      | none, none, some (name, true) =>
        if mode.unicode then some (.set (.complement (.letter name)), rest) else none
      | none, none, none => none

theorem length_le_of_readFixed {mode : Mode} {count : Nat} {cs taken rest : List Char}
    (h : readFixed mode count cs = some (taken, rest)) : rest.length ≤ cs.length := by
  induction count generalizing cs taken with
  | zero => simp only [readFixed, Option.some.injEq, Prod.mk.injEq] at h; simp [h.2]
  | succ count ih =>
    cases cs with
    | nil => simp [readFixed] at h
    | cons c cs =>
      obtain ⟨p, hp, he⟩ := Option.map_eq_some_iff.1 h
      simp only [Prod.mk.injEq] at he
      have := @ih _ p.1 (by rw [hp, ← he.2])
      have := mode.length_skip_le cs
      simp only [List.length_cons]
      omega

theorem length_lt_of_readBraced {mode : Mode} {cs taken rest : List Char}
    (h : readBraced mode cs = some (taken, rest)) : rest.length < cs.length := by
  fun_induction readBraced mode cs generalizing taken with
  | case1 => simp at h
  | case2 cs rest' hskip =>
    have := mode.length_skip_le cs
    simp only [Option.some.injEq, Prod.mk.injEq] at h
    rw [hskip, h.2] at this
    exact this
  | case3 cs c rest' hskip _ ih =>
    obtain ⟨p, hp, he⟩ := Option.map_eq_some_iff.1 h
    simp only [Prod.mk.injEq] at he
    have := @ih p.1 (by rw [hp, ← he.2])
    have := mode.length_skip_le cs
    rw [hskip, List.length_cons] at this
    omega

theorem length_le_of_readNumbered {mode : Mode} {count : Nat} {cs rest : List Char} {d : Char}
    (h : readNumbered mode count cs = some (d, rest)) : rest.length ≤ cs.length := by
  have hskip := mode.length_skip_le cs
  unfold readNumbered at h
  split at h
  · next hcs =>
    split at h
    · next hb =>
      have := length_lt_of_readBraced hb
      simp only [Option.map_eq_some_iff, Prod.mk.injEq] at h
      obtain ⟨_, _, _, rfl⟩ := h
      rw [hcs, List.length_cons] at hskip
      omega
    · simp at h
  · split at h
    · next hf =>
      have := length_le_of_readFixed hf
      simp only [Option.map_eq_some_iff, Prod.mk.injEq] at h
      obtain ⟨_, _, _, rfl⟩ := h
      omega
    · simp at h

theorem length_le_of_readProperty {mode : Mode} {negated : Bool} {cs rest : List Char}
    {set : CharSet} (h : readProperty mode negated cs = some (set, rest)) :
    rest.length ≤ cs.length := by
  have hskip := mode.length_skip_le cs
  unfold readProperty at h
  simp only at h
  split at h
  · simp at h
  · next hcs =>
    rw [hcs, List.length_cons] at hskip
    split at h
    · split at h
      · next hb =>
        have := length_lt_of_readBraced hb
        simp only [Option.map_eq_some_iff, Prod.mk.injEq] at h
        obtain ⟨_, _, _, rfl⟩ := h
        omega
      · simp at h
    · split at h
      · simp at h
      · simp only [Option.map_eq_some_iff, Prod.mk.injEq] at h
        obtain ⟨_, _, _, rfl⟩ := h
        omega

theorem length_le_of_readBoundary {mode : Mode} {cs rest : List Char} {kind : Assertion}
    (h : readBoundary mode cs = some (kind, rest)) : rest.length ≤ cs.length := by
  unfold readBoundary at h
  split at h
  · split at h
    · simp at h
    · split at h
      · split at h
        · next hb =>
          have := length_lt_of_readBraced hb
          simp only [Option.map_eq_some_iff, Prod.mk.injEq] at h
          obtain ⟨_, _, _, rfl⟩ := h
          simp only [List.length_cons]
          omega
        · simp at h
      · simp_all
  · simp_all

/-- An escape takes at least the character after the backslash. -/
theorem length_lt_of_readEscape {mode : Mode} {cs rest : List Char} {atom : Atom}
    (h : readEscape mode cs = some (atom, rest)) : rest.length < cs.length := by
  unfold readEscape at h
  split at h
  · simp at h
  · simp only [List.length_cons, Nat.lt_succ_iff]
    repeat' split at h
    all_goals try simp only [Option.map_eq_some_iff, Prod.mk.injEq, Option.some.injEq,
      reduceCtorEq] at h
    all_goals first
      | exact Nat.le_of_eq (congrArg List.length h.2.symm)
      | (obtain ⟨_, hp, _, rfl⟩ := h; exact length_le_of_readNumbered hp)
      | (obtain ⟨_, hp, _, rfl⟩ := h; exact length_le_of_readProperty hp)
      | (obtain ⟨_, hp, _, rfl⟩ := h; exact length_le_of_readBoundary hp)
      | (obtain ⟨_, rfl⟩ := h; exact length_le_of_readNumbered ‹_›)

end TraefikUpgrade.Regex
