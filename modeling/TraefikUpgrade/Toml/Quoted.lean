/-
# Texts in a TOML document

A text stands between double quotes, in which a backslash escapes, or between single quotes, in which
nothing does. Between three quotes it may go over several lines; a line end right after the first quotes
does not count, and a backslash at the end of a line joins it with what follows the blanks after it.

Key definitions: `readText?`, and `readShort?`, `readLong?` for the two lengths.
-/
import TraefikUpgrade.Text.Hexadecimal

namespace TraefikUpgrade.Toml

/-- Whether a character may stand in a line. -/
def isLineChar (c : Char) : Bool := c == '\t' || (' ' ≤ c && c != '\x7f')

/-- Whether a character is a space or a tab. -/
def isBlank (c : Char) : Bool := c == ' ' || c == '\t'

/-- The character that hexadecimal digits stand for. -/
def codePoint? (digits : List Char) : Option Char := (Text.hexNumber? digits).bind Text.charOf?

/-- The character for which a letter stands after a backslash. -/
def escapeLetter? (c : Char) : Option Char :=
  [('b', '\x08'), ('t', '\t'), ('n', '\n'), ('f', '\x0c'), ('r', '\r'), ('e', '\x1b'),
    ('\x22', '\x22'), ('\\', '\\')].lookup c

/-- Reads what follows a backslash. -/
def readEscape? : List Char → Option (Char × List Char)
  | 'x' :: a :: b :: rest => (codePoint? [a, b]).map (·, rest)
  | 'u' :: a :: b :: c :: d :: rest => (codePoint? [a, b, c, d]).map (·, rest)
  | 'U' :: a :: b :: c :: d :: e :: f :: g :: h :: rest =>
    (codePoint? [a, b, c, d, e, f, g, h]).map (·, rest)
  | c :: rest => (escapeLetter? c).map (·, rest)
  | [] => none

theorem length_lt_of_readEscape? {cs : List Char} {r : Char × List Char}
    (h : readEscape? cs = some r) : r.2.length < cs.length := by
  unfold readEscape? at h
  split at h <;> simp only [Option.map_eq_some_iff, reduceCtorEq] at h <;>
    obtain ⟨_, _, rfl⟩ := h <;> simp only [List.length_cons] <;> omega

/-- Reads up to the quote that ends a text in one line. -/
def readShort? (quote : Char) (cs : List Char) : Option (List Char × List Char) :=
  match cs with
  | [] => none
  | c :: rest =>
    if c = quote then some ([], rest)
    else if quote = '\x22' ∧ c = '\\' then
      match _h : readEscape? rest with
      | none => none
      | some (c, rest) => (readShort? quote rest).map fun r => (c :: r.1, r.2)
    else if isLineChar c then (readShort? quote rest).map fun r => (c :: r.1, r.2)
    else none
termination_by cs.length
decreasing_by
  · have := length_lt_of_readEscape? _h; simp only [List.length_cons] at this ⊢; omega
  · simp

theorem length_lt_of_readShort? {quote : Char} {cs : List Char} {r : List Char × List Char}
    (h : readShort? quote cs = some r) : r.2.length < cs.length := by
  fun_induction readShort? quote cs generalizing r with
  | case1 => simp at h
  | case2 => grind
  | case3 => simp at h
  | case4 c rest _ _ _ rest' he ih =>
    obtain ⟨r', hr', rfl⟩ := Option.map_eq_some_iff.1 h
    have := ih hr'
    have := length_lt_of_readEscape? he
    simp only [List.length_cons] at *
    omega
  | case5 c rest _ _ _ ih =>
    obtain ⟨r', hr', rfl⟩ := Option.map_eq_some_iff.1 h
    have := ih hr'
    simp only [List.length_cons]
    omega
  | case6 => simp at h

/-- What follows a line end, if a text begins with one. -/
def dropNewline? : List Char → Option (List Char)
  | '\n' :: rest => some rest
  | '\r' :: '\n' :: rest => some rest
  | _ => none

theorem length_lt_of_dropNewline? {cs rest : List Char} (h : dropNewline? cs = some rest) :
    rest.length < cs.length := by
  unfold dropNewline? at h
  split at h <;> grind

/-- What follows the blanks and line ends at the beginning. -/
def dropSpace (cs : List Char) : List Char :=
  cs.dropWhile fun c => isBlank c || c == '\n' || c == '\r'

/-- What follows a backslash at the end of a line. -/
def joinLine? (cs : List Char) : Option (List Char) :=
  (dropNewline? (cs.dropWhile isBlank)).map dropSpace

theorem length_lt_of_joinLine? {cs rest : List Char} (h : joinLine? cs = some rest) :
    rest.length < cs.length := by
  obtain ⟨r, hr, rfl⟩ := Option.map_eq_some_iff.1 h
  have h₁ := length_lt_of_dropNewline? hr
  have h₂ : (cs.dropWhile isBlank).length ≤ cs.length := (List.dropWhile_sublist _).length_le
  have h₃ : (dropSpace r).length ≤ r.length := (List.dropWhile_sublist _).length_le
  omega

/-- Reads up to the three quotes that end a text over lines. One quote or two more belong to the
text. -/
def readLong? (quote : Char) (cs : List Char) : Option (List Char × List Char) :=
  match cs with
  | [] => none
  | c :: rest =>
    if c = quote ∧ rest.take 2 = [quote, quote] then
      let more := ((rest.drop 2).takeWhile (· == quote)).take 2
      some (more, rest.drop (2 + more.length))
    else if quote = '\x22' ∧ c = '\\' then
      match _h : joinLine? rest, _h' : readEscape? rest with
      | some rest, _ => readLong? quote rest
      | none, some (c, rest) => (readLong? quote rest).map fun r => (c :: r.1, r.2)
      | none, none => none
    else if isLineChar c || c == '\n' || (c == '\r' && rest.head? == some '\n') then
      (readLong? quote rest).map fun r => (c :: r.1, r.2)
    else none
termination_by cs.length
decreasing_by
  · have := length_lt_of_joinLine? _h; simp only [List.length_cons]; omega
  · have := length_lt_of_readEscape? _h'; simp only [List.length_cons] at this ⊢; omega
  · simp

theorem length_lt_of_readLong? {quote : Char} {cs : List Char} {r : List Char × List Char}
    (h : readLong? quote cs = some r) : r.2.length < cs.length := by
  fun_induction readLong? quote cs generalizing r with
  | case1 => simp at h
  | case2 => grind
  | case3 c rest _ _ rest' he ih =>
    have := ih h
    have := length_lt_of_joinLine? he
    simp only [List.length_cons] at *
    omega
  | case4 c rest _ _ _ _ rest' he ih =>
    obtain ⟨r', hr', rfl⟩ := Option.map_eq_some_iff.1 h
    have := ih hr'
    have := length_lt_of_readEscape? he
    simp only [List.length_cons] at *
    omega
  | case5 => simp at h
  | case6 c rest _ _ _ ih =>
    obtain ⟨r', hr', rfl⟩ := Option.map_eq_some_iff.1 h
    have := ih hr'
    simp only [List.length_cons]
    omega
  | case7 => simp at h

/-- Reads a text. -/
def readText? (cs : List Char) : Option (List Char × List Char) :=
  match cs with
  | quote :: rest =>
    if quote = '\x22' ∨ quote = '\x27' then
      if rest.take 2 = [quote, quote] then
        readLong? quote ((dropNewline? (rest.drop 2)).getD (rest.drop 2))
      else readShort? quote rest
    else none
  | [] => none

theorem length_lt_of_readText? {cs : List Char} {r : List Char × List Char}
    (h : readText? cs = some r) : r.2.length < cs.length := by
  unfold readText? at h
  split at h
  · next quote rest =>
    have h₁ : ((dropNewline? (rest.drop 2)).getD (rest.drop 2)).length ≤ rest.length := by
      cases he : dropNewline? (rest.drop 2) with
      | none => simp
      | some r =>
        have := length_lt_of_dropNewline? he
        simp only [List.length_drop] at this
        simp only [Option.getD_some]
        omega
    split at h
    · split at h
      · have := length_lt_of_readLong? h
        simp only [List.length_cons]
        omega
      · have := length_lt_of_readShort? h
        simp only [List.length_cons]
        omega
    · simp at h
  · simp at h

end TraefikUpgrade.Toml
