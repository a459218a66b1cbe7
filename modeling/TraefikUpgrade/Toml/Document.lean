/-
# Flat TOML documents

Settings are truth values, texts and lists of texts, one for a key. A document with tables, numbers or
dates holds no settings, so such documents are not read at all.

Key definitions: `Value`, `Document`, `read?`.
-/
import TraefikUpgrade.Toml.Quoted

namespace TraefikUpgrade.Toml

/-- A value of a setting. -/
inductive Value where
  | bool (b : Bool)
  | text (s : String)
  | texts (items : List String)
deriving DecidableEq, Repr

/-- The keys and values of a document, in the order in which they are written. -/
abbrev Document := List (String × Value)

/-- What follows blanks, line ends and comments. A comment goes to the end of its line. -/
def skipVoid? (inComment : Bool) : List Char → Option (List Char)
  | [] => some []
  | '\n' :: rest => skipVoid? false rest
  | '\r' :: '\n' :: rest => skipVoid? false rest
  | c :: rest =>
    if inComment then if isLineChar c then skipVoid? true rest else none
    else if c = '#' then skipVoid? true rest
    else if isBlank c then skipVoid? false rest
    else some (c :: rest)

theorem length_le_of_skipVoid? {inComment : Bool} {cs rest : List Char}
    (h : skipVoid? inComment cs = some rest) : rest.length ≤ cs.length := by
  fun_induction skipVoid? inComment cs <;> grind

/-- What follows the end of a line, before which there may be blanks and a comment. -/
def skipLineEnd? (inComment : Bool) : List Char → Option (List Char)
  | [] => some []
  | '\n' :: rest => some rest
  | '\r' :: '\n' :: rest => some rest
  | c :: rest =>
    if inComment then if isLineChar c then skipLineEnd? true rest else none
    else if c = '#' then skipLineEnd? true rest
    else if isBlank c then skipLineEnd? false rest
    else none

/-- Reads the items of a list up to the closing bracket. A comma may follow the last one. -/
def readItems? (cs : List Char) : Option (List String × List Char) :=
  match _h : skipVoid? false cs with
  | none => none
  | some (']' :: rest) => some ([], rest)
  | some cs' =>
    match _h' : readText? cs' with
    | none => none
    | some (item, rest) =>
      match _h'' : skipVoid? false rest with
      | some (',' :: rest) =>
        (readItems? rest).map fun r => (String.ofList item :: r.1, r.2)
      | some (']' :: rest) => some ([String.ofList item], rest)
      | _ => none
termination_by cs.length
decreasing_by
  have h₁ := length_le_of_skipVoid? _h
  have h₂ := length_lt_of_readText? _h'
  have h₃ := length_le_of_skipVoid? _h''
  simp only [List.length_cons] at h₂ h₃
  omega

/-- Whether a character may stand in a key without quotes. -/
def isKeyChar (c : Char) : Bool := c.isAlphanum || c == '_' || c == '-'

/-- Reads a key, which may be a text in one line. -/
def readKey? (cs : List Char) : Option (String × List Char) :=
  match cs with
  | [] => none
  | c :: rest =>
    if c = '\x22' ∨ c = '\x27' then (readShort? c rest).map fun r => (String.ofList r.1, r.2)
    else
      let key := cs.takeWhile isKeyChar
      if key.isEmpty then none else some (String.ofList key, cs.dropWhile isKeyChar)

/-- Reads a value. -/
def readValue? (cs : List Char) : Option (Value × List Char) :=
  match cs with
  | 't' :: 'r' :: 'u' :: 'e' :: rest => some (.bool true, rest)
  | 'f' :: 'a' :: 'l' :: 's' :: 'e' :: rest => some (.bool false, rest)
  | '[' :: rest => (readItems? rest).map fun r => (.texts r.1, r.2)
  | cs => (readText? cs).map fun r => (.text (String.ofList r.1), r.2)

/-- Reads a key, an equals sign, a value and the end of the line. -/
def readEntry? (cs : List Char) : Option ((String × Value) × List Char) := do
  let (key, rest) ← readKey? cs
  match rest.dropWhile isBlank with
  | '=' :: rest =>
    let (value, rest) ← readValue? (rest.dropWhile isBlank)
    return ((key, value), ← skipLineEnd? false rest)
  | _ => none

/-- Reads the entries of a document, of which each takes at least one of `count` characters. -/
def readEntries? : (count : Nat) → List Char → Option Document
  | 0, cs => if cs.isEmpty then some [] else none
  | count + 1, cs =>
    match skipVoid? false cs with
    | none => none
    | some [] => some []
    | some cs =>
      match readEntry? cs with
      | none => none
      | some (entry, rest) => (readEntries? count rest).map (entry :: ·)

/-- Reads a document, which may begin with a byte order mark. A key must not be given twice. -/
def read? (text : String) : Option Document :=
  let cs := match text.toList with
    | '\ufeff' :: cs => cs
    | cs => cs
  (readEntries? cs.length cs).filter fun entries => decide (entries.map Prod.fst).Nodup

end TraefikUpgrade.Toml
