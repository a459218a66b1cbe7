/-
# Block scalars

A block scalar begins with a header: how its lines are joined, what becomes of the line ends after it,
and perhaps its indentation, which is otherwise that of its first line with text. Its lines are kept
(`|`) or folded (`>`), and it ends before the first line that is indented less.

Key definitions: `Chomping`, `readHeader`, `readBlock`.
-/
import TraefikUpgrade.Yaml.Character

namespace TraefikUpgrade.Yaml

/-- What becomes of the line ends at the end of a block scalar. -/
inductive Chomping where
  | strip
  | clip
  | keep
deriving DecidableEq, Repr

/-- The chomping of an indicator. -/
def chomping? (c : Char) : Option Chomping :=
  if c = '+' then some .keep else if c = '-' then some .strip else none

/-- The indicators of a header in either order; an indentation of zero is an error. -/
def readIndicators (cs : List Char) : Option (Chomping × Nat × List Char) :=
  match cs with
  | [] => some (.clip, 0, [])
  | c :: rest =>
    match chomping? c with
    | some chomping =>
      match rest with
      | d :: rest' =>
        if d = '0' then none
        else if d.isDigit then some (chomping, d.toNat - 48, rest')
        else some (chomping, 0, d :: rest')
      | [] => some (chomping, 0, [])
    | none =>
      if c = '0' then none
      else if c.isDigit then
        match rest with
        | d :: rest' =>
          match chomping? d with
          | some chomping => some (chomping, c.toNat - 48, rest')
          | none => some (.clip, c.toNat - 48, d :: rest')
        | [] => some (.clip, c.toNat - 48, [])
      else some (.clip, 0, c :: rest)

/-- Passes over the rest of a line that may hold blanks and a comment alone, and over its end. -/
def endLine (cs : List Char) : Option (List Char) :=
  let rest := cs.dropWhile isBlank
  let rest := if rest.head? = some '#' then rest.dropWhile (!isBreak ·) else rest
  match rest with
  | [] => some []
  | c :: rest => if isBreak c then some (readBreak c rest).2 else none

/-- A header after its first indicator. -/
def readHeader (cs : List Char) : Option (Chomping × Nat × List Char) :=
  match readIndicators cs with
  | none => none
  | some (chomping, increment, rest) => (endLine rest).map fun rest => (chomping, increment, rest)

/-- What stands between two lines of a block scalar. -/
structure Gap where
  /-- The ends of empty lines, the last one first. -/
  breaks : List Char := []
  /-- The column of the next line's text. -/
  column : Nat := 0
  /-- The greatest indentation met. -/
  widest : Nat := 0
deriving DecidableEq, Repr

/-- Passes over the indentation of lines and the ends of empty ones. With an indentation of zero, which
stands for one still unknown, all spaces count. A tab within the indentation is an error. -/
def readGap (indent : Nat) (gap : Gap) (cs : List Char) : Option (Gap × List Char) :=
  match cs with
  | [] => some ({ gap with widest := max gap.widest gap.column }, [])
  | c :: rest =>
    let inside := indent = 0 ∨ gap.column < indent
    if inside ∧ c = ' ' then readGap indent { gap with column := gap.column + 1 } rest
    else if inside ∧ c = '\t' then none
    else if isBreak c then
      readGap indent
        ⟨(readBreak c rest).1 :: gap.breaks, 0, max gap.widest gap.column⟩ (readBreak c rest).2
    else some ({ gap with widest := max gap.widest gap.column }, c :: rest)
termination_by cs.length
decreasing_by
  · simp
  · have := length_readBreak_le c rest
    simp only [List.length_cons]
    omega

theorem length_le_of_readGap {indent : Nat} {gap gap' : Gap} {cs rest : List Char}
    (h : readGap indent gap cs = some (gap', rest)) : rest.length ≤ cs.length := by
  fun_induction readGap indent gap cs <;> grind [length_readBreak_le]

/-- What has been read of a block scalar; the lists have their last character first. -/
structure BlockText where
  text : List Char := []
  lineBreak : List Char := []
  gap : List Char := []
  /-- Whether the last line began with a blank. -/
  indented : Bool := false
deriving DecidableEq, Repr

namespace BlockText

/-- Adds a line. When folding, a single line end between lines that do not begin with a blank becomes a
space, and of several the first one is left out. -/
def addLine (b : BlockText) (folded : Bool) (line lineBreak gap : List Char) : BlockText :=
  let indented := line.head?.any isBlank
  let lead := if folded && b.lineBreak == ['\n'] && !b.indented && !indented then
      if b.gap.isEmpty then [' '] else []
    else b.lineBreak
  { text := line.reverse ++ (b.gap ++ (lead ++ b.text)), lineBreak, gap, indented }

/-- The whole text. -/
def close (b : BlockText) : Chomping → List Char
  | .strip => b.text.reverse
  | .clip => (b.lineBreak ++ b.text).reverse
  | .keep => (b.gap ++ (b.lineBreak ++ b.text)).reverse

end BlockText

/-- Reads the lines of a block scalar of the given indentation; the first one begins at `column`. The
answer has the column where the text after the scalar begins. -/
def readLines (folded : Bool) (indent column : Nat) (b : BlockText) (cs : List Char) :
    Option (BlockText × Nat × List Char) :=
  if column = indent then
    match _hl : cs.dropWhile (!isBreak ·) with
    | [] =>
      if cs.isEmpty then some (b, column, [])
      else some (b.addLine folded cs [] [], column, [])
    | c :: after =>
      match _h : readGap indent {} (readBreak c after).2 with
      | none => none
      | some (gap, rest) =>
        readLines folded indent gap.column
          (b.addLine folded (cs.takeWhile (!isBreak ·)) [(readBreak c after).1] gap.breaks) rest
  else some (b, column, cs)
termination_by cs.length
decreasing_by
  have h₁ := (List.dropWhile_sublist (p := (!isBreak ·)) (l := cs)).length_le
  have h₂ := length_readBreak_le c after
  have h₃ := length_le_of_readGap _h
  rw [_hl, List.length_cons] at h₁
  omega

/-- Reads a block scalar after its first indicator: its text, and the column and text where the next
line begins. `outer` is the indentation around it. -/
def readBlock (folded : Bool) (outer : Int) (cs : List Char) :
    Option (List Char × Nat × List Char) :=
  match readHeader cs with
  | none => none
  | some (chomping, increment, rest) =>
    let given := if increment = 0 then 0
      else if 0 ≤ outer then outer.toNat + increment else increment
    match readGap given {} rest with
    | none => none
    | some (gap, rest) =>
      let indent := if given = 0 then max gap.widest (max (outer + 1).toNat 1) else given
      match readLines folded indent gap.column { gap := gap.breaks } rest with
      | none => none
      | some (b, column, rest) => some (b.close chomping, column, rest)

end TraefikUpgrade.Yaml
