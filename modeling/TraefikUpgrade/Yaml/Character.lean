/-
# Characters of a YAML stream

Spaces and tabs are blanks; the line feed, the carriage return, the next-line character and the two
separators end a line. A carriage return and a line feed together are one line end. Most control
characters must not occur at all.

Key definitions: `isAllowed`, `isBlank`, `isBreak`, `endsWord`, `readBreak`.
-/
namespace TraefikUpgrade.Yaml

/-- Whether a character may occur in a stream. -/
def isAllowed (c : Char) : Bool :=
  let n := c.toNat
  n == 0x9 || n == 0xA || n == 0xD || (0x20 ≤ n && n ≤ 0x7E) || n == 0x85 ||
    (0xA0 ≤ n && n ≤ 0xFFFD) || 0x10000 ≤ n

/-- Whether a character is a space or a tab. -/
def isBlank (c : Char) : Bool := c == ' ' || c == '\t'

/-- Whether a character ends a line. -/
def isBreak (c : Char) : Bool :=
  c == '\n' || c == '\r' || c == '\x85' || c == '\u2028' || c == '\u2029'

/-- Whether a text begins with a blank or a line end, or is at its end. -/
def endsWord : List Char → Bool
  | [] => true
  | c :: _ => isBlank c || isBreak c

/-- Whether a character may stand in a name of an anchor, a directive or a tag handle. -/
def isNameChar (c : Char) : Bool := c.isAlphanum || c == '_' || c == '-'

/-- Whether a line begins with three characters of the given kind and then a blank or its end. -/
def isMarkerOf (mark : Char) : List Char → Bool
  | a :: b :: c :: rest => a == mark && b == mark && c == mark && endsWord rest
  | _ => false

/-- Whether a line begins with a document marker. -/
def isMarker (cs : List Char) : Bool := isMarkerOf '-' cs || isMarkerOf '.' cs

/-- The line end that `c` begins, in the form in which a scalar keeps it, and what follows: all but the
two separators become a line feed. -/
def readBreak (c : Char) (cs : List Char) : Char × List Char :=
  match c, cs with
  | '\r', '\n' :: rest => ('\n', rest)
  | c, rest => (if c = '\u2028' ∨ c = '\u2029' then c else '\n', rest)

theorem length_readBreak_le (c : Char) (cs : List Char) :
    (readBreak c cs).2.length ≤ cs.length := by
  unfold readBreak
  split <;> simp

/-- A place in a stream: the lines ended before, and the characters before in the line. -/
structure Position where
  line : Nat := 0
  column : Nat := 0
deriving DecidableEq, Repr

namespace Position

/-- The place after `count` characters of a line. -/
def forward (p : Position) (count : Nat) : Position := { p with column := p.column + count }

/-- The place after a line end. -/
def newLine (p : Position) : Position := ⟨p.line + 1, 0⟩

end Position

end TraefikUpgrade.Yaml
