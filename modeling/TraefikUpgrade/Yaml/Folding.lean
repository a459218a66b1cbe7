/-
# Folding the lines of a scalar

Where a plain or quoted scalar goes on in the next line, the line end and the blanks around it become
one space; if lines between are empty, their line ends are kept instead. `Folded` holds the text read so
far and the blanks and line ends after it, whose meaning only the next character decides.

Key definitions: `Folded`, `Folded.push`, `Folded.settled`.
-/
import TraefikUpgrade.Yaml.Character

namespace TraefikUpgrade.Yaml

/-- The text of a scalar that is being read; each list has its last character first. -/
structure Folded where
  text : List Char := []
  blanks : List Char := []
  /-- Whether a line has ended since the last character. -/
  broken : Bool := false
  /-- The first line end since the last character; there is none if it was escaped. -/
  firstBreak : List Char := []
  moreBreaks : List Char := []
deriving DecidableEq, Repr

namespace Folded

/-- Decides what the blanks and line ends after the text stand for. -/
def settled (f : Folded) : Folded :=
  if f.broken then
    if f.firstBreak = ['\n'] then
      if f.moreBreaks.isEmpty then { text := ' ' :: f.text } else { text := f.moreBreaks ++ f.text }
    else { text := f.moreBreaks ++ (f.firstBreak ++ f.text) }
  else { text := f.blanks ++ f.text }

/-- Adds a character of the text. -/
def push (f : Folded) (c : Char) : Folded := { text := c :: f.settled.text }

/-- Adds a blank. At the start of a line it means nothing. -/
def addBlank (f : Folded) (c : Char) : Folded :=
  if f.broken then f else { f with blanks := c :: f.blanks }

/-- Adds a line end. -/
def addBreak (f : Folded) (c : Char) : Folded :=
  if f.broken then { f with moreBreaks := c :: f.moreBreaks }
  else { f with blanks := [], broken := true, firstBreak := [c] }

/-- Adds a line end that was escaped, which joins two lines without a space. -/
def addEscapedBreak (f : Folded) : Folded := { text := f.settled.text, broken := true }

/-- Whether blanks or line ends wait for the next character. -/
def isPending (f : Folded) : Bool := f.broken || !f.blanks.isEmpty

end Folded

end TraefikUpgrade.Yaml
