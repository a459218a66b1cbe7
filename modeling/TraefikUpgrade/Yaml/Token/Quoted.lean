/-
# Quoted scalars

Between single quotes, a quote is written twice and nothing else is special. Between double quotes, a
backslash begins an escape, which may also join two lines.

Key definitions: `escaped?`, `readQuoted`.
-/
import TraefikUpgrade.Text.Hexadecimal
import TraefikUpgrade.Yaml.Folding

namespace TraefikUpgrade.Yaml

/-- The character of a one-letter escape. -/
def escapeChar? (c : Char) : Option Char :=
  match c with
  | '0' => some '\x00'
  | 'a' => some '\x07'
  | 'b' => some '\x08'
  | 't' | '\t' => some '\t'
  | 'n' => some '\n'
  | 'v' => some '\x0b'
  | 'f' => some '\x0c'
  | 'r' => some '\r'
  | 'e' => some '\x1b'
  | ' ' => some ' '
  | '\x22' => some '\x22'
  | '/' => some '/'
  | '\\' => some '\\'
  | 'N' => some '\x85'
  | '_' => some '\xa0'
  | 'L' => some '\u2028'
  | 'P' => some '\u2029'
  | _ => none

/-- The number of digits of an escape that gives a character by its number; other escapes have none. -/
def escapeDigits (c : Char) : Nat :=
  match c with
  | 'x' => 2
  | 'u' => 4
  | 'U' => 8
  | _ => 0

/-- The character of an escape, of which `c` is the letter and `digits` the digits. -/
def escaped? (c : Char) (digits : List Char) : Option Char :=
  if escapeDigits c = 0 then escapeChar? c
  else if digits.length = escapeDigits c then (Text.hexNumber? digits).bind Text.charOf?
  else none

/-- Reads a quoted scalar after its opening quote: its text, and the place and text after the closing
quote. A document marker in it is an error. -/
def readQuoted (single : Bool) (place : Position) (f : Folded) (cs : List Char) :
    Option (List Char × Position × List Char) :=
  match cs with
  | [] => none
  | c :: rest =>
    if place.column == 0 && isMarker (c :: rest) then none
    else if isBlank c then readQuoted single (place.forward 1) (f.addBlank c) rest
    else if isBreak c then
      readQuoted single place.newLine (f.addBreak (readBreak c rest).1) (readBreak c rest).2
    else if single && c == '\x27' then
      match rest with
      | '\x27' :: rest => readQuoted single (place.forward 2) (f.push c) rest
      | rest => some (f.settled.text.reverse, place.forward 1, rest)
    else if !single && c == '\x22' then some (f.settled.text.reverse, place.forward 1, rest)
    else if !single && c == '\\' then
      match rest with
      | [] => none
      | d :: rest =>
        if isBreak d then readQuoted single place.newLine f.addEscapedBreak (readBreak d rest).2
        else
          match escaped? d (rest.take (escapeDigits d)) with
          | none => none
          | some e =>
            readQuoted single (place.forward (2 + escapeDigits d)) (f.push e)
              (rest.drop (escapeDigits d))
    else readQuoted single (place.forward 1) (f.push c) rest
termination_by cs.length
decreasing_by
  all_goals simp only [List.length_cons, List.length_drop]
  · omega
  · have := length_readBreak_le c rest
    omega
  · omega
  · have := length_readBreak_le d rest
    omega
  · omega
  · omega

end TraefikUpgrade.Yaml
