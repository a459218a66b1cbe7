/-
# Plain scalars

A plain scalar ends before a colon or a comment that stands apart, before a line that is indented less,
and in a flow collection before an indicator of it.

Key definition: `readPlain`.
-/
import TraefikUpgrade.Yaml.Folding

namespace TraefikUpgrade.Yaml

/-- Whether a colon in a flow collection is followed by an indicator, which is an error. -/
def isGluedColon : List Char → Bool
  | c :: _ => [',', '?', '[', ']', '{', '}'].contains c
  | [] => false

/-- Whether a character ends a plain scalar in a flow collection. -/
def endsFlowScalar (c : Char) : Bool := [',', '[', ']', '{', '}'].contains c

/-- Reads a plain scalar from the given place on: what has been read, with the line ends after it, and
the place and text where it ends. `indent` is the least column of further lines outside of flow
collections. -/
def readPlain (flow : Bool) (indent : Int) (place : Position) (f : Folded) (cs : List Char) :
    Option (Folded × Position × List Char) :=
  match cs with
  | [] => some (f, place, [])
  | c :: rest =>
    if isBlank c then
      if f.broken && place.column < indent && c == '\t' then none
      else readPlain flow indent (place.forward 1) (f.addBlank c) rest
    else if isBreak c then
      readPlain flow indent place.newLine (f.addBreak (readBreak c rest).1) (readBreak c rest).2
    else if f.isPending && ((!flow && place.column < indent) ||
        (place.column == 0 && isMarker (c :: rest)) || c == '#') then some (f, place, c :: rest)
    else if flow && c == ':' && isGluedColon rest then none
    else if (c == ':' && endsWord rest) || (flow && endsFlowScalar c) then
      some (f, place, c :: rest)
    else readPlain flow indent (place.forward 1) (f.push c) rest
termination_by cs.length
decreasing_by
  · simp
  · have := length_readBreak_le c rest
    simp only [List.length_cons]
    omega
  · simp

end TraefikUpgrade.Yaml
