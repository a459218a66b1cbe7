/-
# Templates of matcher arguments

An argument of a version 2 matcher may hold placeholders in braces, `name` or `name:pattern`, with text
around them. Only braces outside of other braces delimit a placeholder, so a pattern may hold braces of
its own as long as they pair up.

`cutBraces` splits a text into the pieces outside and inside of its outermost braces, and
`Template.parse` reads the inner pieces as placeholders.

Key definitions: `cutBraces`, `Placeholder`, `Template`, `Template.parse`, `hasMetacharacter`.
-/
import TraefikUpgrade.Text.Cut
import TraefikUpgrade.Text.Quoted

namespace TraefikUpgrade.Rule

/-- A piece of a template: text outside all braces, or what stands inside an outermost pair. -/
inductive Piece where
  | plain (text : List Char)
  | braced (inner : List Char)
deriving DecidableEq, Repr

/-- The text of a piece, braces included. -/
def Piece.source : Piece → List Char
  | .plain text => text
  | .braced inner => '{' :: inner ++ ['}']

/-- Cuts a text at its outermost braces; `depth` braces are open, and `current` holds the piece read so
far, last character first. There is no answer if the braces do not pair up. -/
def cutBracesFrom : (depth : Nat) → (current : List Char) → List Char → Option (List Piece)
  | 0, current, [] => some [.plain current.reverse]
  | _ + 1, _, [] => none
  | 0, current, c :: cs =>
    if c = '{' then (cutBracesFrom 1 [] cs).map (.plain current.reverse :: ·)
    else if c = '}' then none
    else cutBracesFrom 0 (c :: current) cs
  | 1, current, c :: cs =>
    if c = '}' then (cutBracesFrom 0 [] cs).map (.braced current.reverse :: ·)
    else if c = '{' then cutBracesFrom 2 (c :: current) cs
    else cutBracesFrom 1 (c :: current) cs
  | depth + 2, current, c :: cs =>
    if c = '}' then cutBracesFrom (depth + 1) (c :: current) cs
    else if c = '{' then cutBracesFrom (depth + 3) (c :: current) cs
    else cutBracesFrom (depth + 2) (c :: current) cs

/-- The pieces of a text, plain and braced in turn, or nothing if its braces do not pair up. -/
def cutBraces (cs : List Char) : Option (List Piece) := cutBracesFrom 0 [] cs

/-- A placeholder with the byte offsets of its opening brace and of the character after the closing
one. -/
structure Placeholder where
  name : String
  pattern : Option String
  start : Nat
  stop : Nat
deriving DecidableEq, Repr

namespace Template

/-- Why a text is no template. -/
inductive Fault where
  | unbalancedBraces (template : String)
  | missingPart (placeholder : String)
deriving DecidableEq, Repr

def Fault.message : Fault → String
  | .unbalancedBraces template => "Unbalanced braces in template " ++ Text.quoted template
  | .missingPart placeholder => "Missing name or pattern in placeholder " ++ Text.quoted placeholder

/-- A segment of a template: text that stands for itself, or a placeholder. -/
inductive Segment where
  | literal (text : String)
  | placeholder (placeholder : Placeholder)
deriving DecidableEq, Repr

/-- Reads the inside of a pair of braces: a name, and after a colon a pattern; neither may be empty. -/
def readPlaceholder (inner : List Char) : Except Fault (String × Option String) :=
  let missing := Except.error (.missingPart (String.ofList (Piece.braced inner).source))
  match Text.cutAt ':' inner with
  | none => if inner.isEmpty then missing else .ok (String.ofList inner, none)
  | some (name, pattern) =>
    if name.isEmpty || pattern.isEmpty then missing
    else .ok (String.ofList name, some (String.ofList pattern))

/-- The segments of a list of pieces of which the first starts at the byte `offset`. -/
def segmentsFrom (offset : Nat) : List Piece → Except Fault (List Segment)
  | [] => .ok []
  | .plain text :: pieces => do
    let rest ← segmentsFrom (offset + Text.utf8Length text) pieces
    return .literal (String.ofList text) :: rest
  | .braced inner :: pieces => do
    let (name, pattern) ← readPlaceholder inner
    let stop := offset + Text.utf8Length inner + 2
    let rest ← segmentsFrom stop pieces
    return .placeholder ⟨name, pattern, offset, stop⟩ :: rest

end Template

/-- A text with placeholders. -/
structure Template where
  source : String
  segments : List Template.Segment
deriving DecidableEq, Repr

namespace Template

/-- Reads a template: its braces must pair up, and every placeholder must have a name, and a pattern
after a colon. -/
def parse (source : String) : Except Fault Template :=
  match cutBraces source.toList with
  | none => .error (.unbalancedBraces source)
  | some pieces => (segmentsFrom 0 pieces).map (⟨source, ·⟩)

/-- The placeholders of a template, in order. -/
def placeholders (t : Template) : List Placeholder :=
  t.segments.filterMap fun
    | .literal _ => none
    | .placeholder p => some p

end Template

/-- The characters that make an argument of a version 2 matcher a template. -/
def metacharacters : List Char := ['*', '+', '?', '(', ')', '|', '{', '}', '[', ']', '\\']

/-- Whether a text is read as a template rather than taken as it is. -/
def hasMetacharacter (value : String) : Bool := value.toList.any metacharacters.contains

end TraefikUpgrade.Rule
