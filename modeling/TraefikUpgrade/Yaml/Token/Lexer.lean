/-
# Reading the tokens of a stream

The starts and ends of block collections are found by indentation: a deeper indicator opens one, a line
that is indented less closes those around it. Whether a token is a key is known only when a colon
follows in the same line, at most 1024 characters later; `Candidate` remembers where a key may have
begun, and its tokens are inserted there. There is one candidate for the block context and one for
each open flow collection.

`scan` gives the tokens up to the end of the stream, or up to the first token that cannot be given
because of an error after it.

Key definitions: `Candidate`, `Lexer`, `Lexer.next`, `scan`.
-/
import TraefikUpgrade.Yaml.Token.Plain
import TraefikUpgrade.Yaml.Token.Quoted
import TraefikUpgrade.Yaml.Token.Tag

namespace TraefikUpgrade.Yaml

/-- A place where a key may have begun: the number of its first token, and whether there must be
one. -/
structure Candidate where
  required : Bool
  number : Nat
  place : Position
deriving DecidableEq, Repr

/-- Whether a key that began at the place can no longer be meant. -/
def Candidate.isStale (c : Candidate) (place : Position) : Bool :=
  c.place.line < place.line || c.place.column + 1024 < place.column

/-- What has been read of a stream. -/
structure Lexer where
  rest : List Char
  place : Position := {}
  /-- The tokens read so far, the last one first. -/
  tokens : List Token := []
  count : Nat := 0
  /-- The column of the innermost block collection, and those of the ones around it. -/
  indent : Int := -1
  outer : List Int := []
  keyAllowed : Bool := true
  /-- The candidates, that of the innermost flow collection first and that of the block last. -/
  candidates : List (Option Candidate) := [none]
deriving DecidableEq, Repr

namespace Lexer

/-- Whether the next token is inside a flow collection. -/
def inFlow (s : Lexer) : Bool := 1 < s.candidates.length

/-- Adds a token. -/
def emit (s : Lexer) (token : Token) : Lexer :=
  { s with tokens := token :: s.tokens, count := s.count + 1 }

/-- Inserts a token so that it has the given number. -/
def insert (s : Lexer) (number : Nat) (token : Token) : Lexer :=
  let after := s.count - number
  { s with tokens := s.tokens.take after ++ token :: s.tokens.drop after, count := s.count + 1 }

/-- Moves on by `count` characters of the line. -/
def skip (s : Lexer) (count : Nat) : Lexer :=
  { s with rest := s.rest.drop count, place := s.place.forward count }

/-- Opens a block collection at the given column, unless the innermost one is at least as deep. The
token goes before the one with the given number. -/
def openBlock (s : Lexer) (column number : Nat) (token : Token) : Lexer :=
  if s.inFlow || (column : Int) ≤ s.indent then s
  else { s.insert number token with indent := column, outer := s.indent :: s.outer }

/-- Closes block collections, of columns given by `indent` and `outer`, that are deeper than `column`:
how many, and the columns that are left. -/
def closeBlocks (column : Int) (indent : Int) : List Int → Nat × Int × List Int
  | [] => (0, indent, [])
  | next :: outer =>
    if column < indent then
      let (closed, indent, outer) := closeBlocks column next outer
      (closed + 1, indent, outer)
    else (0, indent, next :: outer)

/-- Closes the block collections that are deeper than a column. -/
def unwind (s : Lexer) (column : Int) : Lexer :=
  if s.inFlow then s
  else
    let (closed, indent, outer) := closeBlocks column s.indent s.outer
    { s with
      tokens := List.replicate closed .blockEnd ++ s.tokens
      count := s.count + closed
      indent
      outer }

/-- Drops the candidates that are stale; one that had to be a key is an error. -/
def dropStale (s : Lexer) : Option Lexer := do
  let candidates ← s.candidates.mapM fun candidate? =>
    match candidate? with
    | some c => if c.isStale s.place then if c.required then none else some none else some (some c)
    | none => some none
  return { s with candidates }

/-- Drops the innermost candidate; one that had to be a key is an error. -/
def dropCandidate (s : Lexer) : Option Lexer :=
  match s.candidates with
  | some c :: outer => if c.required then none else some { s with candidates := none :: outer }
  | candidates => some { s with candidates }

/-- Makes the next token a candidate, if a key may stand there. In a block it must be one if it stands
where the block's entries begin. -/
def addCandidate (s : Lexer) : Option Lexer :=
  if s.keyAllowed then do
    let s ← s.dropCandidate
    let required := !s.inFlow && s.indent == (s.place.column : Int)
    return { s with candidates := some ⟨required, s.count, s.place⟩ :: s.candidates.drop 1 }
  else some s

/-- Passes over blanks, comments and line ends. In a block, a tab is a blank only where no key can
begin. A byte order mark may begin a line. -/
def skipBlanks (inFlow keyAllowed comment : Bool) (place : Position) (cs : List Char) :
    Bool × Position × List Char :=
  match cs with
  | [] => (keyAllowed, place, [])
  | c :: rest =>
    if isBreak c then
      skipBlanks inFlow (keyAllowed || !inFlow) false place.newLine (readBreak c rest).2
    else if comment || c == ' ' || (c == '\t' && (inFlow || !keyAllowed)) ||
        (c == '\ufeff' && place.column == 0) then
      skipBlanks inFlow keyAllowed comment (place.forward 1) rest
    else if c == '#' then skipBlanks inFlow keyAllowed true (place.forward 1) rest
    else (keyAllowed, place, c :: rest)
termination_by cs.length
decreasing_by
  · have := length_readBreak_le c rest
    simp only [List.length_cons]
    omega
  · simp
  · simp

/-- Moves to the next token and closes the blocks that end before it. -/
def approach (s : Lexer) : Option Lexer := do
  let (keyAllowed, place, rest) := skipBlanks s.inFlow s.keyAllowed false s.place s.rest
  let s ← { s with keyAllowed, place, rest }.dropStale
  return s.unwind s.place.column

/-- Reads a document marker. -/
def nextMarker (s : Lexer) (token : Token) : Option Lexer := do
  let s ← (s.unwind (-1)).dropCandidate
  return ({ s with keyAllowed := false }.skip 3).emit token

/-- Reads the end of the stream. -/
def nextEnd (s : Lexer) : Option Lexer := do
  let s ← (s.unwind (-1)).dropCandidate
  return { s with keyAllowed := false }.emit .streamEnd

/-- Reads a directive. -/
def nextDirective (s : Lexer) : Option Lexer := do
  let s ← (s.unwind (-1)).dropCandidate
  let (token, rest) ← readDirective (s.rest.drop 1)
  return { s with keyAllowed := false, rest, place := s.place.newLine }.emit token

/-- Reads the start of a flow collection. -/
def nextFlowStart (s : Lexer) (token : Token) : Option Lexer := do
  let s ← s.addCandidate
  return ({ s with keyAllowed := true, candidates := none :: s.candidates }.skip 1).emit token

/-- Reads the end of a flow collection. -/
def nextFlowEnd (s : Lexer) (token : Token) : Option Lexer := do
  let s ← s.dropCandidate
  let candidates := if s.inFlow then s.candidates.drop 1 else s.candidates
  return ({ s with keyAllowed := false, candidates }.skip 1).emit token

/-- Reads a comma of a flow collection. -/
def nextFlowEntry (s : Lexer) : Option Lexer := do
  let s ← s.dropCandidate
  return ({ s with keyAllowed := true }.skip 1).emit .flowEntry

/-- Reads the hyphen of a block entry. -/
def nextBlockEntry (s : Lexer) : Option Lexer := do
  if !s.inFlow && !s.keyAllowed then none
  let s ← (s.openBlock s.place.column s.count .blockSequenceStart).dropCandidate
  return ({ s with keyAllowed := true }.skip 1).emit .blockEntry

/-- Reads the question mark before a key. -/
def nextKey (s : Lexer) : Option Lexer := do
  if !s.inFlow && !s.keyAllowed then none
  let s ← (s.openBlock s.place.column s.count .blockMappingStart).dropCandidate
  return ({ s with keyAllowed := !s.inFlow }.skip 1).emit .key

/-- Reads the colon before a value. The innermost candidate turns out to be a key. -/
def nextValue (s : Lexer) : Option Lexer :=
  match s.candidates with
  | some c :: outer =>
    let s := (s.insert c.number .key).openBlock c.place.column c.number .blockMappingStart
    some (({ s with keyAllowed := false, candidates := none :: outer }.skip 1).emit .value)
  | _ => do
    if !s.inFlow && !s.keyAllowed then none
    let s := s.openBlock s.place.column s.count .blockMappingStart
    return ({ s with keyAllowed := !s.inFlow }.skip 1).emit .value

/-- Reads the name of an anchor or an alias. -/
def nextName (s : Lexer) (token : String → Token) : Option Lexer := do
  let s ← s.addCandidate
  let name := (s.rest.drop 1).takeWhile isNameChar
  let s := { s with keyAllowed := false }.skip (1 + name.length)
  let ends := endsWord s.rest || (s.rest.head?.any ['?', ':', ',', ']', '}', '%', '@', '\x60'].contains)
  if name.isEmpty || !ends then none
  return s.emit (token (String.ofList name))

/-- Reads a tag. A comma may follow it in a flow collection. -/
def nextTag (s : Lexer) : Option Lexer := do
  let s ← s.addCandidate
  let (token, rest) ← readTag s.rest
  if !endsWord rest && !(s.inFlow && rest.head? == some ',') then none
  return ({ s with keyAllowed := false }.skip (s.rest.length - rest.length)).emit token

/-- Reads a block scalar. -/
def nextBlock (s : Lexer) (folded : Bool) : Option Lexer := do
  let s ← s.dropCandidate
  let (text, column, rest) ← readBlock folded s.indent (s.rest.drop 1)
  return { s with keyAllowed := true, rest, place := ⟨s.place.line + 1, column⟩ }.emit
    (.scalar false (String.ofList text))

/-- Reads a quoted scalar. -/
def nextQuoted (s : Lexer) (single : Bool) : Option Lexer := do
  let s ← s.addCandidate
  let (text, place, rest) ← readQuoted single (s.place.forward 1) {} (s.rest.drop 1)
  return { s with keyAllowed := false, rest, place }.emit (.scalar false (String.ofList text))

/-- Reads a plain scalar. If lines have ended after it, a key may follow. -/
def nextPlain (s : Lexer) : Option Lexer := do
  let s ← s.addCandidate
  let (f, place, rest) ← readPlain s.inFlow (s.indent + 1) s.place {} s.rest
  return { s with keyAllowed := f.broken, rest, place }.emit
    (.scalar true (String.ofList f.text.reverse))

/-- The characters that cannot begin a plain scalar. -/
def indicators : List Char :=
  ['-', '?', ':', ',', '[', ']', '{', '}', '#', '&', '*', '!', '|', '>', '\x27', '\x22', '%', '@',
    '\x60']

/-- Whether a plain scalar begins here. Three indicators may begin one where they are no indicators. -/
def startsPlain (inFlow : Bool) (c : Char) (rest : List Char) : Bool :=
  (!isBlank c && !indicators.contains c) || (c == '-' && !(rest.head?.any isBlank)) ||
    (!inFlow && (c == '?' || c == ':') && !endsWord rest)

/-- Reads the token that begins here. -/
def nextHere (s : Lexer) : Option Lexer :=
  match s.rest with
  | [] => s.nextEnd
  | c :: rest =>
    if s.place.column == 0 && c == '%' then s.nextDirective
    else if s.place.column == 0 && isMarkerOf '-' s.rest then s.nextMarker .documentStart
    else if s.place.column == 0 && isMarkerOf '.' s.rest then s.nextMarker .documentEnd
    else if c == '[' then s.nextFlowStart .flowSequenceStart
    else if c == '{' then s.nextFlowStart .flowMappingStart
    else if c == ']' then s.nextFlowEnd .flowSequenceEnd
    else if c == '}' then s.nextFlowEnd .flowMappingEnd
    else if c == ',' then s.nextFlowEntry
    else if c == '-' && endsWord rest then s.nextBlockEntry
    else if c == '?' && (s.inFlow || endsWord rest) then s.nextKey
    else if c == ':' && (s.inFlow || endsWord rest) then s.nextValue
    else if c == '*' then s.nextName .alias
    else if c == '&' then s.nextName .anchor
    else if c == '!' then s.nextTag
    else if c == '|' && !s.inFlow then s.nextBlock false
    else if c == '>' && !s.inFlow then s.nextBlock true
    else if c == '\x27' then s.nextQuoted true
    else if c == '\x22' then s.nextQuoted false
    else if startsPlain s.inFlow c rest then s.nextPlain
    else none

/-- Reads the next token. -/
def next (s : Lexer) : Option Lexer := s.approach.bind nextHere

/-- The tokens that can be given although what follows is in error: those before the first one that may
still be a key. -/
def settledTokens (s : Lexer) : List Token :=
  let open_ := s.candidates.filterMap fun candidate? =>
    candidate?.bind fun c => if c.isStale s.place then none else some c.number
  s.tokens.reverse.take (open_.foldl min s.count)

/-- The tokens of a stream, and whether its end was reached. Every token but the last takes at least
one of the characters, so `fuel` can be one more than their number. -/
def tokensFrom : (fuel : Nat) → Lexer → List Token × Bool
  | 0, s => (s.settledTokens, false)
  | fuel + 1, s =>
    match s.next with
    | none => (s.settledTokens, false)
    | some s' =>
      if s'.tokens.head? = some .streamEnd then (s'.tokens.reverse, true) else tokensFrom fuel s'

end Lexer

/-- The tokens of a stream, and whether its end was reached. A stream with characters that must not
occur has no tokens. -/
def scan (cs : List Char) : List Token × Bool :=
  if cs.all isAllowed then Lexer.tokensFrom (cs.length + 1) { rest := cs } else ([], false)

end TraefikUpgrade.Yaml
