/-
# How texts and numbers are written

A text is written plain where it then reads back as itself. Otherwise it stands between single quotes; a
text with line feeds becomes a literal block. What neither form can hold, namely characters that cannot
be shown and spaces that would get lost at a line end, stands between double quotes.

Key definitions: `Style`, `Style.of`, `scalarText`, `floatText`.
-/
import TraefikUpgrade.Decimal.Shortest
import TraefikUpgrade.Yaml.Character
import TraefikUpgrade.Yaml.Scalar

namespace TraefikUpgrade.Yaml

/-- The forms of a text. -/
inductive Style where
  | plain
  | single
  | double
  | literal
deriving DecidableEq, Repr

/-- Whether a character can stand for itself. Those beyond the basic plane cannot. -/
def isShown (c : Char) : Bool :=
  let n := c.toNat
  n == 0xA || (0x20 ≤ n && n ≤ 0x7E) || (0xA0 ≤ n && n ≤ 0xFFFD && n != 0xFEFF)

/-- Whether two neighbours in a text are of the given kinds. -/
def hasPair (first second : Char → Bool) : List Char → Bool
  | a :: b :: cs => (first a && second b) || hasPair first second (b :: cs)
  | _ => false

/-- Whether a plain text cannot begin like this. -/
def opensWithIndicator : List Char → Bool
  | '-' :: '-' :: '-' :: _ | '.' :: '.' :: '.' :: _ => true
  | c :: cs => "#,[]{}&*!|>'\"%@`".toList.contains c || ("?:-".toList.contains c && endsWord cs)
  | [] => false

/-- Whether a text has a colon before a blank or at its end, or a number sign after a blank. -/
def hasIndicator : List Char → Bool
  | [] => false
  | c :: cs =>
    (c == ':' && endsWord cs) || ((isBlank c || isBreak c) && cs.head? == some '#') ||
      hasIndicator cs

/-- Whether a text is no longer a text when it is written plain. -/
def readsAsOther (s : String) : Bool :=
  match resolvePlain s with
  | some (.text _) => isPaddedDigits s.toList
  | _ => true

/-- Whether a character is a space. -/
def isSpace (c : Char) : Bool := c == ' '

/-- Whether a text is bounded by a space or a line end. -/
def hasBlankEnd (cs : List Char) : Bool :=
  [cs.head?, cs.getLast?].any fun c => c.any fun c => isSpace c || isBreak c

/-- The form of a text. -/
def Style.of (s : String) : Style :=
  let cs := s.toList
  if !cs.all isShown || hasPair isSpace isBreak cs then .double
  else if cs.contains '\n' then if cs.getLast? = some ' ' then .double else .literal
  else if hasPair isBreak isSpace cs then .double
  else if hasBlankEnd cs || cs.any isBreak || opensWithIndicator cs || hasIndicator cs ||
    readsAsOther s then .single
  else .plain

/-- The digits of a number in base sixteen, in upper case, with zeros before them. -/
def upperHex (width n : Nat) : List Char :=
  let digits := (Nat.toDigits 16 n).map Char.toUpper
  List.replicate (width - digits.length) '0' ++ digits

/-- The letter that stands for a character after a backslash. -/
def escapeLetter? (c : Char) : Option Char :=
  [('\x00', '0'), ('\x07', 'a'), ('\x08', 'b'), ('\x09', 't'), ('\x0a', 'n'), ('\x0b', 'v'),
    ('\x0c', 'f'), ('\x0d', 'r'), ('\x1b', 'e'), ('\x22', '\x22'), ('\\', '\\'), ('\x85', 'N'),
    ('\u2028', 'L'), ('\u2029', 'P')].lookup c

/-- A character between double quotes. -/
def escape (c : Char) : List Char :=
  match escapeLetter? c with
  | some letter => ['\\', letter]
  | none =>
    if isShown c then [c]
    else if c.toNat ≤ 0xFF then '\\' :: 'x' :: upperHex 2 c.toNat
    else if c.toNat ≤ 0xFFFF then '\\' :: 'u' :: upperHex 4 c.toNat
    else '\\' :: 'U' :: upperHex 8 c.toNat

/-- Text that goes on with `indent` spaces after each line end, except before another line end;
`atStart` tells whether a line begins here. -/
def indentLines (indent : Nat) (atStart : Bool) : List Char → List Char
  | [] => []
  | c :: cs =>
    if isBreak c then c :: indentLines indent true cs
    else (if atStart then List.replicate indent ' ' else []) ++ c :: indentLines indent false cs

/-- Text between single quotes, in which a quote is doubled. -/
def singleQuoted (indent : Nat) (cs : List Char) : List Char :=
  '\x27' :: indentLines indent false
    (cs.flatMap (fun c => if c = '\x27' then [c, c] else [c]) ++ ['\x27'])

/-- What stands after the bar of a literal block: the indentation, where the text begins with a blank,
and whether the text has no line end at its end, or more than one. -/
def literalHeader (cs : List Char) : List Char :=
  let indentation := if cs.head?.any (fun c => isSpace c || isBreak c) then ['2'] else []
  let chomping := match cs.reverse with
    | [] => ['-']
    | c :: before =>
      if !isBreak c then ['-'] else if before.head?.all isBreak then ['+'] else []
  '|' :: indentation ++ chomping

/-- A text as it is written, with `indent` spaces at the start of its further lines. -/
def scalarText (indent : Nat) (s : String) : String :=
  let cs := s.toList
  String.ofList (match Style.of s with
    | .plain => cs
    | .single => singleQuoted indent cs
    | .double => '\x22' :: cs.flatMap escape ++ ['\x22']
    | .literal => literalHeader cs ++ '\n' :: indentLines indent true cs)

/-- A decimal with at least one digit after the point, or with an exponent if it is from `10 ^ 16` on or
below `10 ^ -5`. -/
def decimalText (digits : Nat) (exponent : Int) : String :=
  let text := toString digits
  let zeros (n : Int) := String.ofList (List.replicate n.toNat '0')
  let split (n : Nat) := (text.take n).toString ++ "." ++ (text.drop n).toString
  -- the place of the point, counted from the first digit
  let point : Int := text.length + exponent
  if 0 ≤ exponent ∧ point ≤ 16 then text ++ zeros exponent ++ ".0"
  else if 0 < point ∧ point ≤ 16 then split point.toNat
  else if -5 < point ∧ point ≤ 0 then "0." ++ zeros (-point) ++ text
  else (if text.length = 1 then text else split 1) ++ "e" ++ toString (point - 1)

/-- A binary64 number as it is written. -/
def floatText : Decimal.Binary64 → String
  | .infinite negative => if negative then "-.inf" else ".inf"
  | .nan => ".nan"
  | .finite negative mantissa exponent =>
    (if negative then "-" else "") ++
      if mantissa = 0 then "0.0"
      else
        let (digits, exponent) := Decimal.shortest mantissa exponent
        decimalText digits exponent

end TraefikUpgrade.Yaml
