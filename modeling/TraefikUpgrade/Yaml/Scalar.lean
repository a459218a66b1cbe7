/-
# What scalars stand for

A plain scalar may be the null value, a truth value or a number; else it is text. Whole numbers are
written in base ten, or in base sixteen, eight or two with `0x`, `0o` or `0b`; a leading zero makes a text
of digits. A number that no binary64 number is near is text too. The tags of the core types ask for one
type, and any other scalar with a tag in full is text.

Key definitions: `isNullText`, `truth?`, `whole?`, `real?`, `resolvePlain`, `resolveTagged`.
-/
import TraefikUpgrade.Text.Hexadecimal
import TraefikUpgrade.Yaml.Value

namespace TraefikUpgrade.Yaml

/-- Whether a text stands for the null value. -/
def isNullText (s : String) : Bool := ["null", "Null", "NULL", "~"].contains s

/-- The truth value of a text. -/
def truth? (s : String) : Option Bool :=
  if ["true", "True", "TRUE"].contains s then some true
  else if ["false", "False", "FALSE"].contains s then some false
  else none

/-- The number of digits in a base up to sixteen; there must be one. -/
def digitsIn? (radix : Nat) (digits : List Char) : Option Nat :=
  if digits.isEmpty then none
  else digits.foldlM (fun n c =>
    (Text.hexValue? c).bind fun d => if d < radix then some (radix * n + d) else none) 0

/-- A number without its sign. -/
def magnitude? (cs : List Char) : Option Nat :=
  let based := match cs with
    | '0' :: 'x' :: digits => digitsIn? 16 digits
    | '0' :: 'o' :: digits => digitsIn? 8 digits
    | '0' :: 'b' :: digits => digitsIn? 2 digits
    | _ => none
  based <|> digitsIn? 10 cs

/-- The sign of a text, and what follows it. -/
def cutSign : List Char → Option Char × List Char
  | '+' :: cs => (some '+', cs)
  | '-' :: cs => (some '-', cs)
  | cs => (none, cs)

/-- Whether a text is digits with a leading zero, which is no number. -/
def isPaddedDigits (cs : List Char) : Bool :=
  match (cutSign cs).2 with
  | '0' :: c :: digits => (c :: digits).all Char.isDigit
  | _ => false

/-- What a text is as a whole number: none, one that can be kept, or one that is too large. -/
inductive Whole where
  | none
  | fits (n : Int)
  | tooLarge
deriving DecidableEq, Repr

/-- Reads a whole number. From `-2 ^ 63` to below `2 ^ 64` it can be kept; up to twice as many bits it
is too large; beyond that it is not taken for a whole number. -/
def whole? (cs : List Char) : Whole :=
  if isPaddedDigits cs then .none
  else
    let (sign, digits) := cutSign cs
    match magnitude? digits with
    | none => .none
    | some n =>
      if sign = some '-' then
        if n ≤ Nat.pow 2 63 then .fits (-n)
        else if n ≤ Nat.pow 2 127 then .tooLarge
        else .none
      else if n < Nat.pow 2 64 then .fits n
      else if n < Nat.pow 2 128 then .tooLarge
      else .none

/-- The exponent of a decimal, if nothing else follows. -/
def exponent? : List Char → Option Int
  | [] => some 0
  | c :: cs =>
    if c = 'e' ∨ c = 'E' then
      let (sign, digits) := cutSign cs
      (digitsIn? 10 digits).map fun n => if sign = some '-' then -n else n
    else none

/-- Reads a decimal with a point or an exponent. -/
def decimal? (cs : List Char) : Option Decimal.Binary64 :=
  let (sign, body) := cutSign cs
  let whole := body.takeWhile Char.isDigit
  let (fraction, rest) := match body.dropWhile Char.isDigit with
    | '.' :: cs => (cs.takeWhile Char.isDigit, cs.dropWhile Char.isDigit)
    | cs => ([], cs)
  match digitsIn? 10 (whole ++ fraction), exponent? rest with
  | some digits, some exponent =>
    some (Decimal.ofDecimal (sign == some '-') digits (exponent - fraction.length))
  | _, _ => none

/-- What a text is as a number that need not be whole. A decimal must be near a finite number. -/
def real? (s : String) : Option Decimal.Binary64 :=
  let unsigned := match s.toList with
    | '+' :: cs => cs
    | cs => cs
  if [".inf", ".Inf", ".INF"].contains (String.ofList unsigned) then some (.infinite false)
  else if ["-.inf", "-.Inf", "-.INF"].contains s then some (.infinite true)
  else if [".nan", ".NaN", ".NAN"].contains s then some .nan
  else (decimal? s.toList).bind fun x => if x.isFinite then some x else none

/-- What a plain scalar stands for. A whole number that is too large is an error. -/
def resolvePlain (s : String) : Option Value :=
  if s.isEmpty || isNullText s then some .null
  else match truth? s with
    | some b => some (.bool b)
    | none =>
      match whole? s.toList with
      | .fits n => some (.int n)
      | .tooLarge => none
      | .none =>
        if isPaddedDigits s.toList then some (.text s)
        else match real? s with
          | some x => some (.float x)
          | none => some (.text s)

/-- The tags of the core types have this beginning. -/
def coreTag (name : String) : String := "tag:yaml.org,2002:" ++ name

/-- What a scalar with a tag in full stands for. -/
def resolveTagged (tag s : String) : Option Value :=
  if tag = coreTag "bool" then (truth? s).map .bool
  else if tag = coreTag "int" then
    match whole? s.toList with
    | .fits n => some (.int n)
    | _ => none
  else if tag = coreTag "float" then (real? s).map .float
  else if tag = coreTag "null" then if isNullText s then some .null else none
  else some (.text s)

end TraefikUpgrade.Yaml
