/-
# Text shown between quotes

Messages show a text between double quotes and a character between single quotes. The quote in use and
the backslash are escaped, the common controls have a letter (`\n`, `\r`, `\t`, `\0`), and any other
character that cannot be shown is written by its number in lower-case hexadecimal, as `\u` and braces.

Key definitions: `quoted`, `quotedChar`.
-/
import TraefikUpgrade.Unicode.Printable

namespace TraefikUpgrade.Text

/-- The letter that stands for a control character after a backslash. -/
def controlLetter? (c : Char) : Option Char :=
  if c = '\x00' then some '0'
  else if c = '\t' then some 't'
  else if c = '\n' then some 'n'
  else if c = '\r' then some 'r'
  else none

/-- A character as it stands between two quotes of the given kind. -/
def escapeBetween (quote c : Char) : List Char :=
  match controlLetter? c with
  | some letter => ['\\', letter]
  | none =>
    if c = quote || c = '\\' then ['\\', c]
    else if Unicode.isShowable c then [c]
    else ['\\', 'u', '{'] ++ Nat.toDigits 16 c.toNat ++ ['}']

/-- A text between double quotes. -/
def quoted (s : String) : String :=
  String.ofList ('\x22' :: s.toList.flatMap (escapeBetween '\x22') ++ ['\x22'])

/-- A character between single quotes. -/
def quotedChar (c : Char) : String :=
  String.ofList ('\x27' :: escapeBetween '\x27' c ++ ['\x27'])

end TraefikUpgrade.Text
