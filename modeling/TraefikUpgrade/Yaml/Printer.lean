/-
# Printing a YAML value

A value is written in block style, two spaces for each level. A list that is the value of a key is not
indented below it; empty collections are written in flow style. A collection inside an entry of a list,
or after the marks of a key that needs its own lines, begins on the same line.

Key definitions: `isSimpleKey`, `canPrint`, `print`, `print?`.
-/
import TraefikUpgrade.Text.Cut
import TraefikUpgrade.Yaml.Style

namespace TraefikUpgrade.Yaml

/-- Whether a character may stand in a tag; the bytes of any other one are written as numbers. -/
def isTagText (c : Char) : Bool := isNameChar c || ";/?:@&=+$,_.~*'()[]".toList.contains c

/-- The characters of a tag as they are written. -/
def tagChars (cs : List Char) : List Char :=
  cs.flatMap fun c =>
    if isTagText c then [c]
    else (String.singleton c).toUTF8.toList.flatMap fun b => '%' :: upperHex 2 b.toNat

/-- A tag as it is written. -/
def tagText (tag : String) : String :=
  match tag.toList with
  | ['!'] => String.ofList ("!<".toList ++ tagChars ['!'] ++ ['>'])
  | '!' :: cs => String.ofList ('!' :: tagChars cs)
  | cs => String.ofList ('!' :: tagChars cs)

/-- The length of a tag, which a key's length takes in. -/
def tagLength (tag : String) : Nat :=
  Text.utf8Length tag.toList + if tag.startsWith "!" then 0 else 1

/-- The text of a value that needs no indentation of its own, and nothing for other values. -/
def inlineText? (indent : Nat) : Value → Option String
  | .null => some "null"
  | .bool b => some (if b then "true" else "false")
  | .int n => some (toString n)
  | .float x => some (floatText x)
  | .text s => some (scalarText indent s)
  | .sequence [] => some "[]"
  | .mapping [] => some "\x7b\x7d"
  | _ => none

/-- The length of the text by which a key is judged, without quotes. -/
def keyLength? : Value → Option Nat
  | .text s => if s.toList.any isBreak then none else some (Text.utf8Length s.toList)
  | .sequence [] | .mapping [] => some 0
  | .tagged tag content => (keyLength? content).map (tagLength tag + ·)
  | v => (inlineText? 0 v).map String.length

/-- Whether a key can stand before the colon in one line. -/
def isSimpleKey (key : Value) : Bool := (keyLength? key).any (· ≤ 128)

/-- Whether a value begins with something that makes the start of a mapping with this value as its only
key get lost. -/
def hidesStart : Value → Bool
  | .tagged .. | .mapping [_] => true
  | _ => false

mutual

/-- Whether a value can be printed. A mapping of one entry must not have a key that is tagged or is such
a mapping itself, unless the mapping is tagged. -/
def canPrint (v : Value) (isTagged : Bool) : Bool :=
  match v with
  | .tagged _ content => canPrint content true
  | .sequence items => canPrintItems items
  | .mapping entries =>
    (isTagged || match entries with
      | [(key, _)] => !hidesStart key
      | _ => true) && canPrintEntries entries
  | _ => true

def canPrintItems : List Value → Bool
  | [] => true
  | item :: items => canPrint item false && canPrintItems items

def canPrintEntries : List (Value × Value) → Bool
  | [] => true
  | (key, value) :: entries => canPrint key false && canPrint value false && canPrintEntries entries

end

/-- Where a value is printed. -/
structure Place where
  /-- The indentation of a collection that begins in this line. -/
  indent : Nat
  /-- The indentation of a list that begins in the next line. -/
  listIndent : Nat
  /-- Whether a collection begins in this line. -/
  fresh : Bool
  /-- What stands between the text so far and a text in this line. -/
  gap : String

/-- The start of a line. -/
def startLine (indent : Nat) : String := String.ofList (List.replicate indent ' ')

/-- Ends a line, unless the text has ended it. -/
def closeLine (s : String) : String := if s.toList.getLast?.any isBreak then s else s ++ "\n"

mutual

/-- A value as it is written. Its last line has no end, unless that is part of the value. -/
def printAt (p : Place) (v : Value) : String :=
  match v with
  | .tagged tag content =>
    p.gap ++ tagText tag ++ printAt { p with fresh := false, gap := " " } content
  | .sequence (item :: items) =>
    if p.fresh then p.gap ++ printItems p.indent true (item :: items)
    else "\n" ++ printItems p.listIndent false (item :: items)
  | .mapping (entry :: entries) =>
    if p.fresh then p.gap ++ printEntries p.indent true (entry :: entries)
    else "\n" ++ printEntries p.indent false (entry :: entries)
  | v => p.gap ++ (inlineText? (max 2 p.indent) v).getD ""

/-- The entries of a list. The first one may begin in a line that has begun. -/
def printItems (indent : Nat) (begun : Bool) : List Value → String
  | [] => ""
  | item :: items =>
    let first := (if begun then "" else startLine indent) ++ "-" ++
      printAt ⟨indent + 2, indent + 2, true, " "⟩ item
    if items.isEmpty then first else closeLine first ++ printItems indent false items

/-- The entries of a mapping. The first one may begin in a line that has begun. -/
def printEntries (indent : Nat) (begun : Bool) : List (Value × Value) → String
  | [] => ""
  | (key, value) :: entries =>
    let first := (if begun then "" else startLine indent) ++
      if isSimpleKey key then
        printAt ⟨indent + 2, indent, true, ""⟩ key ++ ":" ++
          printAt ⟨indent + 2, indent, false, " "⟩ value
      else
        closeLine ("?" ++ printAt ⟨indent + 2, indent, true, " "⟩ key) ++ startLine indent ++ ":" ++
          printAt ⟨indent + 2, indent, true, " "⟩ value
    if entries.isEmpty then first else closeLine first ++ printEntries indent false entries

end

/-- A document. -/
def print (v : Value) : String := closeLine (printAt ⟨0, 0, true, ""⟩ v)

/-- A document, if the value can be printed. -/
def print? (v : Value) : Option String := if canPrint v false then some (print v) else none

end TraefikUpgrade.Yaml
