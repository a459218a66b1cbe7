/-
# YAML values

What a document says, without the way in which it is written. A mapping keeps the order of its entries,
and no two of its keys are the same (`Value.same`). Look-ups see through tags.

Key definitions: `Value`, `Value.same`, `Value.untagged`, `Value.get?`, `Value.text?`.
-/
import TraefikUpgrade.Decimal.Binary

namespace TraefikUpgrade.Yaml

/-- A value. A tag is kept without its exclamation mark, unless it is nothing else. -/
inductive Value where
  | null
  | bool (b : Bool)
  | int (n : Int)
  | float (x : Decimal.Binary64)
  | text (s : String)
  | sequence (items : List Value)
  | mapping (entries : List (Value × Value))
  | tagged (tag : String) (content : Value)
deriving Repr

namespace Value

instance : Inhabited Value := ⟨.null⟩

mutual

/-- Whether two values are taken for the same. The order of a mapping's entries does not count. -/
def same : Value → Value → Bool
  | .null, .null => true
  | .bool b, .bool b' => b == b'
  | .int n, .int n' => n == n'
  | .float x, .float x' => x.same x'
  | .text s, .text s' => s == s'
  | .sequence items, .sequence items' => sameItems items items'
  | .mapping entries, .mapping entries' =>
    entries.length == entries'.length && sameEntries entries entries'
  | .tagged tag content, .tagged tag' content' => tag == tag' && same content content'
  | _, _ => false

/-- Whether two lists hold the same values in the same order. -/
def sameItems : List Value → List Value → Bool
  | [], [] => true
  | item :: items, item' :: items' => same item item' && sameItems items items'
  | _, _ => false

/-- Whether each entry of a mapping has its like in another one. -/
def sameEntries : List (Value × Value) → List (Value × Value) → Bool
  | [], _ => true
  | (key, value) :: entries, entries' =>
    entries'.any (fun entry => same key entry.1 && same value entry.2) &&
      sameEntries entries entries'

end

/-- A value without the tags around it. -/
def untagged : Value → Value
  | .tagged _ content => content.untagged
  | v => v

def isNull (v : Value) : Bool :=
  match v.untagged with
  | .null => true
  | _ => false

/-- The entries of a mapping. -/
def entries? (v : Value) : Option (List (Value × Value)) :=
  match v.untagged with
  | .mapping entries => some entries
  | _ => none

/-- The text that a value is. -/
def text? (v : Value) : Option String :=
  match v.untagged with
  | .text s => some s
  | _ => none

/-- Whether a key is the given text. -/
def isKey (name : String) : Value → Bool
  | .text s => s == name
  | _ => false

/-- The value of a key in a list of entries. -/
def lookup (name : String) (entries : List (Value × Value)) : Option Value :=
  (entries.find? fun entry => entry.1.isKey name).map Prod.snd

/-- The value of a key, if the value is a mapping that has it. -/
def get? (v : Value) (name : String) : Option Value := v.entries?.bind (lookup name)

end Value

end TraefikUpgrade.Yaml
