/-
# Records as YAML values

A record is a mapping from the names of its fields; the null value is a record without fields. A field
that is not known is left alone, and a known one must not be given twice. Where a type is asked for, the
tags around a value do not count.

Key definitions: `Fields`, `fields?`, `Fields.required?`, `Fields.option?`, `Fields.orDefault?`,
`Fields.others?`, and the readers `readInt?`, `readBool?`, `readList?`, `readDictionary?`.
-/
import TraefikUpgrade.Text.Dictionary
import TraefikUpgrade.Yaml.Value

namespace TraefikUpgrade.Yaml

open Text (Dictionary)

/-- Whether a number has 64 bits. -/
def isInt64 (n : Int) : Bool := -9223372036854775808 ≤ n && n ≤ 9223372036854775807

/-- A whole number of 64 bits. -/
def readInt? (v : Value) : Option Int :=
  match v.untagged with
  | .int n => if isInt64 n then some n else none
  | _ => none

/-- A truth value. -/
def readBool? (v : Value) : Option Bool :=
  match v.untagged with
  | .bool b => some b
  | _ => none

/-- A list; the null value is an empty one. -/
def readList? {α : Type} (read : Value → Option α) (v : Value) : Option (List α) :=
  match v.untagged with
  | .null => some []
  | .sequence items => items.mapM read
  | _ => none

/-- The fields of a record, in the order in which they are given. -/
abbrev Fields := List (String × Value)

/-- Reads the fields of a record. Their names must be texts. -/
def fields? (v : Value) : Option Fields :=
  match v.untagged with
  | .null => some []
  | .mapping entries => entries.mapM fun entry => entry.1.text?.map (·, entry.2)
  | _ => none

/-- A dictionary; the null value is an empty one. -/
def readDictionary? {α : Type} (read : Value → Option α) (v : Value) : Option (Dictionary α) := do
  let fields ← fields? v
  let entries ← fields.mapM fun entry => (read entry.2).map (entry.1, ·)
  return .ofEntries entries

namespace Fields

variable {α : Type}

/-- The value of a field, if it is given. It must not be given twice. -/
def find? (f : Fields) (name : String) : Option (Option Value) :=
  match f.filter (·.1 == name) with
  | [] => some none
  | [entry] => some (some entry.2)
  | _ => none

/-- A field that must be given. -/
def required? (f : Fields) (name : String) (read : Value → Option α) : Option α :=
  (f.find? name).join.bind read

/-- A field with a value that stands in when it is not given. -/
def orDefault? (f : Fields) (name : String) (default : α) (read : Value → Option α) : Option α :=
  (f.find? name).bind fun
    | none => some default
    | some v => read v

/-- A field that may be unset. -/
def option? (f : Fields) (name : String) (read : Value → Option α) : Option (Option α) :=
  f.orDefault? name none fun
    | .null => some none
    | v => (read v).map some

/-- A list that is empty if it is not given. -/
def list? (f : Fields) (name : String) (read : Value → Option α) : Option (List α) :=
  f.orDefault? name [] (readList? read)

end Fields

mutual

/-- Whether there is a tag anywhere in a value. -/
def hasTag : Value → Bool
  | .tagged .. => true
  | .sequence items => itemsHaveTag items
  | .mapping entries => entriesHaveTag entries
  | _ => false

def itemsHaveTag : List Value → Bool
  | [] => false
  | item :: items => hasTag item || itemsHaveTag items

def entriesHaveTag : List (Value × Value) → Bool
  | [] => false
  | (key, value) :: entries => hasTag key || hasTag value || entriesHaveTag entries

end

/-- The fields other than the known ones, which are kept as they are. They must not have tags. -/
def Fields.others? (f : Fields) (known : List String) : Option (Dictionary Value) :=
  let others := f.filter fun entry => !known.contains entry.1
  if others.any fun entry => hasTag entry.2 then none else some (.ofEntries others)

/-- The entries of a mapping. -/
abbrev Entries := List (Value × Value)

/-- A field as an entry of a mapping. -/
def field (name : String) (v : Value) : Entries := [(.text name, v)]

/-- A field that is left out when it is unset. -/
def optionField {α : Type} (name : String) (write : α → Value) : Option α → Entries
  | none => []
  | some x => field name (write x)

/-- A field that is left out when it is empty. -/
def listField {α : Type} (name : String) (write : α → Value) (xs : List α) : Entries :=
  if xs.isEmpty then [] else field name (.sequence (xs.map write))

/-- The entries of a dictionary. -/
def dictionaryEntries {α : Type} (write : α → Value) (d : Dictionary α) : Entries :=
  d.entries.map fun entry => (.text entry.1, write entry.2)

/-- A dictionary that is left out when it is empty. -/
def dictionaryField {α : Type} (name : String) (write : α → Value) (d : Dictionary α) : Entries :=
  if d.isEmpty then [] else field name (.mapping (dictionaryEntries write d))

end TraefikUpgrade.Yaml
