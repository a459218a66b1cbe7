/-
# Equality of YAML values

Whether two values are equal can be decided. Unlike for `Value.same`, the order of a mapping's entries
and the sign of a zero count.

Key definitions: `Value.eqb`.
Key theorems: `Value.eqb_iff`.
-/
import TraefikUpgrade.Yaml.Value

namespace TraefikUpgrade.Yaml.Value

mutual

/-- Whether two values are equal. -/
def eqb : Value → Value → Bool
  | .null, .null => true
  | .bool b, .bool b' => b == b'
  | .int n, .int n' => n == n'
  | .float x, .float x' => x == x'
  | .text s, .text s' => s == s'
  | .sequence items, .sequence items' => itemsEqb items items'
  | .mapping entries, .mapping entries' => entriesEqb entries entries'
  | .tagged tag content, .tagged tag' content' => tag == tag' && eqb content content'
  | _, _ => false

def itemsEqb : List Value → List Value → Bool
  | [], [] => true
  | item :: items, item' :: items' => eqb item item' && itemsEqb items items'
  | _, _ => false

def entriesEqb : List (Value × Value) → List (Value × Value) → Bool
  | [], [] => true
  | (key, value) :: entries, (key', value') :: entries' =>
    eqb key key' && eqb value value' && entriesEqb entries entries'
  | _, _ => false

end

mutual

theorem eqb_iff (v w : Value) : eqb v w = true ↔ v = w := by
  cases v <;> cases w <;> simp [eqb, itemsEqb_iff, entriesEqb_iff, eqb_iff]

theorem itemsEqb_iff (items items' : List Value) : itemsEqb items items' = true ↔ items = items' := by
  cases items with
  | nil => cases items' <;> simp [itemsEqb]
  | cons item items => cases items' <;> simp [itemsEqb, eqb_iff item, itemsEqb_iff items]

theorem entriesEqb_iff (entries entries' : List (Value × Value)) :
    entriesEqb entries entries' = true ↔ entries = entries' := by
  cases entries with
  | nil => cases entries' <;> simp [entriesEqb]
  | cons entry entries =>
    obtain ⟨key, value⟩ := entry
    cases entries' with
    | nil => simp [entriesEqb]
    | cons entry' entries' =>
      obtain ⟨key', value'⟩ := entry'
      simp [entriesEqb, eqb_iff key, eqb_iff value, entriesEqb_iff entries, and_assoc]

end

instance : DecidableEq Value := fun v w => decidable_of_iff _ (eqb_iff v w)

end TraefikUpgrade.Yaml.Value
