/-
# Dictionaries

A dictionary has a value for each of finitely many texts. Its entries are in the order of their keys, by
code point, so that two dictionaries with the same entries are equal.

Key definitions: `Dictionary`, `Dictionary.insert`, `Dictionary.ofEntries`, `Dictionary.filterKeys`.
-/
namespace TraefikUpgrade.Text

/-- A dictionary. -/
structure Dictionary (α : Type) where
  entries : List (String × α)
  sorted : entries.Pairwise fun a b => a.1 < b.1

namespace Dictionary

variable {α : Type}

theorem ext {d d' : Dictionary α} (h : d.entries = d'.entries) : d = d' := by
  cases d; cases d'; cases h; rfl

def empty : Dictionary α := ⟨[], .nil⟩

instance : Inhabited (Dictionary α) := ⟨empty⟩

instance [DecidableEq α] : DecidableEq (Dictionary α) := fun d d' =>
  decidable_of_iff (d.entries = d'.entries) ⟨ext, fun h => h ▸ rfl⟩

def isEmpty (d : Dictionary α) : Bool := d.entries.isEmpty

def keys (d : Dictionary α) : List String := d.entries.map Prod.fst

/-- Puts an entry into its place in a sorted list; an entry with the same key is replaced. -/
def insertEntry (key : String) (value : α) : List (String × α) → List (String × α)
  | [] => [(key, value)]
  | entry :: entries =>
    if key < entry.1 then (key, value) :: entry :: entries
    else if key = entry.1 then (key, value) :: entries
    else entry :: insertEntry key value entries

theorem fst_eq_or_mem_of_mem_insertEntry {key : String} {value : α} {entries : List (String × α)}
    {entry : String × α} (h : entry ∈ insertEntry key value entries) :
    entry.1 = key ∨ entry ∈ entries := by
  induction entries with
  | nil => simp only [insertEntry, List.mem_singleton] at h; simp [h]
  | cons e es ih => unfold insertEntry at h; grind

theorem sorted_insertEntry (key : String) (value : α) {entries : List (String × α)}
    (h : entries.Pairwise fun a b => a.1 < b.1) :
    (insertEntry key value entries).Pairwise fun a b => a.1 < b.1 := by
  induction entries with
  | nil => simp [insertEntry]
  | cons e es ih =>
    unfold insertEntry
    rw [List.pairwise_cons] at h
    split
    · next hlt =>
      rw [List.pairwise_cons, List.pairwise_cons]
      exact ⟨fun b hb => by
        rcases List.mem_cons.1 hb with rfl | hb
        · exact hlt
        · exact String.lt_trans hlt (h.1 b hb), h⟩
    · split
      · next heq =>
        rw [List.pairwise_cons]
        exact ⟨fun b hb => heq ▸ h.1 b hb, h.2⟩
      · next hlt hne =>
        rw [List.pairwise_cons]
        refine ⟨fun b hb => ?_, ih h.2⟩
        rcases fst_eq_or_mem_of_mem_insertEntry hb with hb | hb
        · exact hb ▸ Std.lt_of_le_of_ne (Std.not_lt.mp hlt) (Ne.symm hne)
        · exact h.1 b hb

/-- Gives a key a value. -/
def insert (d : Dictionary α) (key : String) (value : α) : Dictionary α :=
  ⟨insertEntry key value d.entries, sorted_insertEntry key value d.sorted⟩

/-- The dictionary of a list of entries. Of two entries with the same key the later one counts. -/
def ofEntries (entries : List (String × α)) : Dictionary α :=
  entries.foldl (fun d entry => d.insert entry.1 entry.2) empty

/-- The entries with the keys that pass a test. -/
def filterKeys (d : Dictionary α) (test : String → Bool) : Dictionary α :=
  ⟨d.entries.filter fun entry => test entry.1, d.sorted.filter _⟩

end Dictionary

end TraefikUpgrade.Text
