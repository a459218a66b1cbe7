/-
# Files that are read and written

What was written to a file is read from it, and nothing else is changed by writing it. In a tree as a file
system holds it, the path of a file ends in its name, and so does every path that leads to no directory.

Key theorems: `Path.fileName?_of_steps`, `Tree.readText_eq_ok_iff`, `Tree.readText_of_write`,
`Tree.Closed.exists_fileName?`.
-/
import TraefikUpgrade.Proofs.FileSystem.Closure

namespace TraefikUpgrade.FileSystem

open Text

/-! ### Names of files -/

/-- A name to which the last step leads is the last component. -/
theorem Path.fileName?_of_steps {p : Path} {before : List String} {last : String}
    (h : steps p = before ++ [last]) (hname : IsEntryName last) : p.fileName? = some last := by
  obtain ⟨parts, part, hsplit⟩ : ∃ parts part, splitAll '/' p.text.toList = parts ++ [part] :=
    ⟨_, _, (List.dropLast_concat_getLast (splitAll_ne_nil '/' p.text.toList)).symm⟩
  have hlast : part = last.toList := by
    unfold steps at h
    dsimp only at h
    rw [hsplit, List.map_append, List.getLast?_append] at h
    split at h
    · -- a path that ends in a slash stays where it is in the end
      obtain ⟨-, hhere⟩ := List.append_inj' h rfl
      exact absurd (List.singleton_inj.1 hhere).symm hname.ne_here
    · next hne =>
      have hpart : String.ofList part ≠ "" := fun he => hne (by rw [← he]; rfl)
      have hfilter : (List.map String.ofList [part]).filter (· != "") = [String.ofList part] := by
        simp [hpart]
      rw [List.filter_append, hfilter] at h
      obtain ⟨-, hpart⟩ := List.append_inj' h rfl
      rw [← List.singleton_inj.1 hpart, String.toList_ofList]
  unfold fileName? components spans
  rw [hsplit, hlast, List.getLast?_map, getLast?_spansFrom hname]
  rfl

namespace Tree

variable {t t' : Tree} {l : Location} {p : Path}

theorem Closed.exists_fileName? (h : t.Closed) (hl : t.resolve p = .ok l)
    (hne : t.lookup l ≠ some .directory) : ∃ name, p.fileName? = some name := by
  obtain ⟨before, last, -, hsteps, hname, -⟩ := h.exists_last_step hl hne
  exact ⟨last, Path.fileName?_of_steps hsteps hname⟩

/-! ### Contents -/

theorem readText_eq_ok_iff {text : String} : t.readText p = .ok text ↔
    ∃ l, t.resolve p = .ok l ∧ t.lookup l = some (.file (.text text)) := by
  rw [← entry_eq_ok_iff, readText]
  cases t.entry p with
  | error refusal => simp [bind, Except.bind]
  | ok e =>
    cases e with
    | directory => simp [bind, Except.bind]
    | file content => cases content <;> simp [bind, Except.bind, pure, Except.pure]

/-- A path leads to the same location after something was put where no directory is. -/
theorem resolve_put {l' : Location} {e : Entry} (hl : t.resolve p = .ok l)
    (hne : t.lookup l' ≠ some .directory) : (t.put l' e).resolve p = .ok l := by
  unfold resolve at hl ⊢
  split at hl
  · cases hl
  · next hp =>
    obtain ⟨hdirs, -⟩ := foldlM_step_eq_ok_iff.1 hl
    rw [if_neg hp, ← hl]
    refine foldlM_step_congr fun x hx => lookup_put_of_ne ?_ t e
    rintro rfl
    exact hne (hdirs x hx)

/-- What is written is read again, and nothing else is changed. -/
theorem readText_of_write {text : String} (h : t.write p (.text text) = .ok t') :
    t'.readText p = .ok text ∧ ∃ l, t.resolve p = .ok l ∧ ∀ l', l' ≠ l → t'.lookup l' = t.lookup l' := by
  obtain ⟨l, hl, hne, rfl⟩ := write_eq_ok h
  have hroot : l ≠ [] := by
    rintro rfl
    exact hne rfl
  exact ⟨readText_eq_ok_iff.2 ⟨l, resolve_put hl hne, lookup_put_self hroot t _⟩,
    l, hl, fun l' hl' => lookup_put_of_ne hl' t _⟩

end Tree

end TraefikUpgrade.FileSystem
