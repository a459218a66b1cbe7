/-
# Trees that only grow

What a file system holds is in directories that are there, under names that are not too long. Creating
directories and writing files leaves it so (`Tree.Closed`). In such a tree nothing is hidden: a path
whose steps are names leads to whatever is at its location (`Closed.visited_below`).

A tree that keeps what another one holds answers every path as that one does, where that one finds
something (`Tree.Keeps`). Trees that hold the same in places follow steps there alike
(`foldlM_step_congr`), and find the same names (`names_congr`).

Key definitions: `Tree.Closed`, `Tree.Keeps`.
Key theorems: `Closed.put`, `Closed.createDirectories`, `Closed.exists_last_step`, `Closed.write`,
`Closed.visited_below`, `Keeps.entry`, `foldlM_step_congr`, `NamesIn.eq`, `names_congr`.
-/
import TraefikUpgrade.Proofs.FileSystem.Walks
import TraefikUpgrade.Proofs.Traversal

namespace TraefikUpgrade.FileSystem

open Text

instance (s : String) : Decidable (IsEntryName s) :=
  decidable_of_iff (s ≠ "" ∧ s ≠ "." ∧ s ≠ ".." ∧ '/' ∉ s.toList)
    ⟨fun h => ⟨h.1, h.2.1, h.2.2.1, h.2.2.2⟩,
      fun h => ⟨h.ne_empty, h.ne_here, h.ne_up, h.slash_notMem⟩⟩

instance (s : String) : Decidable (IsShort s) :=
  inferInstanceAs (Decidable (utf8Length s.toList ≤ maxNameLength))

namespace Tree

variable {t t' t'' : Tree} {l : Location} {p : Path}

/-! ### Closed trees -/

/-- A tree as a file system holds it: whatever is in it is in a directory, under a name that is not too
long. -/
structure Closed (t : Tree) : Prop extends Sound t where
  above : ∀ l s e, t.lookup (l ++ [s]) = some e → t.lookup l = some .directory
  short : ∀ l e, t.lookup l = some e → ∀ s ∈ l, IsShort s

/-- Whether a tree is closed can be seen from its entries. -/
theorem Closed.of_entries (hn : (t.entries.map Prod.fst).Nodup)
    (he : ∀ entry ∈ t.entries, (∀ s ∈ entry.1, IsEntryName s ∧ IsShort s) ∧
      t.lookup entry.1.dropLast = some .directory) : t.Closed where
  nodup := hn
  names l hl s hs := by
    obtain ⟨entry, hm, rfl⟩ := List.mem_map.1 hl
    exact ((he entry hm).1 s hs).1
  above l s e hl := by
    have hm := mem_of_lookup (by simp) hl
    have hparent := (he _ hm).2
    simpa using hparent
  short l e hl s hs := by
    have hne : l ≠ [] := List.ne_nil_of_mem hs
    exact ((he _ (mem_of_lookup hne hl)).1 s hs).2

/-- The way up from a directory stays in directories. -/
theorem Closed.dropLast (h : t.Closed) (hl : t.lookup l = some .directory) :
    t.lookup l.dropLast = some .directory := by
  by_cases hne : l = []
  · rw [hne]
    rfl
  · have hlast := List.dropLast_concat_getLast hne
    apply h.above l.dropLast (l.getLast hne) .directory
    rw [hlast, hl]

/-- A new entry in a directory. There is nothing in the place of the entry that something else could
be in. -/
theorem Closed.put {s : String} (h : t.Closed) (hl : t.lookup l = some .directory)
    (hs : IsEntryName s) (hshort : IsShort s) (hne : t.lookup (l ++ [s]) ≠ some .directory)
    (e : Entry) : (t.put (l ++ [s]) e).Closed := by
  have hnames : ∀ part ∈ l ++ [s], IsEntryName part := by
    intro part hpart
    rcases List.mem_append.1 hpart with hpart | hpart
    · exact h.names_of_lookup hl part hpart
    · exact List.mem_singleton.1 hpart ▸ hs
  have hshorts : ∀ part ∈ l ++ [s], IsShort part := by
    intro part hpart
    rcases List.mem_append.1 hpart with hpart | hpart
    · exact h.short l _ hl part hpart
    · exact List.mem_singleton.1 hpart ▸ hshort
  have hself : l ≠ l ++ [s] := by simp
  refine { toSound := h.toSound.put hnames e, above := fun x part e' hx => ?_,
           short := fun x e' hx => ?_ }
  · by_cases hnew : x ++ [part] = l ++ [s]
    · obtain ⟨rfl, -⟩ := List.append_inj' hnew rfl
      rw [lookup_put_of_ne hself, hl]
    · rw [lookup_put_of_ne hnew] at hx
      have hdir := h.above x part e' hx
      -- What something else is in is a directory, so it is not replaced.
      have hx' : x ≠ l ++ [s] := by
        rintro rfl
        exact hne hdir
      rw [lookup_put_of_ne hx', hdir]
  · by_cases hnew : x = l ++ [s]
    · exact hnew ▸ hshorts
    · rw [lookup_put_of_ne hnew] at hx
      exact h.short x e' hx

/-- A step that leads to no directory is a name. -/
theorem Closed.move_eq {part : String} (h : t.Closed) (hl : t.lookup l = some .directory)
    (hne : t.lookup (move l part) ≠ some .directory) :
    part ≠ "." ∧ part ≠ ".." ∧ move l part = l ++ [part] := by
  have hhere : part ≠ "." := by
    rintro rfl
    exact hne hl
  have hup : part ≠ ".." := by
    rintro rfl
    exact hne (h.dropLast hl)
  refine ⟨hhere, hup, ?_⟩
  rw [move, if_neg hhere, if_neg hup]

theorem Closed.stepCreating {part : String} {state : Tree × Location} (h : t.Closed)
    (hp : part ≠ "." → part ≠ ".." → IsEntryName part)
    (hstep : Tree.stepCreating (t, l) part = .ok state) : state.1.Closed := by
  obtain ⟨next, hnext, hstep⟩ := bind_eq_ok hstep
  obtain ⟨hl, hshort, rfl⟩ := step_eq_ok_iff.1 hnext
  split at hstep
  · next hnone =>
    cases hstep
    have hne : t.lookup (move l part) ≠ some .directory := by simp [hnone]
    obtain ⟨hhere, hup, hmove⟩ := h.move_eq hl hne
    rw [hmove] at hne ⊢
    exact h.put hl (hp hhere hup) hshort hne _
  · cases hstep
    exact h
  · cases hstep

theorem Closed.foldlM_stepCreating {parts : List String} {state : Tree × Location} (h : t.Closed)
    (hp : ∀ part ∈ parts, part ≠ "." → part ≠ ".." → IsEntryName part)
    (hfold : parts.foldlM Tree.stepCreating (t, l) = .ok state) : state.1.Closed := by
  induction parts generalizing t l with
  | nil =>
    cases hfold
    exact h
  | cons part parts ih =>
    rw [List.forall_mem_cons] at hp
    rw [List.foldlM_cons] at hfold
    obtain ⟨next, hstep, hfold⟩ := bind_eq_ok hfold
    exact ih (h.stepCreating hp.1 hstep) hp.2 hfold

theorem Closed.createDirectories (h : t.Closed) (hcreate : t.createDirectories p = .ok t') :
    t'.Closed := by
  obtain ⟨state, hfold, hcreate⟩ := bind_eq_ok hcreate
  cases hcreate
  exact h.foldlM_stepCreating (fun _ hpart => isEntryName_of_mem_steps hpart) hfold

/-- The last step to something else than a directory is a name in a directory. -/
theorem Closed.exists_last_step (h : t.Closed) (hl : t.resolve p = .ok l)
    (hne : t.lookup l ≠ some .directory) : ∃ before last parent, steps p = before ++ [last] ∧
      IsEntryName last ∧ IsShort last ∧ t.lookup parent = some .directory ∧ l = parent ++ [last] := by
  unfold resolve at hl
  split at hl
  · cases hl
  · obtain ⟨before, last, hsteps⟩ : ∃ before last, steps p = before ++ [last] :=
      ⟨_, _, (List.dropLast_concat_getLast p.steps_ne_nil).symm⟩
    rw [hsteps, foldlM_step_eq_ok_iff, visited_append, List.foldl_append] at hl
    obtain ⟨hdirs, hshort, rfl⟩ := hl
    have hdir : t.lookup (before.foldl move (t.start p)) = some .directory :=
      hdirs _ (List.mem_append_right _ (List.mem_cons_self ..))
    have hlast : last ∈ before ++ [last] := List.mem_append_right _ (List.mem_cons_self ..)
    obtain ⟨hhere, hup, hmove⟩ := h.move_eq hdir hne
    exact ⟨before, last, _, hsteps, isEntryName_of_mem_steps (hsteps ▸ hlast) hhere hup,
      hshort _ hlast, hdir, hmove⟩

theorem Closed.write {content : Content} (h : t.Closed) (hwrite : t.write p content = .ok t') :
    t'.Closed := by
  obtain ⟨l, hl, hne, rfl⟩ := write_eq_ok hwrite
  obtain ⟨-, last, parent, -, hname, hshort, hdir, rfl⟩ := h.exists_last_step hl hne
  exact h.put hdir hname hshort hne _

/-- What is somewhere below a directory is reached from it by its names. -/
theorem Closed.visited_below {below : List String} {e : Entry} (h : t.Closed)
    (hb : t.lookup (l ++ below) = some e) :
    (∀ x ∈ visited l below, t.lookup x = some .directory) ∧ below.foldl move l = l ++ below := by
  induction below generalizing l with
  | nil => exact ⟨fun _ hx => absurd hx List.not_mem_nil, (List.append_nil l).symm⟩
  | cons s below ih =>
    have hname : IsEntryName s := h.names_of_lookup hb s (by simp)
    have hsplit : l ++ s :: below = (l ++ [s]) ++ below := by simp
    rw [hsplit] at hb
    obtain ⟨hdirs, hfold⟩ := ih hb
    have hl : t.lookup l = some .directory := by
      cases below with
      | nil =>
        rw [List.append_nil] at hb
        exact h.above l s e hb
      | cons s' below =>
        exact h.above l s _ (hdirs _ (List.mem_cons_self ..))
    rw [visited, List.foldl_cons, move_name hname]
    exact ⟨List.forall_mem_cons.2 ⟨hl, hdirs⟩, by rw [hfold, hsplit]⟩

/-! ### Trees that keep what another one holds -/

/-- The tree `t'` holds at least what `t` holds. -/
structure Keeps (t t' : Tree) : Prop where
  kept : ∀ x e, t.lookup x = some e → t'.lookup x = some e
  start : ∀ p, t'.start p = t.start p

theorem Keeps.refl (t : Tree) : Keeps t t := ⟨fun _ _ h => h, fun _ => rfl⟩

theorem Keeps.trans (h : Keeps t t') (h' : Keeps t' t'') : Keeps t t'' :=
  ⟨fun x e hx => h'.kept x e (h.kept x e hx), fun p => (h'.start p).trans (h.start p)⟩

/-- A path leads where it led before. -/
theorem Keeps.resolve (h : Keeps t t') (hl : t.resolve p = .ok l) : t'.resolve p = .ok l := by
  unfold Tree.resolve at hl ⊢
  split at hl
  · cases hl
  · next hp =>
    obtain ⟨hdirs, hshort, hlast⟩ := foldlM_step_eq_ok_iff.1 hl
    rw [if_neg hp, h.start]
    exact foldlM_step_eq_ok_iff.2 ⟨fun x hx => h.kept x _ (hdirs x hx), hshort, hlast⟩

theorem Keeps.entry (h : Keeps t t') {e : Entry} (he : t.entry p = .ok e) : t'.entry p = .ok e := by
  obtain ⟨l, hl, hlookup⟩ := entry_eq_ok_iff.1 he
  exact entry_eq_ok_iff.2 ⟨l, h.resolve hl, h.kept l e hlookup⟩

theorem doesExist_iff : t.doesExist p = true ↔ ∃ e, t.entry p = .ok e := by
  unfold doesExist
  cases t.entry p with
  | error refusal => simp [Except.isOk, Except.toBool]
  | ok e => simp [Except.isOk, Except.toBool]

theorem Keeps.doesExist (h : Keeps t t') (hp : t.doesExist p = true) : t'.doesExist p = true := by
  obtain ⟨e, he⟩ := doesExist_iff.1 hp
  exact doesExist_iff.2 ⟨e, h.entry he⟩

/-! ### Trees that hold the same in places -/

/-- Steps lead the same way if the same is where they are taken from. -/
theorem foldlM_step_congr {parts : List String}
    (h : ∀ x ∈ visited l parts, t'.lookup x = t.lookup x) :
    parts.foldlM t'.step l = parts.foldlM t.step l := by
  induction parts generalizing l with
  | nil => rfl
  | cons part parts ih =>
    rw [visited, List.forall_mem_cons] at h
    have hstep : t'.step l part = t.step l part := by
      rw [step, step, h.1]
    rw [List.foldlM_cons, List.foldlM_cons, hstep]
    cases hnext : t.step l part with
    | error refusal => rfl
    | ok next =>
      obtain ⟨-, -, rfl⟩ := step_eq_ok_iff.1 hnext
      exact ih h.2

/-- The names in a directory are determined by what is there. -/
theorem NamesIn.eq {names names' : List String} (h : NamesIn t l names) (h' : NamesIn t' l names')
    (hl : ∀ s, t'.lookup (l ++ [s]) = t.lookup (l ++ [s])) : names = names' := by
  have hne : ∀ {names : List String}, names.Pairwise (· < ·) → names.Nodup := by
    intro names hs
    refine List.nodup_iff_pairwise_ne.2 (hs.imp fun hlt he => ?_)
    exact String.lt_irrefl _ (he ▸ hlt)
  have hmem : ∀ s, s ∈ names ↔ s ∈ names' := by
    intro s
    rw [h.mem, h'.mem, hl]
  have hperm := (List.perm_ext_iff_of_nodup (hne h.sorted) (hne h'.sorted)).2 hmem
  refine hperm.eq_of_pairwise (fun a b _ _ hab hba => ?_) h.sorted h'.sorted
  exact absurd (String.lt_trans hab hba) (String.lt_irrefl _)

/-- The names that are found in a directory. -/
theorem namesIn_of_names {names : List String} (hs : t.Sound) (h : t.names p = .ok names) :
    ∃ l, t.resolve p = .ok l ∧ t.lookup l = some .directory ∧ NamesIn t l names := by
  obtain ⟨l, hl, hlist⟩ := bind_eq_ok h
  have hdir : t.lookup l = some .directory := by
    split at hlist
    · cases hlist
    · cases hlist
    · assumption
  obtain ⟨names', hnames', hin⟩ := exists_names hs hl hdir
  rw [hnames'] at h
  cases h
  exact ⟨l, hl, hdir, hin⟩

/-- The same names are found where the same is in a directory. -/
theorem names_congr (hs : t.Sound) (hs' : t'.Sound) (hr : t'.resolve p = t.resolve p)
    (hl : ∀ l, t.resolve p = .ok l →
      t'.lookup l = t.lookup l ∧ ∀ s, t'.lookup (l ++ [s]) = t.lookup (l ++ [s])) :
    t'.names p = t.names p := by
  cases hresolve : t.resolve p with
  | error refusal => rw [Tree.names, Tree.names, hr, hresolve]; rfl
  | ok l =>
    obtain ⟨hlookup, hbelow⟩ := hl l hresolve
    by_cases hdir : t.lookup l = some .directory
    · obtain ⟨names, hnames, hin⟩ := exists_names hs hresolve hdir
      obtain ⟨names', hnames', hin'⟩ :=
        exists_names hs' (hr.trans hresolve) (hlookup.trans hdir)
      rw [hnames, hnames', hin.eq hin' hbelow]
    · simp only [Tree.names, hr, hresolve, bind, Except.bind, hlookup]
      cases hentry : t.lookup l with
      | none => rfl
      | some e =>
        cases e with
        | directory => exact absurd hentry hdir
        | file content => rfl

end Tree

end TraefikUpgrade.FileSystem
