/-
# Walks through a file tree

Where a path leads depends on its steps alone (`move`); whether it leads anywhere depends on what is at
the locations from which the steps are taken (`visited`). Creating directories changes nothing but that
there are directories at those locations and at the last one (`Tree.Grown`).

Key definitions: `move`, `visited`, `Tree.Sound`, `Tree.Grown`, `Tree.NamesIn`.
Key theorems: `Tree.foldlM_step_eq_ok_iff`, `Tree.foldlM_step_cases`, `Tree.grown_of_createDirectories`,
`Tree.exists_names`.
-/
import TraefikUpgrade.Proofs.FileSystem.Paths
import TraefikUpgrade.Proofs.Traversal

namespace TraefikUpgrade.FileSystem

open Text

/-! ### Steps -/

/-- The location to which a step leads. -/
def move (l : Location) (part : String) : Location :=
  if part = "." then l else if part = ".." then l.dropLast else l ++ [part]

/-- The locations from which steps are taken. -/
def visited : Location → List String → List Location
  | _, [] => []
  | l, part :: parts => l :: visited (move l part) parts

/-- Whether a name is not too long for a file. -/
def IsShort (part : String) : Prop := utf8Length part.toList ≤ maxNameLength

theorem move_name {s : String} (h : IsEntryName s) (l : Location) : move l s = l ++ [s] := by
  rw [move, if_neg h.ne_here, if_neg h.ne_up]

theorem visited_append (l : Location) (parts parts' : List String) :
    visited l (parts ++ parts') = visited l parts ++ visited (parts.foldl move l) parts' := by
  induction parts generalizing l with
  | nil => rfl
  | cons part parts ih => exact congrArg (l :: ·) (ih (move l part))

/-- A step is a name, unless it stays or goes up. -/
theorem isEntryName_of_mem_steps {p : Path} {part : String} (h : part ∈ steps p) (hh : part ≠ ".")
    (hu : part ≠ "..") : IsEntryName part := by
  have hway : part ∈ p.way := by
    rcases p.steps_eq with he | he
    · exact he ▸ h
    · rw [he, List.mem_append, List.mem_singleton] at h
      exact h.resolve_right hh
  obtain ⟨hm, hne⟩ := List.mem_filter.1 hway
  obtain ⟨cs, hcs, rfl⟩ := List.mem_map.1 hm
  refine ⟨by simpa using hne, hh, hu, ?_⟩
  rw [String.toList_ofList]
  exact notMem_of_mem_splitAll hcs

namespace Tree

variable {t t' : Tree} {l l' : Location} {p : Path}

/-! ### What is at a location -/

theorem lookup_filter_ne {l l' : Location} (h : l' ≠ l) (entries : List (Location × Entry)) :
    (entries.filter (·.1 != l)).lookup l' = entries.lookup l' := by
  induction entries with
  | nil => rfl
  | cons entry entries ih =>
    obtain ⟨key, e⟩ := entry
    rw [List.filter_cons]
    by_cases hkey : key = l
    · have hne : (l' == key) = false := by simpa [hkey] using h
      simp [hkey, List.lookup_cons, hkey ▸ hne, ih]
    · simp [hkey, List.lookup_cons, ih]

theorem lookup_put_self (hl : l ≠ []) (t : Tree) (e : Entry) : (t.put l e).lookup l = some e := by
  simp [lookup, put, hl]

theorem lookup_put_of_ne (h : l' ≠ l) (t : Tree) (e : Entry) :
    (t.put l e).lookup l' = t.lookup l' := by
  have hne : (l' == l) = false := by simpa using h
  unfold lookup put
  simp [List.lookup_cons, hne, lookup_filter_ne h]

theorem mem_of_lookup {e : Entry} (hl : l ≠ []) (h : t.lookup l = some e) : (l, e) ∈ t.entries := by
  rw [lookup, if_neg hl] at h
  obtain ⟨before, after, he, -⟩ := List.lookup_eq_some_iff.1 h
  rw [he]
  exact List.mem_append_right _ (List.mem_cons_self ..)

theorem isSome_lookup_of_mem (h : l ∈ t.entries.map Prod.fst) : (t.lookup l).isSome := by
  unfold lookup
  split
  · rfl
  · obtain ⟨entry, hm, rfl⟩ := List.mem_map.1 h
    rw [List.lookup_isSome_iff]
    exact ⟨entry, hm, by simp⟩

/-- A tree as a file system holds it: there is one thing at a location, and its name is one. -/
structure Sound (t : Tree) : Prop where
  nodup : (t.entries.map Prod.fst).Nodup
  names : ∀ l ∈ t.entries.map Prod.fst, ∀ s ∈ l, IsEntryName s

theorem Sound.names_of_lookup (h : t.Sound) {e : Entry} (hl : t.lookup l = some e) :
    ∀ s ∈ l, IsEntryName s := by
  by_cases hn : l = []
  · rw [hn]
    exact fun _ hs => absurd hs List.not_mem_nil
  · exact h.names l (List.mem_map.2 ⟨_, mem_of_lookup hn hl, rfl⟩)

theorem Sound.put (h : t.Sound) (hl : ∀ s ∈ l, IsEntryName s) (e : Entry) : (t.put l e).Sound := by
  constructor
  · show (l :: (t.entries.filter (·.1 != l)).map Prod.fst).Nodup
    rw [List.nodup_cons]
    constructor
    · intro hm
      obtain ⟨entry, hm, rfl⟩ := List.mem_map.1 hm
      simpa using (List.mem_filter.1 hm).2
    · exact h.nodup.sublist (List.filter_sublist.map _)
  · intro l' hl'
    rcases List.mem_cons.1 hl' with rfl | hl'
    · exact hl
    · exact h.names l' ((List.filter_sublist.map _).subset hl')

/-! ### Following steps -/

theorem step_eq_ok_iff {part : String} :
    t.step l part = .ok l' ↔ t.lookup l = some .directory ∧ IsShort part ∧ l' = move l part := by
  unfold step move IsShort
  split
  · next hl => simp [hl]
  · next hl => simp [hl]
  · next hl =>
    rw [hl]
    split
    · next hp =>
      have hdot : utf8Length ".".toList ≤ maxNameLength := by decide
      rw [hp, and_iff_right rfl, and_iff_right hdot, Except.ok.injEq, eq_comm]
    · split
      · next hp =>
        have hdots : utf8Length "..".toList ≤ maxNameLength := by decide
        rw [hp, and_iff_right rfl, and_iff_right hdots, Except.ok.injEq, eq_comm]
      · split
        · next hlong => simp [Nat.not_le.2 hlong]
        · next hshort => simp [Nat.not_lt.1 hshort, eq_comm]

theorem foldlM_step_eq_ok_iff {parts : List String} : parts.foldlM t.step l = .ok l' ↔
    (∀ x ∈ visited l parts, t.lookup x = some .directory) ∧ (∀ part ∈ parts, IsShort part) ∧
      l' = parts.foldl move l := by
  induction parts generalizing l with
  | nil => simp [visited, pure, Except.pure, eq_comm]
  | cons part parts ih =>
    rw [List.foldlM_cons]
    cases hstep : t.step l part with
    | error refusal =>
      have hno : ¬ (t.lookup l = some .directory ∧ IsShort part) := fun h => by
        have hok := step_eq_ok_iff.2 ⟨h.1, h.2, rfl⟩
        rw [hstep] at hok
        cases hok
      simp only [visited, List.forall_mem_cons]
      constructor
      · exact fun h => by cases h
      · exact fun h => absurd ⟨h.1.1, h.2.1.1⟩ hno
    | ok next =>
      obtain ⟨hl, hshort, rfl⟩ := step_eq_ok_iff.1 hstep
      show parts.foldlM t.step (move l part) = .ok l' ↔ _
      rw [ih, visited, List.forall_mem_cons, List.forall_mem_cons, List.foldl_cons]
      simp [hl, hshort]

/-- Steps that never start from a file and have no name that is too long lead on, unless something is
not there. -/
theorem foldlM_step_cases {parts : List String}
    (hv : ∀ x ∈ visited l parts, ∀ content, t.lookup x ≠ some (.file content))
    (hs : ∀ part ∈ parts, IsShort part) :
    parts.foldlM t.step l = .ok (parts.foldl move l) ∨ parts.foldlM t.step l = .error .notFound := by
  induction parts generalizing l with
  | nil => exact .inl rfl
  | cons part parts ih =>
    rw [visited, List.forall_mem_cons] at hv
    rw [List.forall_mem_cons] at hs
    rw [List.foldlM_cons]
    cases hl : t.lookup l with
    | none =>
      right
      have hstep : t.step l part = .error .notFound := by rw [step, hl]
      rw [hstep]
      rfl
    | some e =>
      cases e with
      | directory =>
        have hstep : t.step l part = .ok (move l part) := step_eq_ok_iff.2 ⟨hl, hs.1, rfl⟩
        rw [hstep]
        exact ih hv.2 hs.2
      | file content => exact absurd hl (hv.1 content)

theorem start_join {s : String} (h : IsEntryName s) : t.start (p.join s) = t.start p := by
  rw [start, start, Path.isAbsolute_join h]

theorem resolve_join {s : String} (h : IsEntryName s) :
    t.resolve (p.join s) = (p.way ++ [s]).foldlM t.step (t.start p) := by
  have hne : (p.join s).text ≠ "" := fun he => Path.toList_join_ne (p := p) h (by rw [he]; rfl)
  rw [resolve, if_neg hne, Path.steps_join h, start_join h]

theorem entry_eq_ok_iff {e : Entry} :
    t.entry p = .ok e ↔ ∃ l, t.resolve p = .ok l ∧ t.lookup l = some e := by
  unfold entry
  cases t.resolve p with
  | error refusal => simp [bind, Except.bind]
  | ok l => cases hl : t.lookup l <;> simp [bind, Except.bind, pure, Except.pure, hl]

theorem isDirectory_iff :
    t.isDirectory p = true ↔ ∃ l, t.resolve p = .ok l ∧ t.lookup l = some .directory := by
  rw [← entry_eq_ok_iff, isDirectory]
  split
  · next he => simp [he]
  · next hne => exact ⟨nofun, fun he => absurd he hne⟩

/-! ### Creating directories and files -/

/-- The tree `t'` is `t` with directories at some of the given locations. -/
structure Grown (t t' : Tree) (P : Location → Prop) : Prop where
  kept : ∀ x e, t.lookup x = some e → t'.lookup x = some e
  new : ∀ x e, t'.lookup x = some e → t.lookup x = some e ∨ e = .directory ∧ P x
  start : ∀ p, t'.start p = t.start p
  sound : t.Sound → t'.Sound

theorem Grown.refl (t : Tree) (P : Location → Prop) : Grown t t P :=
  ⟨fun _ _ h => h, fun _ _ h => .inl h, fun _ => rfl, fun h => h⟩

theorem Grown.trans {t'' : Tree} {P : Location → Prop} (h : Grown t t' P) (h' : Grown t' t'' P) :
    Grown t t'' P where
  kept x e hx := h'.kept x e (h.kept x e hx)
  new x e hx := (h'.new x e hx).elim (h.new x e) .inr
  start p := (h'.start p).trans (h.start p)
  sound hs := h'.sound (h.sound hs)

theorem Grown.imp {P P' : Location → Prop} (h : Grown t t' P) (hi : ∀ x, P x → P' x) :
    Grown t t' P' :=
  ⟨h.kept, fun x e hx => (h.new x e hx).imp_right (.imp_right (hi x)), h.start, h.sound⟩

theorem names_move {part : String} (hl : ∀ s ∈ l, IsEntryName s)
    (hp : part ≠ "." → part ≠ ".." → IsEntryName part) : ∀ s ∈ move l part, IsEntryName s := by
  unfold move
  split
  · exact hl
  · next hh =>
    split
    · exact fun s hs => hl s (List.dropLast_subset _ hs)
    · next hu =>
      intro s hs
      rcases List.mem_append.1 hs with hs | hs
      · exact hl s hs
      · exact List.mem_singleton.1 hs ▸ hp hh hu

theorem grown_put (hn : t.lookup l = none)
    (hl : t.Sound → ∀ s ∈ l, IsEntryName s) : Grown t (t.put l .directory) (· = l) where
  kept x e hx := by
    have hne : x ≠ l := by
      rintro rfl
      rw [hn] at hx
      cases hx
    rw [lookup_put_of_ne hne, hx]
  new x e hx := by
    by_cases hx' : x = l
    · subst hx'
      have hne : x ≠ [] := by
        rintro rfl
        cases hn
      rw [lookup_put_self hne] at hx
      exact .inr ⟨(Option.some.inj hx).symm, rfl⟩
    · rw [lookup_put_of_ne hx'] at hx
      exact .inl hx
  start p := rfl
  sound hs := hs.put (hl hs) _

/-- One step of creating directories. -/
theorem stepCreating_eq_ok {part : String} {state : Tree × Location}
    (hp : part ≠ "." → part ≠ ".." → IsEntryName part)
    (h : stepCreating (t, l) part = .ok state) :
    t.lookup l = some .directory ∧ IsShort part ∧ state.2 = move l part ∧
      state.1.lookup (move l part) = some .directory ∧ Grown t state.1 (· = move l part) := by
  obtain ⟨next, hstep, h⟩ := bind_eq_ok h
  obtain ⟨hl, hshort, rfl⟩ := step_eq_ok_iff.1 hstep
  refine ⟨hl, hshort, ?_⟩
  split at h
  · next hn =>
    cases h
    have hne : move l part ≠ [] := by
      intro he
      rw [he] at hn
      cases hn
    exact ⟨rfl, lookup_put_self hne _ _,
      grown_put hn fun hs => names_move (hs.names_of_lookup hl) hp⟩
  · next hd =>
    cases h
    exact ⟨rfl, hd, .refl _ _⟩
  · cases h

theorem grown_of_foldlM {parts : List String} {state : Tree × Location}
    (hp : ∀ part ∈ parts, part ≠ "." → part ≠ ".." → IsEntryName part)
    (h : parts.foldlM stepCreating (t, l) = .ok state) :
    Grown t state.1 (fun x => x ∈ visited l parts ∨ x = parts.foldl move l) ∧
      (∀ x ∈ visited l parts, state.1.lookup x = some .directory) ∧
      (∀ part ∈ parts, IsShort part) ∧
      (parts ≠ [] → state.1.lookup (parts.foldl move l) = some .directory) := by
  induction parts generalizing t l with
  | nil =>
    cases h
    exact ⟨.refl _ _, fun _ hx => absurd hx List.not_mem_nil, fun _ hx => absurd hx List.not_mem_nil,
      fun hne => absurd rfl hne⟩
  | cons part parts ih =>
    rw [List.forall_mem_cons] at hp
    rw [List.foldlM_cons] at h
    obtain ⟨⟨t₁, l₁⟩, hstep, h⟩ := bind_eq_ok h
    obtain ⟨hl, hshort, rfl, hnext, hgrown⟩ := stepCreating_eq_ok hp.1 hstep
    obtain ⟨hrest, hdirs, hshorts, hlast⟩ := ih hp.2 h
    have hmoved : ∀ x, x = move l part →
        x ∈ visited l (part :: parts) ∨ x = (part :: parts).foldl move l := by
      rintro x rfl
      cases parts with
      | nil => exact .inr rfl
      | cons part' parts =>
        exact .inl (List.mem_cons_of_mem _ (List.mem_cons_self ..))
    refine ⟨(hgrown.imp hmoved).trans (hrest.imp fun x => ?_), ?_, ?_, fun _ => ?_⟩
    · exact Or.imp_left (List.mem_cons_of_mem _)
    · exact List.forall_mem_cons.2 ⟨hrest.kept _ _ (hgrown.kept _ _ hl), hdirs⟩
    · exact List.forall_mem_cons.2 ⟨hshort, hshorts⟩
    · cases parts with
      | nil => exact hrest.kept _ _ hnext
      | cons part' parts => exact hlast nofun

/-- Directories are created where the steps start and where they lead, and nowhere else. -/
theorem grown_of_createDirectories (h : t.createDirectories p = .ok t') :
    Grown t t' (fun x => x ∈ visited (t.start p) (steps p) ∨ x = (steps p).foldl move (t.start p)) ∧
      (∀ x ∈ visited (t.start p) (steps p), t'.lookup x = some .directory) ∧
      (∀ part ∈ steps p, IsShort part) ∧
      t'.lookup ((steps p).foldl move (t.start p)) = some .directory := by
  obtain ⟨state, hfold, h⟩ := bind_eq_ok h
  cases h
  obtain ⟨hgrown, hdirs, hshort, hlast⟩ :=
    grown_of_foldlM (fun _ hpart => isEntryName_of_mem_steps hpart) hfold
  exact ⟨hgrown, hdirs, hshort, hlast p.steps_ne_nil⟩

theorem write_eq_ok {content : Content} (h : t.write p content = .ok t') :
    ∃ l, t.resolve p = .ok l ∧ t.lookup l ≠ some .directory ∧ t' = t.put l (.file content) := by
  obtain ⟨l, hr, h⟩ := bind_eq_ok h
  refine ⟨l, hr, ?_⟩
  split at h
  · cases h
  · next hne =>
    cases h
    exact ⟨hne, rfl⟩

/-! ### Names in a directory -/

theorem nameIn?_eq_some {s : String} : nameIn? l l' = some s ↔ l' = l ++ [s] := by
  unfold nameIn?
  constructor
  · intro h
    split at h
    · next hl =>
      obtain ⟨init, rfl⟩ := List.getLast?_eq_some_iff.1 h
      rw [List.dropLast_concat] at hl
      rw [hl]
    · cases h
  · rintro rfl
    simp

/-- The names of what is at the locations below a given one, each once and in order. -/
structure NamesIn (t : Tree) (l : Location) (names : List String) : Prop where
  sorted : names.Pairwise (· < ·)
  mem : ∀ s, s ∈ names ↔ (t.lookup (l ++ [s])).isSome
  entryName : ∀ s ∈ names, IsEntryName s

theorem NamesIn.of_perm {names found : List String} (hs : t.Sound)
    (hfound : found = t.entries.filterMap fun e => nameIn? l e.1) (hperm : names.Perm found)
    (hsorted : names.Pairwise (· ≤ ·)) : NamesIn t l names := by
  have hnodup : found.Nodup := by
    rw [hfound, List.nodup_iff_pairwise_ne, List.pairwise_filterMap]
    have hkeys := hs.nodup
    rw [List.nodup_iff_pairwise_ne, List.pairwise_map] at hkeys
    refine hkeys.imp fun hne s hs s' hs' he => hne ?_
    rw [nameIn?_eq_some.1 hs, nameIn?_eq_some.1 hs', he]
  have hmem : ∀ s, s ∈ names ↔ (t.lookup (l ++ [s])).isSome := by
    intro s
    rw [hperm.mem_iff, hfound, List.mem_filterMap]
    constructor
    · rintro ⟨entry, hm, hname⟩
      rw [nameIn?_eq_some] at hname
      exact isSome_lookup_of_mem (hname ▸ List.mem_map_of_mem hm)
    · intro h
      obtain ⟨e, he⟩ := Option.isSome_iff_exists.1 h
      exact ⟨_, mem_of_lookup (by simp) he, nameIn?_eq_some.2 rfl⟩
  refine ⟨?_, hmem, fun s hm => ?_⟩
  · have hne := List.nodup_iff_pairwise_ne.1 (hperm.nodup_iff.2 hnodup)
    exact (hsorted.and hne).imp fun h => Std.lt_of_le_of_ne h.1 h.2
  · obtain ⟨e, he⟩ := Option.isSome_iff_exists.1 ((hmem s).1 hm)
    exact hs.names_of_lookup he s (List.mem_append_right _ (List.mem_singleton_self s))

theorem exists_names (hs : t.Sound) (hr : t.resolve p = .ok l) (hl : t.lookup l = some .directory) :
    ∃ names, t.names p = .ok names ∧ NamesIn t l names := by
  let found := t.entries.filterMap fun e => nameIn? l e.1
  have hnames : t.names p = .ok (found.mergeSort fun a b => decide (a ≤ b)) := by
    simp only [names, hr, hl, bind, Except.bind]
    rfl
  have htrans : ∀ a b c : String, decide (a ≤ b) = true → decide (b ≤ c) = true →
      decide (a ≤ c) = true := fun a b c hab hbc =>
    decide_eq_true (String.le_trans (of_decide_eq_true hab) (of_decide_eq_true hbc))
  have htotal : ∀ a b : String, (decide (a ≤ b) || decide (b ≤ a)) = true := fun a b => by
    simpa using String.le_total a b
  refine ⟨_, hnames, .of_perm hs rfl (List.mergeSort_perm _ _) ?_⟩
  exact (List.pairwise_mergeSort htrans htotal found).imp of_decide_eq_true

end Tree

end TraefikUpgrade.FileSystem
