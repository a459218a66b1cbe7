/-
# What a store represents

A catalogue is represented by a store if the files at the locations of resources are just those of the
catalogue, each with a text that is read as its resource, the way to each of them is there, and no other
file is in the way of what will be created (`Represents`). Then what is at the path of a resource is
decided by the catalogue (`Represents.entry_cases`).

Key definitions: `Vacant`, `Kept`, `Represents`.
Key theorems: `Represents.of_vacant`, `Represents.entry_cases`, `Represents.get_eq`.
-/
import TraefikUpgrade.Proofs.Store.Catalogue

namespace TraefikUpgrade.Store

open FileSystem
open Resource (GroupKind Manifest)

/-! ### The invariant -/

/-- There are no files in the directory of a store, and nothing at the locations of resources. -/
structure Vacant (d : Directory) (t : Tree) : Prop where
  files : ∀ l content, t.lookup l = some (.file content) → ¬ d.base (t.start d.root) <+: l
  objects : ∀ kind ns file, extension? file = some "yaml" →
    t.lookup (d.location (t.start d.root) kind ns file) = none

/-- The file of a resource holds a text that is read as the resource, and the way to it is there. -/
structure Kept (d : Directory) (start : Location) (t : Tree) (m : Manifest) (kind : GroupKind)
    (text : String) : Prop where
  groupKind : m.groupKind? = some kind
  name : isName m.name = true
  «namespace» : isNamespace m.namespace = true
  decoded : Resource.decode d.registry text = .ok [m]
  short : ∀ part ∈ d.root.way ++ stepsTo kind m.namespace (fileName m.name), IsShort part
  way : ∀ x ∈ visited start (d.root.way ++ stepsTo kind m.namespace (fileName m.name)),
    t.lookup x = some .directory
  file : t.lookup (d.location start kind m.namespace (fileName m.name)) = some (.file (.text text))

/-- The files of a store are those of the resources in a catalogue. `start` is where the path of the
store starts. -/
structure Represents (d : Directory) (start : Location) (t : Tree) (c : Catalogue) : Prop where
  sound : t.Sound
  start_eq : t.start d.root = start
  short : ∀ part ∈ d.root.way, IsShort part
  /-- The directory of the store can be created. -/
  way : ∀ x ∈ visited start d.root.way, ∀ content, t.lookup x ≠ some (.file content)
  /-- Its path does not lead through the place of a resource and up again. -/
  apart : ∀ x ∈ visited start d.root.way, ∀ kind ns file, extension? file = some "yaml" →
    x ≠ d.location start kind ns file
  files : ∀ l content, t.lookup l = some (.file content) → d.base start <+: l →
    ∃ kind ns file, extension? file = some "yaml" ∧ l = d.location start kind ns file
  kept : ∀ m ∈ c, ∃ kind text, Kept d start t m kind text
  only : ∀ kind ns file, extension? file = some "yaml" →
    (t.lookup (d.location start kind ns file)).isSome →
      ∃ m ∈ c, m.groupKind? = some kind ∧ m.namespace = ns ∧ fileName m.name = file
  distinct : c.Pairwise fun m m' => key? m ≠ key? m'

variable {d : Directory} {start : Location} {t : Tree} {c : Catalogue} {kind : GroupKind} {ns : String}

/-- A store without files represents the empty catalogue. -/
theorem Represents.of_vacant {root : Tree} (hs : t.Sound) (hroot : t.createDirectories d.root = .ok root)
    (hv : Vacant d root) : Represents d (t.start d.root) t [] := by
  obtain ⟨hgrown, hdirs, hshort, -⟩ := Tree.grown_of_createDirectories hroot
  have hstart : root.start d.root = t.start d.root := hgrown.start _
  have hway : d.root.way ⊆ steps d.root ∧
      visited (t.start d.root) d.root.way ⊆ visited (t.start d.root) (steps d.root) := by
    rcases d.root.steps_eq with he | he
    · rw [he]
      exact ⟨List.Subset.refl _, List.Subset.refl _⟩
    · rw [he, visited_append]
      exact ⟨List.subset_append_left _ _, List.subset_append_left _ _⟩
  exact {
    sound := hs
    start_eq := rfl
    short := fun part hpart => hshort part (hway.1 hpart)
    way := fun x hx content hfile => by
      have hdir := hdirs x (hway.2 hx)
      rw [hgrown.kept x _ hfile] at hdir
      cases hdir
    apart := by
      rintro x hx kind ns file hfile rfl
      have hdir := hdirs _ (hway.2 hx)
      rw [← hstart, hv.objects kind ns file hfile] at hdir
      cases hdir
    files := fun l content hfile hbase =>
      absurd (hstart ▸ hbase) (hv.files l content (hgrown.kept l _ hfile))
    kept := fun _ hm => absurd hm List.not_mem_nil
    only := fun kind ns file hfile hsome => by
      obtain ⟨e, he⟩ := Option.isSome_iff_exists.1 hsome
      have hroot := hgrown.kept _ _ he
      rw [← hstart, hv.objects kind ns file hfile] at hroot
      cases hroot
    distinct := .nil }

/-! ### Single resources -/

namespace Kept

variable {m : Manifest} {text : String}

theorem names (h : Kept d start t m kind text) :
    ∀ s ∈ stepsTo kind m.namespace (fileName m.name), IsEntryName s :=
  isEntryName_stepsTo (isEntryName_of_isNamespace h.namespace) (isEntryName_fileName h.name)

/-- The directories on the way to a file. -/
theorem directory (h : Kept d start t m kind text) {before after : List String} {s : String}
    (he : stepsTo kind m.namespace (fileName m.name) = before ++ s :: after) :
    (∀ x ∈ visited start (d.root.way ++ before), t.lookup x = some .directory) ∧
      t.lookup (d.base start ++ before) = some .directory := by
  have hbefore : ∀ s ∈ before, IsEntryName s := fun s hs =>
    h.names s (he ▸ List.mem_append_left _ hs)
  have hway := h.way
  rw [he, ← List.append_assoc, visited_append] at hway
  refine ⟨fun x hx => hway x (List.mem_append_left _ hx), ?_⟩
  rw [← Directory.foldl_move before hbefore]
  exact hway _ (List.mem_append_right _ (List.mem_cons_self ..))

/-- The directory of the namespace. -/
theorem namespace_directory (h : Kept d start t m kind text) (hs : t.start d.root = start) :
    t.lookup (d.base start ++ [kind.group.name, kind.type.name, m.namespace]) = some .directory ∧
      t.isDirectory ((d.kindPath kind).join m.namespace) = true := by
  have hsteps : stepsTo kind m.namespace (fileName m.name) =
      [kind.group.name, kind.type.name, m.namespace] ++ [fileName m.name] := rfl
  obtain ⟨hway, hdir⟩ := h.directory hsteps
  have hresolve : t.resolve ((d.kindPath kind).join m.namespace) =
      .ok (d.base start ++ [kind.group.name, kind.type.name, m.namespace]) := by
    rw [Directory.resolve_namespacePath (isEntryName_of_isNamespace h.namespace), hs]
    refine Tree.foldlM_step_eq_ok_iff.2 ⟨hway, fun part hpart => h.short part ?_, ?_⟩
    · rw [hsteps, ← List.append_assoc]
      exact List.mem_append_left _ hpart
    · exact (Directory.foldl_move _ fun s hs => h.names s (hsteps ▸ List.mem_append_left _ hs)).symm
  exact ⟨hdir, Tree.isDirectory_iff.2 ⟨_, hresolve, hdir⟩⟩

/-- A file that is kept stays when nothing is taken away. -/
theorem mono {t' : Tree} (h : Kept d start t m kind text)
    (ht : ∀ x e, t.lookup x = some e → t'.lookup x = some e) : Kept d start t' m kind text :=
  { h with way := fun x hx => ht x _ (h.way x hx), file := ht _ _ h.file }

theorem resolve (h : Kept d start t m kind text) (hs : t.start d.root = start) :
    t.resolve (d.objectPath kind m.namespace (fileName m.name)) =
      .ok (d.location start kind m.namespace (fileName m.name)) := by
  rw [Directory.resolve_objectPath (isEntryName_of_isNamespace h.namespace)
    (isEntryName_fileName h.name), hs]
  exact Tree.foldlM_step_eq_ok_iff.2 ⟨h.way, h.short, (Directory.foldl_move _ h.names).symm⟩

theorem entry (h : Kept d start t m kind text) (hs : t.start d.root = start) :
    t.entry (d.objectPath kind m.namespace (fileName m.name)) = .ok (.file (.text text)) :=
  Tree.entry_eq_ok_iff.2 ⟨_, h.resolve hs, h.file⟩

theorem read (h : Kept d start t m kind text) (hs : t.start d.root = start) :
    d.read t (d.objectPath kind m.namespace (fileName m.name)) = .ok m := by
  have htext : t.readText (d.objectPath kind m.namespace (fileName m.name)) = .ok text := by
    rw [Tree.readText, h.entry hs]
    rfl
  rw [Directory.read, htext]
  dsimp only
  rw [h.decoded]

end Kept

namespace Directory

theorem path_of_check {name : String} (hk : Key.check ⟨kind, ns, name⟩ = .ok ()) :
    d.path kind ns name = .ok (d.objectPath kind ns (fileName name)) := by
  obtain ⟨hname, hns⟩ := Key.check_eq_ok_iff.1 hk
  rw [path_eq, if_pos hname, if_pos hns]

theorem path_of_refused {name : String} {fault : Fault}
    (hk : Key.check ⟨kind, ns, name⟩ = .error fault) : d.path kind ns name = .error fault := by
  rw [path_eq]
  unfold Key.check at hk
  dsimp only at hk
  split at hk
  · next hname =>
    split at hk
    · cases hk
    · next hns =>
      cases hk
      rw [if_pos hname, if_neg hns]
  · next hname =>
    cases hk
    rw [if_neg hname]

end Directory

namespace Represents

/-- What is at the path of a file is in the catalogue. -/
theorem exists_of_entry (h : Represents d start t c) {name : String} {e : Entry}
    (hns : isNamespace ns = true) (hname : isName name = true)
    (he : t.entry (d.objectPath kind ns (fileName name)) = .ok e) :
    ∃ m ∈ c, key? m = some ⟨kind, ns, name⟩ := by
  have hentryNs := isEntryName_of_isNamespace hns
  have hentryFile := isEntryName_fileName hname
  obtain ⟨l, hl, hlookup⟩ := Tree.entry_eq_ok_iff.1 he
  rw [Directory.resolve_objectPath hentryNs hentryFile] at hl
  obtain ⟨-, -, hl⟩ := Tree.foldlM_step_eq_ok_iff.1 hl
  have hl : l = d.location start kind ns (fileName name) := by
    rw [hl, h.start_eq]
    exact Directory.foldl_move _ (isEntryName_stepsTo hentryNs hentryFile)
  obtain ⟨m, hm, hkind, hmns, hfile⟩ := h.only kind ns (fileName name)
    (extension?_yaml (of_isName hname).1) (by rw [← hl, hlookup]; rfl)
  exact ⟨m, hm, key?_eq_some_iff.2 ⟨hkind, hmns, fileName_inj hfile⟩⟩

/-- Whether there is something at the path of a resource. -/
theorem entry_cases (h : Represents d start t c) (k : Key) (hk : k.check = .ok ()) :
    (∃ m, c.resource? k = some m ∧ ∃ text, Kept d start t m k.kind text ∧
      t.entry (d.objectPath k.kind k.namespace (fileName k.name)) = .ok (.file (.text text)) ∧
      d.read t (d.objectPath k.kind k.namespace (fileName k.name)) = .ok m) ∨
    (c.resource? k = none ∧
      ∃ refusal, t.entry (d.objectPath k.kind k.namespace (fileName k.name)) = .error refusal) := by
  obtain ⟨hname, hns⟩ := Key.check_eq_ok_iff.1 hk
  cases hfind : c.resource? k with
  | some m =>
    obtain ⟨hm, hkey⟩ := Catalogue.of_resource?_eq_some hfind
    obtain ⟨kind, text, hkept⟩ := h.kept m hm
    obtain ⟨hkind, hmns, hmname⟩ := key?_eq_some_iff.1 hkey
    obtain rfl : kind = k.kind := Option.some.inj (hkept.groupKind.symm.trans hkind)
    refine .inl ⟨m, rfl, text, hkept, ?_⟩
    rw [← hmns, ← hmname]
    exact ⟨hkept.entry h.start_eq, hkept.read h.start_eq⟩
  | none =>
    refine .inr ⟨rfl, ?_⟩
    cases he : t.entry (d.objectPath k.kind k.namespace (fileName k.name)) with
    | error refusal => exact ⟨refusal, rfl⟩
    | ok e =>
      obtain ⟨m, hm, hkey⟩ := h.exists_of_entry hns hname he
      exact absurd hkey (Catalogue.resource?_eq_none_iff.1 hfind m hm)

theorem get_eq (h : Represents d start t c) (kind : GroupKind) (ns name : String) :
    d.get t kind ns name = c.get ⟨kind, ns, name⟩ := by
  cases hk : Key.check ⟨kind, ns, name⟩ with
  | error fault =>
    have hpath : d.path kind ns name = .error fault := Directory.path_of_refused hk
    rw [Directory.get, Catalogue.get, hpath, hk]
    rfl
  | ok =>
    have hpath : d.path kind ns name = .ok (d.objectPath kind ns (fileName name)) :=
      Directory.path_of_check hk
    rw [Directory.get, Catalogue.get, hpath, hk]
    show (if t.isFile (d.objectPath kind ns (fileName name)) then _ else _) = _
    rcases h.entry_cases _ hk with ⟨m, hfind, text, -, hentry, hread⟩ | ⟨hfind, refusal, hentry⟩
    · have hfile : t.isFile (d.objectPath kind ns (fileName name)) = true := by
        rw [Tree.isFile, hentry]
      rw [if_pos hfile, hread, hfind]
      rfl
    · have hfile : t.isFile (d.objectPath kind ns (fileName name)) = false := by
        rw [Tree.isFile, hentry]
      rw [hfile, hfind]
      rfl

/-! ### The resources of a catalogue -/

theorem eq_of_key (h : Represents d start t c) {m m' : Manifest} (hm : m ∈ c) (hm' : m' ∈ c)
    (hk : key? m = key? m') : m = m' := by
  have hdistinct := h.distinct
  clear h
  induction c with
  | nil => cases hm
  | cons first rest ih =>
    rw [List.pairwise_cons] at hdistinct
    rcases List.mem_cons.1 hm with rfl | hrest
    · rcases List.mem_cons.1 hm' with rfl | hrest'
      · rfl
      · exact absurd hk (hdistinct.1 m' hrest')
    · rcases List.mem_cons.1 hm' with rfl | hrest'
      · exact absurd hk.symm (hdistinct.1 m hrest)
      · exact ih hrest hrest' hdistinct.2

theorem nodup (h : Represents d start t c) : List.Nodup c :=
  List.nodup_iff_pairwise_ne.2 (h.distinct.imp fun hne he => hne (congrArg key? he))

theorem kept_of_kind (h : Represents d start t c) {m : Manifest} (hm : m ∈ c)
    (hkind : m.groupKind? = some kind) : ∃ text, Kept d start t m kind text := by
  obtain ⟨kind', text, hkept⟩ := h.kept m hm
  obtain rfl : kind' = kind := Option.some.inj (hkept.groupKind.symm.trans hkind)
  exact ⟨text, hkept⟩

theorem not_file_below (h : Represents d start t c) {below : List String} (hlt : below.length < 4)
    (content : Content) : t.lookup (d.base start ++ below) ≠ some (.file content) := by
  intro hfile
  obtain ⟨kind, ns, file, -, hl⟩ := h.files _ _ hfile (List.prefix_append _ _)
  have hlength := congrArg List.length hl
  rw [Directory.length_location, List.length_append] at hlength
  omega

end Represents

end TraefikUpgrade.Store
