/-
# The resources that a request selects

A request looks for resources of version 2 in files of certain namespaces and names (`Selects`), and
every resource that it selects is the first one in such a file (`exists_read_of_select`). So two trees
that hold the same on the way to the directory of the store and below its directory for version 2 give
the same selection (`Alike.select_eq`).

Key definitions: `Selects`, `LeadsTo`, `Alike`.
Key theorems: `exists_read_of_select`, `read_eq_ok`, `Alike.select_eq`.
-/
import TraefikUpgrade.Proofs.FileSystem.Files
import TraefikUpgrade.Proofs.Store.Locations
import TraefikUpgrade.Proofs.Traversal
import TraefikUpgrade.Store.Migration

namespace TraefikUpgrade.Store

open FileSystem
open Resource (Group GroupKind Manifest)

variable {d : Directory} {r : Request} {t t' : Tree} {m : Manifest}

/-! ### Where a request looks -/

/-- A request looks for resources in a file of a namespace. -/
structure Selects (r : Request) (ns file : String) : Prop where
  namespaceEntry : IsEntryName ns
  fileEntry : IsEntryName file
  «namespace» : ∀ ns', r.namespace = some ns' → ns = ns'
  name : ∀ name, r.name = some name →
    file = fileName name ∧ ns = r.namespace.getD Resource.defaultNamespace

theorem read_eq_ok {p : Path} (h : d.read t p = .ok m) :
    ∃ l text ms, t.resolve p = .ok l ∧ t.lookup l = some (.file (.text text)) ∧
      Resource.decode d.registry text = .ok (m :: ms) := by
  unfold Directory.read at h
  cases htext : t.readText p with
  | error refusal => rw [htext] at h; cases h
  | ok text =>
    obtain ⟨l, hl, hlookup⟩ := Tree.readText_eq_ok_iff.1 htext
    rw [htext] at h
    dsimp only at h
    cases hdecode : Resource.decode d.registry text with
    | error fault => rw [hdecode] at h; cases h
    | ok ms =>
      rw [hdecode] at h
      cases ms with
      | nil => cases h
      | cons m' ms =>
        cases h
        exact ⟨l, text, ms, hl, hlookup, hdecode⟩

/-- The paths in a directory are those of names. -/
theorem exists_name_of_pathsIn {p path : Path} {paths : List Path} (hs : t.Sound)
    (h : Directory.pathsIn t p = .ok paths) (hpath : path ∈ paths) :
    ∃ s, IsEntryName s ∧ path = p.join s := by
  unfold Directory.pathsIn at h
  cases hnames : t.names p with
  | error refusal =>
    rw [hnames] at h
    cases refusal with
    | notFound =>
      cases h
      cases hpath
    | _ => cases h
  | ok names =>
    obtain ⟨l, -, -, hin⟩ := Tree.namesIn_of_names hs hnames
    rw [hnames] at h
    cases h
    obtain ⟨s, hmem, rfl⟩ := List.mem_map.1 hpath
    exact ⟨s, hin.entryName s hmem, rfl⟩

theorem exists_read_of_readAll {p : Path} {ms : List Manifest} (hs : t.Sound)
    (h : d.readAll t p = .ok ms) (hm : m ∈ ms) :
    ∃ file, IsEntryName file ∧ d.read t (p.join file) = .ok m := by
  obtain ⟨paths, hpaths, h⟩ := bind_eq_ok h
  obtain ⟨path, hpath, hread⟩ := (mem_of_mapM h).1 m hm
  obtain ⟨file, hfile, rfl⟩ := exists_name_of_pathsIn hs hpaths (List.mem_filter.1 hpath).1
  exact ⟨file, hfile, hread⟩

theorem list_namespace_eq (kind : GroupKind) (ns : String) : d.list t kind (some ns) =
    if isNamespace ns then d.readAll t ((d.kindPath kind).join ns)
    else .error (.badName .namespace ns) := by
  unfold Directory.list Directory.namespacePath
  dsimp only
  split
  · simp only [Except.map, bind, Except.bind, List.mapM_cons, List.mapM_nil]
    cases d.readAll t ((d.kindPath kind).join ns) with
    | error fault => rfl
    | ok ms => simp [pure, Except.pure]
  · rfl

theorem list_kind_eq (kind : GroupKind) : d.list t kind none =
    match Directory.pathsIn t (d.kindPath kind) with
    | .error fault => .error fault
    | .ok paths => ((paths.filter t.isDirectory).mapM (d.readAll t)).map List.flatten := by
  unfold Directory.list
  cases Directory.pathsIn t (d.kindPath kind) with
  | error fault => rfl
  | ok paths =>
    simp only [Except.map, bind, Except.bind]
    cases (paths.filter t.isDirectory).mapM (d.readAll t) <;> rfl

theorem exists_read_of_list {kind : GroupKind} {ns? : Option String} {ms : List Manifest}
    (hs : t.Sound) (h : d.list t kind ns? = .ok ms) (hm : m ∈ ms) :
    ∃ ns file, IsEntryName ns ∧ IsEntryName file ∧ (∀ ns', ns? = some ns' → ns = ns') ∧
      d.read t (d.objectPath kind ns file) = .ok m := by
  cases ns? with
  | some ns =>
    rw [list_namespace_eq] at h
    by_cases hns : isNamespace ns = true
    · rw [if_pos hns] at h
      obtain ⟨file, hfile, hread⟩ := exists_read_of_readAll hs h hm
      exact ⟨ns, file, isEntryName_of_isNamespace hns, hfile, fun ns' he => Option.some.inj he,
        hread⟩
    · rw [if_neg hns] at h
      cases h
  | none =>
    rw [list_kind_eq] at h
    cases hpaths : Directory.pathsIn t (d.kindPath kind) with
    | error fault => rw [hpaths] at h; cases h
    | ok paths =>
      rw [hpaths] at h
      cases hread : (paths.filter t.isDirectory).mapM (d.readAll t) with
      | error fault => simp [hread, Except.map] at h
      | ok found =>
        simp only [hread, Except.map, Except.ok.injEq] at h
        subst h
        obtain ⟨ms, hms, hm⟩ := List.mem_flatten.1 hm
        obtain ⟨p, hp, hreadAll⟩ := (mem_of_mapM hread).1 ms hms
        obtain ⟨ns, hns, rfl⟩ := exists_name_of_pathsIn hs hpaths (List.mem_filter.1 hp).1
        obtain ⟨file, hfile, hread⟩ := exists_read_of_readAll hs hreadAll hm
        exact ⟨ns, file, hns, hfile, nofun, hread⟩

theorem read_of_get {kind : GroupKind} {ns name : String} (h : d.get t kind ns name = .ok m) :
    isName name = true ∧ isNamespace ns = true ∧
      d.read t (d.objectPath kind ns (fileName name)) = .ok m := by
  obtain ⟨p, hp, h⟩ := bind_eq_ok h
  rw [Directory.path_eq] at hp
  split at hp
  · next hname =>
    split at hp
    · next hns =>
      cases hp
      split at h
      · exact ⟨hname, hns, h⟩
      · cases h
    · cases hp
  · cases hp

/-- A resource that is selected is read from a file where the request looks. -/
theorem exists_read_of_select {ms : List Manifest} (hs : t.Sound) (h : select d t r = .ok ms)
    (hm : m ∈ ms) :
    ∃ ns file, Selects r ns file ∧ d.read t (d.objectPath ⟨.v2, r.type⟩ ns file) = .ok m := by
  unfold select at h
  dsimp only at h
  cases hname : r.name with
  | none =>
    rw [hname] at h
    obtain ⟨ns, file, hns, hfile, hnamespace, hread⟩ := exists_read_of_list hs h hm
    refine ⟨ns, file, ⟨hns, hfile, hnamespace, fun name he => ?_⟩, hread⟩
    rw [hname] at he
    cases he
  | some name =>
    rw [hname] at h
    dsimp only at h
    cases hget : d.get t ⟨.v2, r.type⟩ (r.namespace.getD Resource.defaultNamespace) name with
    | error fault => rw [hget] at h; cases h
    | ok found =>
      rw [hget] at h
      cases h
      obtain rfl := List.mem_singleton.1 hm
      obtain ⟨hisName, hisNamespace, hread⟩ := read_of_get hget
      refine ⟨_, _, ⟨isEntryName_of_isNamespace hisNamespace, isEntryName_fileName hisName,
        fun ns he => ?_, fun name' he => ?_⟩, hread⟩
      · rw [he]
        rfl
      · rw [hname] at he
        cases he
        exact ⟨rfl, rfl⟩

/-! ### Trees that hold the same for a request -/

/-- Steps below a directory stay below it. -/
theorem prefix_of_mem_visited {names : List String} (hn : ∀ s ∈ names, IsEntryName s)
    {l x : Location} (hx : x ∈ visited l names) : l <+: x := by
  induction names generalizing l with
  | nil => cases hx
  | cons s names ih =>
    rw [List.forall_mem_cons] at hn
    rcases List.mem_cons.1 hx with rfl | hx
    · exact List.prefix_rfl
    · rw [move_name hn.1] at hx
      exact (List.prefix_append l [s]).trans (ih hn.2 hx)

/-- Steps to something below a directory of the store are taken on the way to the store, from its
directory, or from that one on. -/
theorem Directory.mem_visited {start x : Location} {first : String} {names : List String}
    (hn : ∀ s ∈ first :: names, IsEntryName s)
    (hx : x ∈ visited start (d.root.way ++ first :: names)) :
    x ∈ visited start d.root.way ∨ x = d.base start ∨ d.base start ++ [first] <+: x := by
  rw [List.forall_mem_cons] at hn
  rw [visited_append, List.mem_append] at hx
  refine hx.imp_right fun hx => ?_
  rcases List.mem_cons.1 hx with rfl | hx
  · exact .inl rfl
  · rw [move_name hn.1] at hx
    exact .inr (prefix_of_mem_visited hn.2 hx)

/-- A path leads to the store and from there on by names. -/
structure LeadsTo (d : Directory) (p : Path) (names : List String) : Prop where
  entryName : ∀ s ∈ names, IsEntryName s
  resolve_eq : ∀ t : Tree, t.resolve p = (d.root.way ++ names).foldlM t.step (t.start d.root)

theorem leadsTo_kindPath (kind : GroupKind) :
    LeadsTo d (d.kindPath kind) [kind.group.name, kind.type.name] :=
  ⟨fun s hs => (names_of_kind kind s hs).1, fun _ => Directory.resolve_kindPath⟩

theorem leadsTo_namespacePath (kind : GroupKind) {ns : String} (hns : IsEntryName ns) :
    LeadsTo d ((d.kindPath kind).join ns) [kind.group.name, kind.type.name, ns] := by
  refine ⟨?_, fun _ => Directory.resolve_namespacePath hns⟩
  simp only [List.forall_mem_cons]
  exact ⟨(isEntryName_group _).1, (isEntryName_type _).1, hns, nofun⟩

theorem leadsTo_objectPath (kind : GroupKind) {ns file : String} (hns : IsEntryName ns)
    (hfile : IsEntryName file) : LeadsTo d (d.objectPath kind ns file) (stepsTo kind ns file) :=
  ⟨isEntryName_stepsTo hns hfile, fun _ => Directory.resolve_objectPath hns hfile⟩

/-- Two trees hold the same on the way to a store, and in the store below its directory for version 2. -/
structure Alike (d : Directory) (t t' : Tree) : Prop where
  sound : t.Sound
  sound' : t'.Sound
  start : t'.start d.root = t.start d.root
  way : ∀ x ∈ visited (t.start d.root) d.root.way, t'.lookup x = t.lookup x
  base : t'.lookup (d.base (t.start d.root)) = t.lookup (d.base (t.start d.root))
  below : ∀ x, d.base (t.start d.root) ++ [Group.v2.name] <+: x → t'.lookup x = t.lookup x

namespace Alike

variable {p : Path} {names : List String} {kind : GroupKind}

theorem resolve_eq (h : Alike d t t') (hp : LeadsTo d p (Group.v2.name :: names)) :
    t'.resolve p = t.resolve p := by
  rw [hp.resolve_eq, hp.resolve_eq, h.start]
  refine Tree.foldlM_step_congr fun x hx => ?_
  rcases Directory.mem_visited hp.entryName hx with hx | rfl | hx
  · exact h.way x hx
  · exact h.base
  · exact h.below x hx

/-- What is below the directory to which a path leads is the same. -/
theorem lookup_eq (h : Alike d t t') (hp : LeadsTo d p (Group.v2.name :: names)) {l : Location}
    (hl : t.resolve p = .ok l) (below : List String) :
    t'.lookup (l ++ below) = t.lookup (l ++ below) := by
  rw [hp.resolve_eq] at hl
  obtain ⟨-, -, rfl⟩ := Tree.foldlM_step_eq_ok_iff.1 hl
  rw [Directory.foldl_move _ hp.entryName]
  apply h.below
  exact ⟨names ++ below, by simp⟩

theorem entry_eq (h : Alike d t t') (hp : LeadsTo d p (Group.v2.name :: names)) :
    t'.entry p = t.entry p := by
  rw [Tree.entry, Tree.entry, h.resolve_eq hp]
  cases hl : t.resolve p with
  | error refusal => rfl
  | ok l =>
    have hlookup := h.lookup_eq hp hl []
    rw [List.append_nil] at hlookup
    simp only [bind, Except.bind, hlookup]

theorem isFile_eq (h : Alike d t t') (hp : LeadsTo d p (Group.v2.name :: names)) :
    t'.isFile p = t.isFile p := by
  rw [Tree.isFile, Tree.isFile, h.entry_eq hp]

theorem isDirectory_eq (h : Alike d t t') (hp : LeadsTo d p (Group.v2.name :: names)) :
    t'.isDirectory p = t.isDirectory p := by
  rw [Tree.isDirectory, Tree.isDirectory, h.entry_eq hp]

theorem names_eq (h : Alike d t t') (hp : LeadsTo d p (Group.v2.name :: names)) :
    t'.names p = t.names p := by
  refine Tree.names_congr h.sound h.sound' (h.resolve_eq hp) fun l hl => ⟨?_, fun s => ?_⟩
  · simpa using h.lookup_eq hp hl []
  · exact h.lookup_eq hp hl [s]

theorem read_eq (h : Alike d t t') (hp : LeadsTo d p (Group.v2.name :: names)) :
    d.read t' p = d.read t p := by
  rw [Directory.read, Directory.read, Tree.readText, Tree.readText, h.entry_eq hp]

theorem pathsIn_eq (h : Alike d t t') (hp : LeadsTo d p (Group.v2.name :: names)) :
    Directory.pathsIn t' p = Directory.pathsIn t p := by
  rw [Directory.pathsIn, Directory.pathsIn, h.names_eq hp]

theorem readAll_eq (h : Alike d t t') (hkind : kind.group = .v2) {ns : String}
    (hns : IsEntryName ns) :
    d.readAll t' ((d.kindPath kind).join ns) = d.readAll t ((d.kindPath kind).join ns) := by
  have hlead := leadsTo_namespacePath (d := d) kind hns
  rw [hkind] at hlead
  rw [Directory.readAll, Directory.readAll, h.pathsIn_eq hlead]
  cases hpaths : Directory.pathsIn t ((d.kindPath kind).join ns) with
  | error fault => rfl
  | ok paths =>
    refine mapM_congr fun p hp => ?_
    obtain ⟨file, hfile, rfl⟩ := exists_name_of_pathsIn h.sound hpaths (List.mem_filter.1 hp).1
    have hlead := leadsTo_objectPath (d := d) kind hns hfile
    rw [stepsTo, hkind] at hlead
    exact h.read_eq hlead

theorem list_eq (h : Alike d t t') (hkind : kind.group = .v2) (ns? : Option String) :
    d.list t' kind ns? = d.list t kind ns? := by
  cases ns? with
  | some ns =>
    rw [list_namespace_eq, list_namespace_eq]
    by_cases hns : isNamespace ns = true
    · rw [h.readAll_eq hkind (isEntryName_of_isNamespace hns)]
    · rw [if_neg hns, if_neg hns]
  | none =>
    have hlead := leadsTo_kindPath (d := d) kind
    rw [hkind] at hlead
    rw [list_kind_eq, list_kind_eq, h.pathsIn_eq hlead]
    cases hpaths : Directory.pathsIn t (d.kindPath kind) with
    | error fault => rfl
    | ok paths =>
      have hnames : ∀ p ∈ paths, ∃ ns, IsEntryName ns ∧ p = (d.kindPath kind).join ns :=
        fun p hp => exists_name_of_pathsIn h.sound hpaths hp
      have hdirs : paths.filter t'.isDirectory = paths.filter t.isDirectory := by
        refine List.filter_congr fun p hp => ?_
        obtain ⟨ns, hns, rfl⟩ := hnames p hp
        have hlead := leadsTo_namespacePath (d := d) kind hns
        rw [hkind] at hlead
        exact h.isDirectory_eq hlead
      have hread : (paths.filter t.isDirectory).mapM (d.readAll t') =
          (paths.filter t.isDirectory).mapM (d.readAll t) := by
        refine mapM_congr fun p hp => ?_
        obtain ⟨ns, hns, rfl⟩ := hnames p (List.mem_filter.1 hp).1
        exact h.readAll_eq hkind hns
      simp only [hdirs, hread]

theorem get_eq (h : Alike d t t') (hkind : kind.group = .v2) (ns name : String) :
    d.get t' kind ns name = d.get t kind ns name := by
  unfold Directory.get
  rw [Directory.path_eq]
  by_cases hname : isName name = true
  · by_cases hns : isNamespace ns = true
    · have hlead := leadsTo_objectPath (d := d) kind (isEntryName_of_isNamespace hns)
        (isEntryName_fileName hname)
      rw [stepsTo, hkind] at hlead
      rw [if_pos hname, if_pos hns]
      simp only [bind, Except.bind, h.isFile_eq hlead, h.read_eq hlead]
    · rw [if_pos hname, if_neg hns]
      rfl
  · rw [if_neg hname]
    rfl

/-- The same resources are selected. -/
theorem select_eq (h : Alike d t t') (r : Request) : select d t' r = select d t r := by
  unfold select
  dsimp only
  cases r.name with
  | none => exact h.list_eq rfl _
  | some name => exact congrArg (Except.map _) (h.get_eq rfl _ _)

end Alike

end TraefikUpgrade.Store
