/-
# Listing a store

The names in a directory come in order, so the resources in the files of a namespace are the listing of
the namespace, and the listings of all namespaces one after the other are the listing of a kind. A
directory that is not there yet has no names, which is the listing of no resources.

Key theorems: `Represents.names_cases`, `Represents.readAll`, `Represents.listing_of_namespaces`,
`Represents.list_eq`.
-/
import TraefikUpgrade.Proofs.Store.Represents

namespace TraefikUpgrade.Store

open FileSystem
open Resource (GroupKind Manifest)

namespace Represents

variable {d : Directory} {start : Location} {t : Tree} {c : Catalogue} {kind : GroupKind} {ns : String}

/-- The names in a directory of a kind or a namespace. -/
theorem names_cases (h : Represents d start t c) {p : Path} {below : List String}
    (hp : t.resolve p = (d.root.way ++ below).foldlM t.step (t.start d.root))
    (hbelow : ∀ s ∈ below, IsEntryName s ∧ IsShort s) (hlt : below.length < 4) :
    (∃ names, t.names p = .ok names ∧ t.NamesIn (d.base start ++ below) names) ∨
    (t.names p = .error .notFound ∧
      ¬ ((∀ x ∈ visited start (d.root.way ++ below), t.lookup x = some .directory) ∧
        t.lookup (d.base start ++ below) = some .directory)) := by
  rw [h.start_eq] at hp
  have hn : ∀ s ∈ below, IsEntryName s := fun s hs => (hbelow s hs).1
  have hshort : ∀ part ∈ d.root.way ++ below, IsShort part := fun part hpart =>
    (List.mem_append.1 hpart).elim (h.short part) fun hs => (hbelow part hs).2
  have hway : ∀ x ∈ visited start (d.root.way ++ below), ∀ content,
      t.lookup x ≠ some (.file content) := by
    intro x hx content
    rcases Directory.mem_visited_cases hn hx with hx | ⟨pre, rfl, hpre⟩
    · exact h.way x hx content
    · exact h.not_file_below (Nat.lt_trans hpre hlt) content
  rcases Tree.foldlM_step_cases hway hshort with hok | herror
  · rw [Directory.foldl_move below hn] at hok
    rw [hok] at hp
    cases hl : t.lookup (d.base start ++ below) with
    | none =>
      refine .inr ⟨?_, fun h => by cases h.2⟩
      simp only [Tree.names, hp, hl, bind, Except.bind]
      rfl
    | some e =>
      cases e with
      | directory => exact .inl (Tree.exists_names h.sound hp hl)
      | file content => exact absurd hl (h.not_file_below hlt content)
  · refine .inr ⟨by rw [Tree.names, hp, herror]; rfl, fun hdirs => ?_⟩
    rw [Tree.foldlM_step_eq_ok_iff.2 ⟨hdirs.1, hshort, rfl⟩] at herror
    cases herror

/-- Files of the resources in a catalogue are read as the resources. -/
theorem exists_mapM (h : Represents d start t c) {files : List String}
    (hfiles : ∀ s ∈ files, extension? s = some "yaml" ∧
      (t.lookup (d.location start kind ns s)).isSome) :
    ∃ ms, files.mapM (fun s => d.read t (d.objectPath kind ns s)) = .ok ms ∧
      ms.map (fun m => fileName m.name) = files ∧
      ∀ m ∈ ms, m ∈ c ∧ m.groupKind? = some kind ∧ m.namespace = ns := by
  induction files with
  | nil => exact ⟨[], rfl, rfl, fun _ hm => absurd hm List.not_mem_nil⟩
  | cons s files ih =>
    rw [List.forall_mem_cons] at hfiles
    obtain ⟨ms, hms, hmap, hall⟩ := ih hfiles.2
    obtain ⟨m, hm, hkind, rfl, rfl⟩ := h.only kind ns s hfiles.1.1 hfiles.1.2
    obtain ⟨text, hkept⟩ := h.kept_of_kind hm hkind
    refine ⟨m :: ms, ?_, by rw [List.map_cons, hmap], List.forall_mem_cons.2 ⟨⟨hm, hkind, rfl⟩, hall⟩⟩
    rw [List.mapM_cons, hkept.read h.start_eq, hms]
    rfl

/-- The resources in the files of a namespace are those of the namespace, in order. -/
theorem listing_of_namesIn (h : Represents d start t c) {names : List String}
    (hn : t.NamesIn (d.base start ++ [kind.group.name, kind.type.name, ns]) names) :
    ∃ ms, (names.filter fun s => extension? s == some "yaml").mapM
        (fun s => d.read t (d.objectPath kind ns s)) = .ok ms ∧
      Listing (fun m => (m ∈ c ∧ m.groupKind? = some kind) ∧ m.namespace = ns) ms := by
  have hmem : ∀ s, s ∈ names ↔ (t.lookup (d.location start kind ns s)).isSome := by
    intro s
    rw [hn.mem, List.append_assoc]
    rfl
  have hfiles : ∀ s ∈ names.filter (fun s => extension? s == some "yaml"),
      extension? s = some "yaml" ∧ (t.lookup (d.location start kind ns s)).isSome := by
    intro s hs
    obtain ⟨hs, hyaml⟩ := List.mem_filter.1 hs
    exact ⟨beq_iff_eq.1 hyaml, (hmem s).1 hs⟩
  obtain ⟨ms, hms, hmap, hall⟩ := h.exists_mapM hfiles
  have hsorted : ms.Pairwise fun m m' => fileName m.name < fileName m'.name := by
    rw [← List.pairwise_map (f := fun m : Manifest => fileName m.name), hmap]
    exact hn.sorted.filter _
  refine ⟨ms, hms, ?_, ?_, fun m => ⟨fun hm => ⟨⟨(hall m hm).1, (hall m hm).2.1⟩, (hall m hm).2.2⟩, ?_⟩⟩
  · refine hsorted.imp_of_mem fun hm hm' hlt => precedes_iff.2 (.inr ⟨?_, Std.le_of_lt hlt⟩)
    rw [(hall _ hm).2.2, (hall _ hm').2.2]
  · refine List.nodup_iff_pairwise_ne.2 (hsorted.imp fun hlt he => ?_)
    subst he
    exact String.lt_irrefl _ hlt
  · rintro ⟨⟨hm, hkind⟩, rfl⟩
    obtain ⟨text, hkept⟩ := h.kept_of_kind hm hkind
    have hfile : fileName m.name ∈ ms.map fun m => fileName m.name := by
      rw [hmap, List.mem_filter, hmem, hkept.file, beq_iff_eq]
      exact ⟨rfl, extension?_yaml (of_isName hkept.name).1⟩
    obtain ⟨m', hm', he⟩ := List.mem_map.1 hfile
    have hkey : key? m' = key? m := by
      rw [key?, key?, (hall m' hm').2.1, hkind, (hall m' hm').2.2, fileName_inj he]
    rw [← h.eq_of_key (hall m' hm').1 hm hkey]
    exact hm'

/-- The files in the directory of a namespace are read as the listing of its resources. -/
theorem readAll (h : Represents d start t c) (hns : IsEntryName ns) (hshort : IsShort ns) :
    ∃ ms, d.readAll t ((d.kindPath kind).join ns) = .ok ms ∧
      Listing (fun m => (m ∈ c ∧ m.groupKind? = some kind) ∧ m.namespace = ns) ms := by
  rw [Directory.readAll, Directory.pathsIn]
  rcases h.names_cases (Directory.resolve_namespacePath hns) (names_of_namespace kind hns hshort)
    (by simp) with
    ⟨names, hnames, hnamesIn⟩ | ⟨hnames, hno⟩
  · obtain ⟨ms, hms, hlisting⟩ := h.listing_of_namesIn hnamesIn
    refine ⟨ms, ?_, hlisting⟩
    rw [hnames]
    show List.mapM (d.read t) (List.filter Directory.isObjectPath (names.map _)) = _
    rw [Directory.filter_isObjectPath _ hnamesIn.entryName, List.mapM_map]
    exact hms
  · refine ⟨[], by rw [hnames]; rfl, .nil, .nil, fun m => ⟨fun hm => absurd hm List.not_mem_nil, ?_⟩⟩
    rintro ⟨⟨hm, hkind⟩, rfl⟩
    obtain ⟨text, hkept⟩ := h.kept_of_kind hm hkind
    exact absurd (hkept.directory rfl) hno

/-- The resources in the directories of all namespaces are those of the kind, in order. -/
theorem listing_of_namespaces (h : Represents d start t c) {names : List String}
    (hn : t.NamesIn (d.base start ++ [kind.group.name, kind.type.name]) names) :
    ∃ mss, (names.filter fun ns => t.isDirectory ((d.kindPath kind).join ns)).mapM
        (fun ns => d.readAll t ((d.kindPath kind).join ns)) = .ok mss ∧
      Listing (fun m => m ∈ c ∧ m.groupKind? = some kind) mss.flatten := by
  have hread : ∀ ns ∈ names.filter (fun ns => t.isDirectory ((d.kindPath kind).join ns)),
      ∃ ms, d.readAll t ((d.kindPath kind).join ns) = .ok ms ∧
        Listing (fun m => (m ∈ c ∧ m.groupKind? = some kind) ∧ m.namespace = ns) ms := by
    intro ns hns
    obtain ⟨hns, hdir⟩ := List.mem_filter.1 hns
    have hentry := hn.entryName ns hns
    refine h.readAll hentry ?_
    obtain ⟨l, hl, -⟩ := Tree.isDirectory_iff.1 hdir
    rw [Directory.resolve_namespacePath hentry] at hl
    exact (Tree.foldlM_step_eq_ok_iff.1 hl).2.1 ns (by simp)
  obtain ⟨mss, hmss, hlisting⟩ := Listing.flatten (hn.sorted.filter _) hread
  refine ⟨mss, hmss, hlisting.congr fun m => ⟨And.left, fun hm => ⟨hm, ?_⟩⟩⟩
  obtain ⟨text, hkept⟩ := h.kept_of_kind hm.1 hm.2
  obtain ⟨hlookup, hdir⟩ := hkept.namespace_directory h.start_eq
  rw [List.mem_filter, hn.mem, List.append_assoc]
  refine ⟨?_, hdir⟩
  show (t.lookup (d.base start ++ [kind.group.name, kind.type.name, m.namespace])).isSome
  rw [hlookup]
  rfl

/-- Resources of one kind with the same namespace and name are the same. -/
theorem eq_of_names (h : Represents d start t c) {m m' : Manifest}
    (hm : m ∈ c ∧ m.groupKind? = some kind) (hm' : m' ∈ c ∧ m'.groupKind? = some kind)
    (hns : m.namespace = m'.namespace) (hname : m.name = m'.name) : m = m' := by
  refine h.eq_of_key hm.1 hm'.1 ?_
  rw [key?, key?, hm.2, hm'.2, hns, hname]

theorem list_namespace_eq (h : Represents d start t c) (kind : GroupKind) (ns : String) :
    d.list t kind (some ns) = c.list kind (some ns) := by
  rw [Directory.list, Catalogue.list, Directory.namespacePath]
  by_cases hns : isNamespace ns = true
  · obtain ⟨ms, hms, hlisting⟩ :=
      h.readAll (isEntryName_of_isNamespace hns) (isShort_of_isNamespace hns)
    have hfilter := ((Catalogue.listing_all h.nodup kind).filter fun m => m.namespace == ns).congr
      fun m => by rw [beq_iff_eq]
    have heq : ms = (c.all kind).filter fun m => m.namespace == ns :=
      hlisting.eq hfilter fun m m' hm hm' => h.eq_of_names hm.1 hm'.1
    rw [if_pos hns, if_pos hns, ← heq]
    show (do return (← [(d.kindPath kind).join ns].mapM (d.readAll t)).flatten) = _
    rw [List.mapM_cons, hms]
    simp [pure, Except.pure, bind, Except.bind]
  · rw [if_neg hns, if_neg hns]
    rfl

theorem list_kind_eq (h : Represents d start t c) (kind : GroupKind) :
    d.list t kind none = c.list kind none := by
  have hall := Catalogue.listing_all h.nodup kind
  rw [Directory.list, Catalogue.list, Directory.pathsIn]
  rcases h.names_cases Directory.resolve_kindPath (names_of_kind kind) (by simp) with
    ⟨names, hnames, hnamesIn⟩ | ⟨hnames, hno⟩
  · obtain ⟨mss, hmss, hlisting⟩ := h.listing_of_namespaces hnamesIn
    rw [hnames, ← hlisting.eq hall fun m m' => h.eq_of_names]
    show (do return (← ((names.map (d.kindPath kind).join).filter t.isDirectory).mapM
      (d.readAll t)).flatten) = _
    rw [List.filter_map, List.mapM_map]
    show (do return (← (names.filter fun ns => t.isDirectory ((d.kindPath kind).join ns)).mapM
      fun ns => d.readAll t ((d.kindPath kind).join ns)).flatten) = _
    rw [hmss]
    rfl
  · have hempty : Listing (fun m => m ∈ c ∧ m.groupKind? = some kind) [] := by
      refine ⟨.nil, .nil, fun m => ⟨fun hm => absurd hm List.not_mem_nil, fun hm => ?_⟩⟩
      obtain ⟨text, hkept⟩ := h.kept_of_kind hm.1 hm.2
      exact absurd (hkept.directory rfl) hno
    rw [hnames, ← hempty.eq hall fun m m' => h.eq_of_names]
    rfl

theorem list_eq (h : Represents d start t c) (kind : GroupKind) (ns : Option String) :
    d.list t kind ns = c.list kind ns := by
  cases ns with
  | none => exact h.list_kind_eq kind
  | some ns => exact h.list_namespace_eq kind ns

end Represents

end TraefikUpgrade.Store
