/-
# Where resources are stored

The names that a store accepts are names of files and directories. So the path of a resource leads, from
the directory of the store, through four directories to the file of the resource, and no two resources
have the same location.

Key definitions: `fileName`, `stepsTo`, `Directory.location`, `Directory.objectPath`,
`Directory.Written`.
Key theorems: `Directory.path_eq`, `Directory.resolve_objectPath`, `Directory.location_inj`,
`Directory.written_of_write`.
-/
import TraefikUpgrade.Proofs.FileSystem.Walks
import TraefikUpgrade.Store.Directory

namespace TraefikUpgrade.Store

open FileSystem
open Resource (Group GroupKind Manifest ResourceType)
open Text

/-! ### Names -/

theorem utf8Size_of_isLabelEnd {c : Char} (h : (isLabelEnd c || c == '-') = true) : c.utf8Size = 1 := by
  have hval : c.val ≤ 127 := by
    rw [isLabelEnd, Bool.or_eq_true, Bool.or_eq_true, beq_iff_eq] at h
    rcases h with (h | h) | rfl
    · exact UInt32.le_trans (of_decide_eq_true (Bool.and_eq_true_iff.1 h).2) (by decide)
    · exact UInt32.le_trans (of_decide_eq_true (Bool.and_eq_true_iff.1 h).2) (by decide)
    · decide
  exact if_pos hval

/-- What a label consists of. -/
theorem of_isLabel {cs : List Char} (h : isLabel cs = true) :
    cs ≠ [] ∧ cs.length ≤ maxLabelLength ∧ ∀ c ∈ cs, (isLabelEnd c || c == '-') = true := by
  simp only [isLabel, Bool.and_eq_true, decide_eq_true_eq, List.all_eq_true] at h
  obtain ⟨⟨⟨hlength, hhead⟩, -⟩, hall⟩ := h
  refine ⟨?_, hlength, hall⟩
  rintro rfl
  cases hhead

theorem notMem_of_isLabel {cs : List Char} (h : isLabel cs = true) {c : Char}
    (hc : (isLabelEnd c || c == '-') = false) : c ∉ cs := by
  intro hm
  have hlabel := (of_isLabel h).2.2 c hm
  rw [hc] at hlabel
  cases hlabel

theorem isEntryName_of_isNamespace {s : String} (h : isNamespace s = true) : IsEntryName s := by
  have hlabel : isLabel s.toList = true := h
  have hdot : '.' ∉ s.toList := notMem_of_isLabel hlabel (by decide)
  refine ⟨?_, ?_, ?_, notMem_of_isLabel hlabel (by decide)⟩
  · rintro rfl
    exact (of_isLabel hlabel).1 rfl
  · rintro rfl
    exact hdot (by decide)
  · rintro rfl
    exact hdot (by decide)

theorem isShort_of_isNamespace {s : String} (h : isNamespace s = true) : IsShort s := by
  have hlabel : isLabel s.toList = true := h
  obtain ⟨-, hlength, hall⟩ := of_isLabel hlabel
  rw [IsShort, utf8Length_eq_length fun c hc => utf8Size_of_isLabelEnd (hall c hc)]
  exact Nat.le_trans hlength (by decide)

theorem of_isName {s : String} (h : isName s = true) : s ≠ "" ∧ '/' ∉ s.toList := by
  rw [isName, Bool.and_eq_true, List.all_eq_true] at h
  constructor
  · rintro rfl
    exact absurd (h.2 [] (by decide)) (by decide)
  · intro hm
    have hne : '/' ≠ '.' := by decide
    obtain ⟨part, hpart, hm⟩ := mem_splitAll_of_mem hm hne
    exact notMem_of_isLabel (h.2 part hpart) (by decide) hm

theorem isEntryName_yaml {s : String} (h : '/' ∉ s.toList) : IsEntryName (s ++ ".yaml") := by
  have hlength : ∀ t : String, t.length < 5 → s ++ ".yaml" ≠ t := by
    rintro t ht rfl
    rw [String.length_append] at ht
    have hyaml : ".yaml".length = 5 := by decide
    omega
  refine ⟨hlength _ (by decide), hlength _ (by decide), hlength _ (by decide), ?_⟩
  rw [String.toList_append, List.mem_append, not_or]
  exact ⟨h, by decide⟩

theorem isEntryName_group (g : Group) : IsEntryName g.name ∧ IsShort g.name := by
  cases g <;> exact ⟨by constructor <;> decide, by unfold IsShort; decide⟩

theorem isEntryName_type (r : ResourceType) : IsEntryName r.name ∧ IsShort r.name := by
  cases r <;> exact ⟨by constructor <;> decide, by unfold IsShort; decide⟩

theorem extension?_yaml {s : String} (h : s ≠ "") : extension? (s ++ ".yaml") = some "yaml" := by
  have hs : extension? (s ++ "." ++ "yaml") = some "yaml" := extension?_append h (by decide)
  rwa [String.append_assoc] at hs

/-- The name of the file of a resource. -/
def fileName (name : String) : String := name ++ ".yaml"

theorem fileName_inj {name name' : String} (h : fileName name = fileName name') : name = name' :=
  String.append_left_inj _ |>.1 h

/-! ### Locations -/

/-- The steps from the directory of a store to a file in the directory of a namespace. -/
def stepsTo (kind : GroupKind) (ns file : String) : List String :=
  [kind.group.name, kind.type.name, ns, file]

/-- The steps tell the resource. -/
theorem stepsTo_inj {kind kind' : GroupKind} {ns ns' file file' : String}
    (h : stepsTo kind ns file = stepsTo kind' ns' file') : kind = kind' ∧ ns = ns' ∧ file = file' := by
  simp only [stepsTo, List.cons.injEq, and_true] at h
  obtain ⟨hgroup, htype, hns, hfile⟩ := h
  refine ⟨?_, hns, hfile⟩
  obtain ⟨group, type⟩ := kind
  obtain ⟨group', type'⟩ := kind'
  have hg : group = group' := by
    revert hgroup
    cases group <;> cases group' <;> simp [Group.name]
  have ht : type = type' := by
    revert htype
    cases type <;> cases type' <;> simp [ResourceType.name]
  rw [hg, ht]

theorem isEntryName_stepsTo {kind : GroupKind} {ns file : String} (hns : IsEntryName ns)
    (hfile : IsEntryName file) : ∀ s ∈ stepsTo kind ns file, IsEntryName s := by
  simp only [stepsTo, List.forall_mem_cons]
  exact ⟨(isEntryName_group _).1, (isEntryName_type _).1, hns, hfile, nofun⟩

theorem names_of_kind (kind : GroupKind) :
    ∀ s ∈ [kind.group.name, kind.type.name], IsEntryName s ∧ IsShort s := by
  simp only [List.forall_mem_cons]
  exact ⟨isEntryName_group _, isEntryName_type _, nofun⟩

theorem names_of_namespace (kind : GroupKind) {ns : String} (hns : IsEntryName ns)
    (hshort : IsShort ns) :
    ∀ s ∈ [kind.group.name, kind.type.name, ns], IsEntryName s ∧ IsShort s := by
  simp only [List.forall_mem_cons]
  exact ⟨isEntryName_group _, isEntryName_type _, ⟨hns, hshort⟩, nofun⟩

theorem isEntryName_fileName {name : String} (h : isName name = true) : IsEntryName (fileName name) :=
  isEntryName_yaml (of_isName h).2

namespace Directory

variable (d : Directory) (start : Location) (kind : GroupKind)

/-- The location of a store whose path is followed from a given one. -/
def base : Location := d.root.way.foldl move start

/-- The location of a file in the directory of a namespace. -/
def location (ns file : String) : Location :=
  d.base start ++ stepsTo kind ns file

/-- The path of a file in the directory of a namespace. -/
def objectPath (ns file : String) : Path := ((d.kindPath kind).join ns).join file

variable {d start kind} {ns file : String}

theorem path_eq {name : String} : d.path kind ns name =
    if isName name then
      if isNamespace ns then .ok (d.objectPath kind ns (fileName name))
      else .error (.badName .namespace ns)
    else .error (.badName .name name) := by
  unfold path namespacePath
  split
  · split <;> rfl
  · rfl

theorem way_kindPath : (d.kindPath kind).way = d.root.way ++ [kind.group.name, kind.type.name] := by
  rw [kindPath, Path.way_join (isEntryName_type _).1, Path.way_join (isEntryName_group _).1,
    List.append_assoc]
  rfl

theorem start_kindPath {t : Tree} : t.start (d.kindPath kind) = t.start d.root := by
  rw [kindPath, Tree.start_join (isEntryName_type _).1, Tree.start_join (isEntryName_group _).1]

theorem resolve_kindPath {t : Tree} : t.resolve (d.kindPath kind) =
    (d.root.way ++ [kind.group.name, kind.type.name]).foldlM t.step (t.start d.root) := by
  rw [kindPath, Tree.resolve_join (isEntryName_type _).1, Tree.start_join (isEntryName_group _).1,
    Path.way_join (isEntryName_group _).1, List.append_assoc]
  rfl

section
variable (hns : IsEntryName ns) {t : Tree}
include hns

theorem steps_namespacePath : steps ((d.kindPath kind).join ns) =
    d.root.way ++ [kind.group.name, kind.type.name, ns] := by
  rw [Path.steps_join hns, way_kindPath, List.append_assoc]
  rfl

theorem start_namespacePath : t.start ((d.kindPath kind).join ns) = t.start d.root := by
  rw [Tree.start_join hns, start_kindPath]

theorem resolve_namespacePath : t.resolve ((d.kindPath kind).join ns) =
    (d.root.way ++ [kind.group.name, kind.type.name, ns]).foldlM t.step (t.start d.root) := by
  rw [Tree.resolve_join hns, way_kindPath, start_kindPath, List.append_assoc]
  rfl

theorem resolve_objectPath (hfile : IsEntryName file) : t.resolve (d.objectPath kind ns file) =
    (d.root.way ++ stepsTo kind ns file).foldlM t.step (t.start d.root) := by
  rw [objectPath, Tree.resolve_join hfile, Path.way_join hns, Tree.start_join hns, way_kindPath,
    start_kindPath, List.append_assoc, List.append_assoc]
  rfl

theorem parent?_objectPath (hfile : IsEntryName file) :
    (d.objectPath kind ns file).parent? = some ((d.kindPath kind).join ns) :=
  Path.parent?_join hns hfile

end

/-- The steps below the directory of a store. -/
theorem foldl_move_below (names : List String) (hn : ∀ s ∈ names, IsEntryName s) (l : Location) :
    names.foldl move l = l ++ names := by
  induction names generalizing l with
  | nil => simp
  | cons s names ih =>
    rw [List.forall_mem_cons] at hn
    rw [List.foldl_cons, move_name hn.1, ih hn.2, List.append_assoc]
    rfl

theorem foldl_move (names : List String) (hn : ∀ s ∈ names, IsEntryName s) :
    (d.root.way ++ names).foldl move start = d.base start ++ names := by
  rw [List.foldl_append, foldl_move_below names hn]
  rfl

/-- Steps to something below the directory of a store are taken on the way to the directory or below
it. -/
theorem mem_visited_cases {names : List String} (hn : ∀ s ∈ names, IsEntryName s) {x : Location}
    (hx : x ∈ visited start (d.root.way ++ names)) :
    x ∈ visited start d.root.way ∨
      ∃ below : List String, x = d.base start ++ below ∧ below.length < names.length := by
  have hbelow : ∀ (names : List String), (∀ s ∈ names, IsEntryName s) → ∀ l x, x ∈ visited l names →
      ∃ below : List String, x = l ++ below ∧ below.length < names.length := by
    intro names
    induction names with
    | nil => exact fun _ _ _ hx => absurd hx List.not_mem_nil
    | cons s names ih =>
      intro hn l x hx
      rw [List.forall_mem_cons] at hn
      rcases List.mem_cons.1 hx with rfl | hx
      · exact ⟨[], by simp, by simp⟩
      · rw [move_name hn.1] at hx
        obtain ⟨below, rfl, hlt⟩ := ih hn.2 _ _ hx
        exact ⟨s :: below, by simp, by simpa using hlt⟩
  rw [visited_append, List.mem_append] at hx
  exact hx.imp_right (hbelow names hn _ x)

theorem location_inj {kind' : GroupKind} {ns' file' : String}
    (h : d.location start kind ns file = d.location start kind' ns' file') :
    kind = kind' ∧ ns = ns' ∧ file = file' :=
  stepsTo_inj (List.append_cancel_left h)

/-- The paths in a directory that are taken for those of resources. -/
theorem filter_isObjectPath (p : Path) {names : List String} (hn : ∀ s ∈ names, IsEntryName s) :
    (names.map p.join).filter isObjectPath =
      (names.filter fun s => extension? s == some "yaml").map p.join := by
  rw [List.filter_map]
  refine congrArg _ (List.filter_congr fun s hs => ?_)
  rw [Function.comp, isObjectPath, Path.fileName?_join (hn s hs)]
  rfl

theorem length_location : (d.location start kind ns file).length = (d.base start).length + 4 := by
  simp [location, stepsTo]

/-! ### Writing a file -/

/-- The tree `t'` is `t` with a file in the directory of a namespace, and with the directories on the way
to it. -/
structure Written (d : Directory) (t t' : Tree) (kind : GroupKind) (ns file text : String) : Prop where
  kept : ∀ x e, t.lookup x = some e → t'.lookup x = some e
  new : ∀ x e, t'.lookup x = some e → t.lookup x = some e ∨
    (e = .directory ∧ x ∈ visited (t.start d.root) (d.root.way ++ stepsTo kind ns file)) ∨
      (e = .file (.text text) ∧ x = d.location (t.start d.root) kind ns file)
  way : ∀ x ∈ visited (t.start d.root) (d.root.way ++ stepsTo kind ns file),
    t'.lookup x = some .directory
  content : t'.lookup (d.location (t.start d.root) kind ns file) = some (.file (.text text))
  short : ∀ part ∈ d.root.way ++ stepsTo kind ns file, IsShort part
  start : t'.start d.root = t.start d.root
  sound : t.Sound → t'.Sound

theorem written_of_put {t t₁ : Tree} {text : String} (hns : IsEntryName ns) (hfile : IsEntryName file)
    (hgrown : t.Grown t₁ (· ∈ visited (t.start d.root) (d.root.way ++ stepsTo kind ns file)))
    (hway : ∀ x ∈ visited (t.start d.root) (d.root.way ++ stepsTo kind ns file),
      t₁.lookup x = some .directory)
    (hshort : ∀ part ∈ d.root.way ++ stepsTo kind ns file, IsShort part)
    (hvacant : t.lookup (d.location (t.start d.root) kind ns file) = none)
    (hdir : t₁.lookup (d.location (t.start d.root) kind ns file) ≠ some .directory) :
    d.Written t (t₁.put (d.location (t.start d.root) kind ns file) (.file (.text text))) kind ns file
      text where
  kept x e hx := by
    have hne : x ≠ d.location (t.start d.root) kind ns file := by
      rintro rfl
      rw [hvacant] at hx
      cases hx
    rw [Tree.lookup_put_of_ne hne, hgrown.kept x e hx]
  new x e hx := by
    by_cases hxl : x = d.location (t.start d.root) kind ns file
    · subst hxl
      rw [Tree.lookup_put_self (by simp [location, stepsTo])] at hx
      exact .inr (.inr ⟨(Option.some.inj hx).symm, rfl⟩)
    · rw [Tree.lookup_put_of_ne hxl] at hx
      exact (hgrown.new x e hx).imp_right .inl
  way x hx := by
    have hne : x ≠ d.location (t.start d.root) kind ns file := by
      rintro rfl
      exact hdir (hway _ hx)
    rw [Tree.lookup_put_of_ne hne, hway x hx]
  content := Tree.lookup_put_self (by simp [location, stepsTo]) _ _
  short := hshort
  start := hgrown.start _
  sound hs := by
    have hbase : t₁.lookup (d.base (t.start d.root)) = some .directory := by
      refine hway _ ?_
      rw [visited_append]
      exact List.mem_append_right _ (List.mem_cons_self ..)
    refine (hgrown.sound hs).put (fun s hs' => ?_) _
    rcases List.mem_append.1 hs' with hs' | hs'
    · exact (hgrown.sound hs).names_of_lookup hbase s hs'
    · exact isEntryName_stepsTo hns hfile s hs'

theorem write_eq_error {t : Tree} {p : Path} {content : String} {fault : Fault}
    (h : write t p content = .error fault) : ∃ path, fault = .write path := by
  unfold write at h
  dsimp only at h
  split at h
  · cases h
    exact ⟨_, rfl⟩
  · split at h
    · cases h
      exact ⟨_, rfl⟩
    · cases h

/-- Writing a file where there is nothing. -/
theorem written_of_write {t t' : Tree} {text : String} (hns : IsEntryName ns)
    (hfile : IsEntryName file) (hvacant : t.lookup (d.location (t.start d.root) kind ns file) = none)
    (h : write t (d.objectPath kind ns file) text = .ok t') : d.Written t t' kind ns file text := by
  unfold write at h
  dsimp only at h
  rw [parent?_objectPath hns hfile, Option.getD_some] at h
  split at h
  · cases h
  next t₁ hcreate =>
    split at h
    · cases h
    next t₂ hwrite =>
      cases h
      obtain ⟨hgrown, -⟩ := Tree.grown_of_createDirectories hcreate
      rw [steps_namespacePath hns, start_namespacePath hns] at hgrown
      obtain ⟨l, hl, hne, rfl⟩ := Tree.write_eq_ok hwrite
      rw [resolve_objectPath hns hfile, hgrown.start] at hl
      obtain ⟨hway, hshort, hl⟩ := Tree.foldlM_step_eq_ok_iff.1 hl
      rw [foldl_move _ (isEntryName_stepsTo hns hfile)] at hl
      subst hl
      have hsteps : d.root.way ++ stepsTo kind ns file =
          d.root.way ++ [kind.group.name, kind.type.name, ns] ++ [file] := by
        rw [List.append_assoc]
        rfl
      refine written_of_put hns hfile (hgrown.imp fun x hx => ?_) hway hshort hvacant hne
      rw [hsteps, visited_append, List.mem_append]
      exact hx.imp_right List.mem_singleton.2

end Directory

end TraefikUpgrade.Store
