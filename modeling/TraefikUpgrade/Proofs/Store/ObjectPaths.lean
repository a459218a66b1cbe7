/-
# The paths of resources

A namespace must be a label of RFC 1123, and a name must consist of such labels with dots between them
(`isNamespace_iff`, `isName_iff`). There is a path for just these, and it has four components more than the
directory of the store: the group, the kind, the namespace and the file. As no label has a slash, and no
label has a dot, none of the four leads anywhere else, and they tell which resource the path is that of.
With anything else for a name, a store answers without looking at the files.

Key definitions: `IsLetterOrDigit`, `Label`, `DottedName`.
Key theorems: `isNamespace_iff`, `isName_iff`, `Directory.components_path`, `Directory.path_confined`.
-/
import TraefikUpgrade.Proofs.FileSystem.Ancestors
import TraefikUpgrade.Proofs.Store.Catalogue

namespace TraefikUpgrade.Store

open FileSystem
open Resource (GroupKind Manifest)
open Text (splitAll utf8Length utf8Length_eq_length)

/-! ### Labels -/

/-- A small letter or a digit. -/
def IsLetterOrDigit (c : Char) : Prop := 'a' ≤ c ∧ c ≤ 'z' ∨ '0' ≤ c ∧ c ≤ '9'

/-- A label of RFC 1123. -/
structure Label (cs : List Char) : Prop where
  length : 1 ≤ utf8Length cs ∧ utf8Length cs ≤ 63
  first : ∃ c rest, cs = c :: rest ∧ IsLetterOrDigit c
  last : ∃ front c, cs = front ++ [c] ∧ IsLetterOrDigit c
  chars : ∀ c ∈ cs, IsLetterOrDigit c ∨ c = '-'

/-- Labels with dots between them, not too long together. -/
structure DottedName (cs : List Char) : Prop where
  length : utf8Length cs ≤ 253
  labels : ∃ labels : List (List Char), labels ≠ [] ∧ (∀ label ∈ labels, Label label) ∧
    cs = ['.'].intercalate labels

theorem isLabelEnd_iff {c : Char} : isLabelEnd c = true ↔ IsLetterOrDigit c := by
  have hletter : c.isLower = (decide ('a' ≤ c) && decide (c ≤ 'z')) := rfl
  have hdigit : c.isDigit = (decide ('0' ≤ c) && decide (c ≤ '9')) := rfl
  rw [isLabelEnd, hletter, hdigit, IsLetterOrDigit]
  simp only [Bool.or_eq_true, Bool.and_eq_true, decide_eq_true_eq]

theorem isLabel_iff {cs : List Char} : isLabel cs = true ↔ Label cs := by
  have hlength : (∀ c ∈ cs, (isLabelEnd c || c == '-') = true) → utf8Length cs = cs.length :=
    fun h => utf8Length_eq_length fun c hc => utf8Size_of_isLabelEnd (h c hc)
  have hchar : ∀ c, (isLabelEnd c || c == '-') = true ↔ IsLetterOrDigit c ∨ c = '-' := by
    simp [isLabelEnd_iff]
  constructor
  · intro h
    obtain ⟨hne, hle, hall⟩ := of_isLabel h
    simp only [isLabel, Bool.and_eq_true, Option.any_eq_true] at h
    obtain ⟨⟨⟨-, first, hfirst, hstart⟩, last, hlast, hend⟩, -⟩ := h
    refine ⟨?_, ?_, ?_, fun c hc => (hchar c).1 (hall c hc)⟩
    · rw [hlength hall]
      exact ⟨List.length_pos_iff.2 hne, hle⟩
    · obtain ⟨rest, rfl⟩ := List.head?_eq_some_iff.1 hfirst
      exact ⟨first, rest, rfl, isLabelEnd_iff.1 hstart⟩
    · obtain ⟨front, rfl⟩ := List.getLast?_eq_some_iff.1 hlast
      exact ⟨front, last, rfl, isLabelEnd_iff.1 hend⟩
  · rintro ⟨⟨-, hle⟩, ⟨first, rest, hfirst, hstart⟩, ⟨front, last, hlast, hend⟩, hchars⟩
    have hall : ∀ c ∈ cs, (isLabelEnd c || c == '-') = true := fun c hc => (hchar c).2 (hchars c hc)
    rw [hlength hall] at hle
    have hhead : cs.head?.any isLabelEnd = true := by simp [hfirst, isLabelEnd_iff.2 hstart]
    have htail : cs.getLast?.any isLabelEnd = true := by simp [hlast, isLabelEnd_iff.2 hend]
    simp only [isLabel, Bool.and_eq_true, decide_eq_true_eq, List.all_eq_true]
    exact ⟨⟨⟨hle, hhead⟩, htail⟩, hall⟩

theorem isNamespace_iff {s : String} : isNamespace s = true ↔ Label s.toList := isLabel_iff

/-! ### Names -/

/-- Cutting at a separator is the library's splitting. -/
theorem splitAll_eq_splitOn (sep : Char) (cs : List Char) : splitAll sep cs = cs.splitOn sep := by
  induction cs with
  | nil => rfl
  | cons c cs ih =>
    rw [List.splitOn, List.splitOnP_cons_eq_if_modifyHead, ← List.splitOn, ← ih, splitAll]
    by_cases hc : c = sep
    · rw [if_pos hc, if_pos (by simpa using hc)]
    · rw [if_neg hc, if_neg (by simpa using hc)]
      cases h : splitAll sep cs with
      | nil => exact absurd h (Text.splitAll_ne_nil sep cs)
      | cons part parts => rfl

theorem isName_iff {s : String} : isName s = true ↔ DottedName s.toList := by
  rw [isName, Bool.and_eq_true, decide_eq_true_eq, List.all_eq_true, splitAll_eq_splitOn]
  simp only [isLabel_iff]
  constructor
  · rintro ⟨hlength, hlabels⟩
    refine ⟨hlength, _, ?_, hlabels, (List.intercalate_splitOn '.').symm⟩
    rw [← splitAll_eq_splitOn]
    exact Text.splitAll_ne_nil _ _
  · rintro ⟨hlength, labels, hne, hlabels, hs⟩
    have hdot : ∀ label ∈ labels, '.' ∉ label :=
      fun label hmem => notMem_of_isLabel (isLabel_iff.2 (hlabels label hmem)) (by decide)
    rw [hs, List.splitOn_intercalate '.' hdot hne, ← hs]
    exact ⟨hlength, hlabels⟩

/-! ### Paths -/

namespace Directory

variable {d : Directory} {kind : GroupKind} {ns name : String}

theorem path_eq_ok_iff {p : Path} : d.path kind ns name = .ok p ↔
    (Label ns.toList ∧ DottedName name.toList) ∧ p = d.objectPath kind ns (fileName name) := by
  rw [path_eq, ← isNamespace_iff, ← isName_iff]
  by_cases hname : isName name = true
  · by_cases hns : isNamespace ns = true
    · simp [hname, hns, eq_comm]
    · simp [hname, hns]
  · simp [hname]

/-- The four names below the directory of the store are four components more. -/
theorem components_objectPath {file : String} (hns : IsEntryName ns) (hfile : IsEntryName file) :
    (d.objectPath kind ns file).components =
      d.root.components ++ (stepsTo kind ns file).map .name := by
  rw [objectPath, kindPath, Path.components_join hfile, Path.components_join hns,
    Path.components_join (isEntryName_type _).1, Path.components_join (isEntryName_group _).1,
    List.append_assoc, List.append_assoc, List.append_assoc]
  rfl

theorem components_path {p : Path} (h : d.path kind ns name = .ok p) :
    IsEntryName ns ∧ IsEntryName (fileName name) ∧
      p.components = d.root.components ++ (stepsTo kind ns (fileName name)).map .name := by
  obtain ⟨⟨hns, hname⟩, rfl⟩ := path_eq_ok_iff.1 h
  have hns' := isEntryName_of_isNamespace (isNamespace_iff.2 hns)
  have hfile := isEntryName_fileName (isName_iff.2 hname)
  exact ⟨hns', hfile, components_objectPath hns' hfile⟩

/-- Paths with the same components are those of one resource. -/
theorem path_inj {kind' : GroupKind} {ns' name' : String} {p p' : Path}
    (h : d.path kind ns name = .ok p) (h' : d.path kind' ns' name' = .ok p')
    (heq : p.components = p'.components) : kind = kind' ∧ ns = ns' ∧ name = name' := by
  obtain ⟨-, -, hp⟩ := components_path h
  obtain ⟨-, -, hp'⟩ := components_path h'
  rw [hp, hp', List.append_cancel_left_eq] at heq
  have hname : Function.Injective Component.name := fun _ _ => Component.name.inj
  obtain ⟨hkind, hns, hfile⟩ := stepsTo_inj (List.map_injective_iff.2 hname heq)
  exact ⟨hkind, hns, fileName_inj hfile⟩

/-! ### Requests that are refused -/

theorem exists_badName (d : Directory) (kind : GroupKind)
    (h : ¬ (Label ns.toList ∧ DottedName name.toList)) :
    ∃ field value, d.path kind ns name = .error (.badName field value) := by
  rw [← isNamespace_iff, ← isName_iff] at h
  rw [path_eq]
  by_cases hname : isName name = true
  · have hns : ¬ isNamespace ns = true := fun hns => h ⟨hns, hname⟩
    rw [if_pos hname, if_neg hns]
    exact ⟨.namespace, ns, rfl⟩
  · rw [if_neg hname]
    exact ⟨.name, name, rfl⟩

variable {fault : Fault} (t : Tree)

theorem perform_get_of_path (h : d.path kind ns name = .error fault) :
    d.perform t (.get kind ns name) = (.error fault, t) := by
  rw [perform, get, h]
  rfl

theorem perform_create_of_path {m : Manifest} (hm : m.groupKind? = some kind) (dryRun : Bool)
    (h : d.path kind m.namespace m.name = .error fault) :
    d.perform t (.create m dryRun) = (.error fault, t) := by
  have hcreate : d.create t m dryRun = .error fault := by
    rw [create, hm]
    dsimp only
    rw [h]
    rfl
  rw [perform, hcreate]

theorem perform_list_of_not_label (d : Directory) (kind : GroupKind) (h : ¬ Label ns.toList) :
    d.perform t (.list kind (some ns)) = (.error (.badName .namespace ns), t) := by
  have hns : ¬ isNamespace ns = true := mt isNamespace_iff.1 h
  rw [perform, list, namespacePath, if_neg hns]
  rfl

/-- There is a path for a label as the namespace and labels with dots between them as the name, and for
nothing else. It leads through four names from the directory of the store, and no two resources have one
path. With anything else a store answers that the name is invalid, whatever the files are, and leaves
them as they are. -/
theorem path_confined (d : Directory) :
    (∀ kind ns name, (∃ p, d.path kind ns name = .ok p) ↔
      Label ns.toList ∧ DottedName name.toList) ∧
    (∀ kind ns name p, d.path kind ns name = .ok p →
      p = (((d.root.join kind.group.name).join kind.type.name).join ns).join (name ++ ".yaml") ∧
      IsEntryName ns ∧ IsEntryName (name ++ ".yaml") ∧
      p.components = d.root.components ++ [.name kind.group.name, .name kind.type.name, .name ns,
        .name (name ++ ".yaml")]) ∧
    (∀ kind ns name p kind' ns' name' p', d.path kind ns name = .ok p →
      d.path kind' ns' name' = .ok p' → p.components = p'.components →
      kind = kind' ∧ ns = ns' ∧ name = name') ∧
    (∀ kind ns name, ¬ (Label ns.toList ∧ DottedName name.toList) → ∃ field value, ∀ t,
      d.perform t (.get kind ns name) = (.error (.badName field value), t) ∧
      ∀ m dryRun, m.groupKind? = some kind → m.namespace = ns → m.name = name →
        d.perform t (.create m dryRun) = (.error (.badName field value), t)) ∧
    ∀ kind ns t, ¬ Label ns.toList →
      d.perform t (.list kind (some ns)) = (.error (.badName .namespace ns), t) := by
  refine ⟨fun kind ns name => ?_, fun kind ns name p h => ?_, ?_, fun kind ns name h => ?_, ?_⟩
  · constructor
    · rintro ⟨p, h⟩
      exact (path_eq_ok_iff.1 h).1
    · exact fun h => ⟨_, path_eq_ok_iff.2 ⟨h, rfl⟩⟩
  · exact ⟨(path_eq_ok_iff.1 h).2, components_path h⟩
  · exact fun kind ns name p kind' ns' name' p' => path_inj
  · obtain ⟨field, value, hpath⟩ := exists_badName d kind h
    refine ⟨field, value, fun t => ⟨perform_get_of_path t hpath, ?_⟩⟩
    rintro m dryRun hm rfl rfl
    exact perform_create_of_path t hm dryRun hpath
  · exact fun kind ns t => perform_list_of_not_label t d kind

/-- A name with a dot, and a namespace that would lead out of the store. -/
theorem path_confined_dots :
    (∃ p, (Directory.mk ⟨"out"⟩ GroupKind.all).path ⟨.v3, .middleware⟩ "apps" "web.v2-api" = .ok p ∧
      p.components = [.name "out", .name "traefik.io", .name "Middleware", .name "apps",
        .name "web.v2-api.yaml"]) ∧
      ∃ field value, ∀ t, (Directory.mk ⟨"out"⟩ GroupKind.all).perform t
        (.get ⟨.v3, .middleware⟩ ".." "escaped") = (.error (.badName field value), t) := by
  obtain ⟨hpath, hbelow, -, hrefused, -⟩ := path_confined ⟨⟨"out"⟩, GroupKind.all⟩
  have hns : Label "apps".toList := isNamespace_iff.1 (by decide)
  have hname : DottedName "web.v2-api".toList := isName_iff.1 (by decide)
  have hup : ¬ Label "..".toList := fun h => absurd (isNamespace_iff.2 h) (by decide)
  obtain ⟨p, hp⟩ := (hpath ⟨.v3, .middleware⟩ _ _).2 ⟨hns, hname⟩
  obtain ⟨-, -, -, hcomponents⟩ := hbelow _ _ _ _ hp
  obtain ⟨field, value, hreply⟩ := hrefused ⟨.v3, .middleware⟩ ".." "escaped" fun h => hup h.1
  exact ⟨⟨p, hp, hcomponents⟩, field, value, fun t => (hreply t).1⟩

end Directory

end TraefikUpgrade.Store
