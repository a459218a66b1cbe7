/-
# The files that count for a directory

From a directory upwards a settings file is searched for until one says that it is the root (`searched`).
The files that are found on the way are read, and then the user's own file, if it counts (`HomeCounts`).
All of them together are the files that count, in their order (`visited`). Reading the layers is reading
just these (`layers_eq_mapM`), so there is a fault if one of them cannot be used (`Unusable`), and it is
that of the first such file. Besides that, it is a fault if nobody knows where the user's own file would be
and no other file turns it off (`HomeMissing`). What is elsewhere in the tree does not matter
(`layers_congr`), and no path is read twice (`pairwise_visited`).

Key definitions: `Unusable`, `searched`, `projectFiles`, `OptsOut`, `HomeCounts`, `HomeMissing`, `visited`.
Key theorems: `readLayer_eq_error_iff`, `layers_eq_mapM`, `layers_congr`, `pairwise_visited`,
`layers_visits`.
-/
import TraefikUpgrade.Config.Layers
import TraefikUpgrade.Proofs.FileSystem.Ancestors
import TraefikUpgrade.Proofs.Traversal

namespace TraefikUpgrade.Config

open FileSystem (Path Tree)

variable {t t' : Tree} {e : Environment} {directory path : Path}

/-! ### Single files -/

theorem isEntryName_fileName : FileSystem.IsEntryName fileName := by
  constructor <;> decide

/-- Why a settings file cannot be used: there is no text at its path, the text is no document of settings,
a key of annotations to skip is blank, or the name of the variable that turns off the user's own file is
none. Of two bad values the first counts. -/
inductive Unusable (t : Tree) (path : Path) : Fault → Prop
  | read (hentry : ∀ text, t.entry path ≠ .ok (.file (.text text))) : Unusable t path (.read path)
  | parse {text : String} (hentry : t.entry path = .ok (.file (.text text)))
      (hparse : (Toml.read? text).bind Settings.ofDocument? = none) : Unusable t path (.parse path)
  | blankKey {text key : String} {s : Settings} {before after : List String}
      (hentry : t.entry path = .ok (.file (.text text)))
      (hparse : (Toml.read? text).bind Settings.ofDocument? = some s)
      (hkeys : s.skipAnnotations = before ++ key :: after)
      (hbefore : ∀ k ∈ before, Unicode.isBlank k = false) (hblank : Unicode.isBlank key = true) :
      Unusable t path (.invalid path "skip-annotations" key)
  | badVariable {text name : String} {s : Settings} (hentry : t.entry path = .ok (.file (.text text)))
      (hparse : (Toml.read? text).bind Settings.ofDocument? = some s)
      (hkeys : ∀ k ∈ s.skipAnnotations, Unicode.isBlank k = false)
      (hname : s.optOutVariable = some name) (hbad : name = "" ∨ '=' ∈ name.toList) :
      Unusable t path (.invalid path "root-config-lookup-disable-env-var" name)

theorem readText_eq_ok_iff {text : String} :
    t.readText path = .ok text ↔ t.entry path = .ok (.file (.text text)) := by
  unfold Tree.readText
  rcases t.entry path with refusal | _ | (text' | bytes)
  · exact ⟨fun h => (nomatch h), fun h => (nomatch h)⟩
  · exact ⟨fun h => (nomatch h), fun h => (nomatch h)⟩
  · exact ⟨fun h => by cases h; rfl, fun h => by cases h; rfl⟩
  · exact ⟨fun h => (nomatch h), fun h => (nomatch h)⟩

theorem isBadVariable_iff {name : String} :
    Settings.isBadVariable name = true ↔ name = "" ∨ '=' ∈ name.toList := by
  simp [Settings.isBadVariable, String.contains_char_eq]

/-- Which values make no sense. -/
theorem invalid?_eq_some_iff {s : Settings} {key value : String} : s.invalid? = some (key, value) ↔
    (key = "skip-annotations" ∧ ∃ before after, s.skipAnnotations = before ++ value :: after ∧
      (∀ k ∈ before, Unicode.isBlank k = false) ∧ Unicode.isBlank value = true) ∨
    key = "root-config-lookup-disable-env-var" ∧ (∀ k ∈ s.skipAnnotations, Unicode.isBlank k = false) ∧
      s.optOutVariable = some value ∧ (value = "" ∨ '=' ∈ value.toList) := by
  have hfound : s.skipAnnotations.find? Unicode.isBlank = some value ↔
      ∃ before after, s.skipAnnotations = before ++ value :: after ∧
        (∀ k ∈ before, Unicode.isBlank k = false) ∧ Unicode.isBlank value = true := by
    rw [List.find?_eq_some_iff_append]
    simp only [Bool.not_eq_true']
    constructor
    · rintro ⟨hblank, before, after, hkeys, hbefore⟩
      exact ⟨before, after, hkeys, hbefore, hblank⟩
    · rintro ⟨before, after, hkeys, hbefore, hblank⟩
      exact ⟨hblank, before, after, hkeys, hbefore⟩
  have hnone : s.skipAnnotations.find? Unicode.isBlank = none ↔
      ∀ k ∈ s.skipAnnotations, Unicode.isBlank k = false := by simp
  rw [← hfound, ← hnone, ← isBadVariable_iff, Settings.invalid?]
  cases s.skipAnnotations.find? Unicode.isBlank with
  | some bad =>
    simp only [Option.some.injEq, Prod.mk.injEq, reduceCtorEq, false_and, and_false, or_false]
    exact and_congr_left' eq_comm
  | none =>
    simp only [Option.map_eq_some_iff, Option.filter_eq_some_iff, Prod.mk.injEq, reduceCtorEq, and_false,
      false_or, true_and]
    constructor
    · rintro ⟨name, hname, rfl, rfl⟩
      exact ⟨rfl, hname⟩
    · rintro ⟨rfl, hname⟩
      exact ⟨value, hname, rfl, rfl⟩

/-- What cannot be used is not read, and gives the fault that says why. -/
theorem readLayer_eq_error_iff {fault : Fault} :
    readLayer t path = .error fault ↔ Unusable t path fault := by
  constructor
  · intro h
    unfold readLayer at h
    split at h
    · next hread =>
      cases h
      exact .read fun text hentry => by simp [readText_eq_ok_iff.2 hentry] at hread
    · next text hread =>
      have hentry := readText_eq_ok_iff.1 hread
      unfold parse at h
      split at h
      · next hparse =>
        cases h
        exact .parse hentry hparse
      · next s hparse =>
        split at h
        · next key value hbad =>
          cases h
          obtain ⟨rfl, before, after, hkeys, hbefore, hblank⟩ | ⟨rfl, hkeys, hname, hbad⟩ :=
            invalid?_eq_some_iff.1 hbad
          · exact .blankKey hentry hparse hkeys hbefore hblank
          · exact .badVariable hentry hparse hkeys hname hbad
        · cases h
  · have hinvalid {text key value : String} {s : Settings} (hentry : t.entry path = .ok (.file (.text text)))
        (hparse : (Toml.read? text).bind Settings.ofDocument? = some s)
        (hbad : s.invalid? = some (key, value)) : readLayer t path = .error (.invalid path key value) := by
      simp [readLayer, readText_eq_ok_iff.2 hentry, Config.parse, hparse, hbad, Except.map]
    rintro (hentry | ⟨hentry, hparse⟩ | ⟨hentry, hparse, hkeys, hbefore, hblank⟩ |
      ⟨hentry, hparse, hkeys, hname, hbad⟩)
    · unfold readLayer
      split
      · rfl
      · next text hread => exact absurd (readText_eq_ok_iff.1 hread) (hentry text)
    · simp [readLayer, readText_eq_ok_iff.2 hentry, Config.parse, hparse, Except.map]
    · exact hinvalid hentry hparse
        (invalid?_eq_some_iff.2 (.inl ⟨rfl, _, _, hkeys, hbefore, hblank⟩))
    · exact hinvalid hentry hparse (invalid?_eq_some_iff.2 (.inr ⟨rfl, hkeys, hname, hbad⟩))

/-- What can be used is read. -/
theorem exists_readLayer_iff : (∃ l, readLayer t path = .ok l) ↔ ∀ fault, ¬ Unusable t path fault := by
  simp only [← readLayer_eq_error_iff]
  cases readLayer t path with
  | error fault => simp
  | ok l => simp

theorem path_of_readLayer {l : Layer} (h : readLayer t path = .ok l) : l.path = path := by
  unfold readLayer at h
  split at h
  · cases h
  · next text _ =>
    cases hparse : parse path text with
    | error fault =>
      rw [hparse] at h
      cases h
    | ok s =>
      rw [hparse] at h
      cases h
      rfl

/-- Trees with the same at a path have the same file there. -/
theorem readLayer_congr (h : t'.entry path = t.entry path) : readLayer t' path = readLayer t path := by
  rw [readLayer, readLayer, Tree.readText, Tree.readText, h]

theorem isFile_congr (h : t'.entry path = t.entry path) : t'.isFile path = t.isFile path := by
  rw [Tree.isFile, Tree.isFile, h]

theorem doesExist_congr (h : t'.entry path = t.entry path) : t'.doesExist path = t.doesExist path := by
  rw [Tree.doesExist, Tree.doesExist, h]

/-! ### On the way up -/

/-- Whether a file can be used and says that it is the root. -/
def isRootFile (t : Tree) (path : Path) : Bool :=
  match readLayer t path with
  | .ok l => l.settings.root
  | .error _ => false

/-- The paths of a list up to the first one that is a root. -/
def throughRoot (t : Tree) (paths : List Path) : List Path :=
  paths.take (paths.findIdx (isRootFile t) + 1)

theorem throughRoot_cons (t : Tree) (path : Path) (paths : List Path) : throughRoot t (path :: paths) =
    path :: if isRootFile t path then [] else throughRoot t paths := by
  rw [throughRoot, List.findIdx_cons, List.take_succ_cons]
  cases isRootFile t path <;> rfl

/-- The paths at which a file is searched for. -/
def searched (t : Tree) (directory : Path) : List Path :=
  throughRoot t (directory.ancestors.map (·.join fileName))

/-- The files that are found on the way up. -/
def projectFiles (t : Tree) (directory : Path) : List Path := (searched t directory).filter t.isFile

/-- A path without a file is no root. -/
theorem isRootFile_of_not_isFile (h : t.isFile path = false) : isRootFile t path = false := by
  unfold isRootFile readLayer Tree.readText
  unfold Tree.isFile at h
  cases hentry : t.entry path with
  | error refusal => rfl
  | ok entry =>
    cases entry with
    | directory => rfl
    | file content =>
      rw [hentry] at h
      cases h

theorem layersUpwards_eq_mapM (t : Tree) (directories : List Path) : layersUpwards t directories =
    ((throughRoot t (directories.map (·.join fileName))).filter t.isFile).mapM (readLayer t) := by
  induction directories with
  | nil => rfl
  | cons directory above ih =>
    rw [layersUpwards, List.map_cons, throughRoot_cons]
    cases hfile : t.isFile (directory.join fileName) with
    | false =>
      rw [List.filter_cons_of_neg (by simp [hfile]), isRootFile_of_not_isFile hfile, ih]
      rfl
    | true =>
      rw [List.filter_cons_of_pos hfile, List.mapM_cons, if_pos rfl, ih, isRootFile]
      cases readLayer t (directory.join fileName) with
      | error fault => rfl
      | ok l => cases hroot : l.settings.root <;> simp [hroot, bind, Except.bind, pure, Except.pure]

/-! ### The user's own file -/

/-- A file names a variable that is set, to something else than a spelling of no. -/
def OptsOut (t : Tree) (e : Environment) (path : Path) : Prop :=
  ∃ l name value, readLayer t path = .ok l ∧ l.settings.optOutVariable = some name ∧
    e.assignments.lookup name = some value ∧ value ≠ "" ∧ value.toLower ∉ ["0", "false", "no"]

theorem isTruthy_iff {name : String} : e.isTruthy name = true ↔
    ∃ value, e.assignments.lookup name = some value ∧ value ≠ "" ∧
      value.toLower ∉ ["0", "false", "no"] := by
  unfold Environment.isTruthy
  cases e.assignments.lookup name <;> simp

theorem optsOut_iff : OptsOut t e path ↔
    ∃ l, readLayer t path = .ok l ∧ l.settings.optOutVariable.any e.isTruthy = true := by
  simp only [OptsOut, Option.any_eq_true, isTruthy_iff]
  constructor
  · rintro ⟨l, name, value, hl, hname, hvalue⟩
    exact ⟨l, hl, name, hname, value, hvalue⟩
  · rintro ⟨l, hl, name, hname, value, hvalue⟩
    exact ⟨l, name, value, hl, hname, hvalue⟩

instance : Decidable (OptsOut t e path) :=
  match h : readLayer t path with
  | .ok l => decidable_of_iff (l.settings.optOutVariable.any e.isTruthy = true) (by simp [optsOut_iff, h])
  | .error _ => isFalse (by simp [optsOut_iff, h])

/-- The user's own file is there, is not one of those found on the way up, and none of these turns it
off. -/
structure HomeCounts (t : Tree) (e : Environment) (directory home : Path) : Prop where
  doesExist : t.doesExist home = true
  not_same : ∀ path ∈ projectFiles t directory, path.same home = false
  not_optsOut : ∀ path ∈ projectFiles t directory, ¬ OptsOut t e path

instance {home : Path} : Decidable (HomeCounts t e directory home) :=
  decidable_of_iff (t.doesExist home = true ∧
      (∀ path ∈ projectFiles t directory, path.same home = false) ∧
      ∀ path ∈ projectFiles t directory, ¬ OptsOut t e path)
    ⟨fun h => ⟨h.1, h.2.1, h.2.2⟩, fun h => ⟨h.doesExist, h.not_same, h.not_optsOut⟩⟩

/-- No file turns off the user's own file, and it is not known which directory is the user's. -/
structure HomeMissing (t : Tree) (e : Environment) (directory : Path) : Prop where
  home_eq : e.home = none
  not_optsOut : ∀ path ∈ projectFiles t directory, ¬ OptsOut t e path

/-- The files that count for a directory, the most specific one first. -/
def visited (t : Tree) (e : Environment) (directory : Path) : List Path :=
  projectFiles t directory ++
    (userPath? e).toList.filter fun home => decide (HomeCounts t e directory home)

theorem map_path_of_mapM {paths : List Path} {ls : List Layer}
    (h : paths.mapM (readLayer t) = .ok ls) : ls.map (·.path) = paths :=
  map_of_mapM h fun _ _ _ hl => path_of_readLayer hl

/-- Whether the user's own file is turned off can be seen from the layers of the others. -/
theorem isOptedOut_iff {ls : List Layer}
    (h : (projectFiles t directory).mapM (readLayer t) = .ok ls) : isOptedOut e ls = false ↔
      ∀ path ∈ projectFiles t directory, ¬ OptsOut t e path := by
  simp only [isOptedOut, List.any_eq_false, optsOut_iff, Bool.not_eq_true]
  constructor
  · rintro hnone path hpath ⟨l, hread, hopted⟩
    obtain ⟨l', hl', hread'⟩ := (mem_of_mapM h).2.1 path hpath
    rw [hread] at hread'
    cases hread'
    rw [hnone l hl'] at hopted
    cases hopted
  · intro hnone l hl
    obtain ⟨path, hpath, hread⟩ := (mem_of_mapM h).1 l hl
    exact Bool.eq_false_iff.2 fun hopted => hnone path hpath ⟨l, hread, hopted⟩

/-- Whether the user's own file counts can be seen from the layers of the others. -/
theorem homeCounts_iff {ls : List Layer} {home : Path} (hopted : isOptedOut e ls = false)
    (h : (projectFiles t directory).mapM (readLayer t) = .ok ls) : HomeCounts t e directory home ↔
      (ls.any (·.path.same home) || !t.doesExist home) = false := by
  have hsame : ls.any (·.path.same home) = false ↔
      ∀ path ∈ projectFiles t directory, path.same home = false := by
    rw [← map_path_of_mapM h]
    simp
  rw [Bool.or_eq_false_iff, Bool.not_eq_false', hsame]
  exact ⟨fun hhome => ⟨hhome.not_same, hhome.doesExist⟩,
    fun ⟨hsame, hexists⟩ => ⟨hexists, hsame, (isOptedOut_iff h).1 hopted⟩⟩

/-! ### All files -/

/-- The user's own file is read after the others if it counts. -/
theorem userLayer_eq {ls : List Layer}
    (h : (projectFiles t directory).mapM (readLayer t) = .ok ls) (hhome : ¬ HomeMissing t e directory) :
    (userLayer t e ls).map Option.toList =
      ((userPath? e).toList.filter fun home => decide (HomeCounts t e directory home)).mapM
        (readLayer t) := by
  unfold userLayer
  cases hopted : isOptedOut e ls with
  | true =>
    have hnone : ∀ home, ¬ HomeCounts t e directory home := fun home hcounts => by
      rw [(isOptedOut_iff h).2 hcounts.not_optsOut] at hopted
      cases hopted
    rw [if_pos rfl, List.filter_eq_nil_iff.2 fun home _ => by simpa using hnone home]
    rfl
  | false =>
    rw [if_neg Bool.false_ne_true]
    cases huser : userPath? e with
    | none =>
      exact absurd ⟨Option.map_eq_none_iff.1 huser, (isOptedOut_iff h).1 hopted⟩ hhome
    | some home =>
      dsimp only
      by_cases hcounts : HomeCounts t e directory home
      · rw [(homeCounts_iff hopted h).1 hcounts, if_neg Bool.false_ne_true, Option.toList_some,
          List.filter_singleton, decide_eq_true hcounts]
        simp only [cond_true, List.mapM_cons, List.mapM_nil]
        cases readLayer t home <;> rfl
      · have hnot := mt (homeCounts_iff hopted h).2 hcounts
        rw [Bool.not_eq_false] at hnot
        rw [hnot, if_pos rfl, Option.toList_some, List.filter_singleton, decide_eq_false hcounts]
        rfl

/-- The layers are those of the files that count, if the user's own file is not asked for in vain. -/
theorem layers_eq_mapM (h : ¬ HomeMissing t e directory) :
    layers t e directory = (visited t e directory).mapM (readLayer t) := by
  rw [layers, layersUpwards_eq_mapM, visited, List.mapM_append]
  show (projectFiles t directory).mapM (readLayer t) >>= _ = _
  cases hproject : (projectFiles t directory).mapM (readLayer t) with
  | error fault => rfl
  | ok ls =>
    rw [← userLayer_eq hproject h]
    show (userLayer t e ls >>= fun home => pure (ls ++ home.toList)) = _
    cases userLayer t e ls <;> rfl

theorem layers_of_homeMissing (h : HomeMissing t e directory) : layers t e directory =
    (visited t e directory).mapM (readLayer t) >>= fun _ => .error .homeUnknown := by
  have huser : userPath? e = none := by rw [userPath?, h.home_eq, Option.map_none]
  rw [layers, layersUpwards_eq_mapM, visited, huser, Option.toList_none, List.filter_nil,
    List.append_nil]
  show (projectFiles t directory).mapM (readLayer t) >>= _ = _
  cases hproject : (projectFiles t directory).mapM (readLayer t) with
  | error fault => rfl
  | ok ls =>
    show (userLayer t e ls >>= fun home => pure (ls ++ home.toList)) = _
    rw [userLayer, (isOptedOut_iff hproject).2 h.not_optsOut, huser]
    rfl

/-- No path counts twice. -/
theorem pairwise_visited (t : Tree) (e : Environment) (directory : Path) :
    (visited t e directory).Pairwise fun path path' => path.same path' = false := by
  have hproject : (projectFiles t directory).Pairwise fun path path' => path.same path' = false :=
    ((directory.pairwise_join isEntryName_fileName).sublist (List.take_sublist ..)).sublist
      List.filter_sublist
  have hhome : ((userPath? e).toList.filter fun home =>
      decide (HomeCounts t e directory home)).Pairwise fun path path' => path.same path' = false := by
    refine List.Pairwise.sublist List.filter_sublist ?_
    cases userPath? e with
    | none => exact .nil
    | some home => exact List.pairwise_singleton ..
  refine List.pairwise_append.2 ⟨hproject, hhome, fun path hpath home hmem => ?_⟩
  have hcounts : HomeCounts t e directory home := by simpa using List.of_mem_filter hmem
  exact hcounts.not_same path hpath

theorem throughRoot_congr {paths : List Path}
    (h : ∀ path ∈ throughRoot t paths, t'.entry path = t.entry path) :
    throughRoot t' paths = throughRoot t paths := by
  induction paths with
  | nil => rfl
  | cons path paths ih =>
    rw [throughRoot_cons, List.forall_mem_cons] at h
    have hroot : isRootFile t' path = isRootFile t path := by
      rw [isRootFile, isRootFile, readLayer_congr h.1]
    rw [throughRoot_cons, throughRoot_cons, hroot]
    cases hfound : isRootFile t path with
    | true => rfl
    | false =>
      rw [hfound] at h
      rw [ih h.2]

/-- What is elsewhere than where files are searched for does not matter, and neither does the user's own
file if another one turns it off or is the same. -/
theorem layers_congr (h : ∀ path ∈ searched t directory, t'.entry path = t.entry path)
    (hhome : ∀ home, userPath? e = some home → (∀ path ∈ projectFiles t directory,
        path.same home = false ∧ ¬ OptsOut t e path) → t'.entry home = t.entry home) :
    layers t' e directory = layers t e directory := by
  have hproject : projectFiles t' directory = projectFiles t directory := by
    rw [projectFiles, searched, throughRoot_congr h]
    exact List.filter_congr fun path hpath => isFile_congr (h path hpath)
  have hread (path) (hpath : path ∈ projectFiles t directory) :
      readLayer t' path = readLayer t path :=
    readLayer_congr (h path (List.mem_of_mem_filter hpath))
  have hopts : (∀ path ∈ projectFiles t' directory, ¬ OptsOut t' e path) ↔
      ∀ path ∈ projectFiles t directory, ¬ OptsOut t e path := by
    rw [hproject]
    exact forall₂_congr fun path hpath => by rw [OptsOut, OptsOut, hread path hpath]
  have hmissing : HomeMissing t' e directory ↔ HomeMissing t e directory :=
    ⟨fun hm => ⟨hm.home_eq, hopts.1 hm.not_optsOut⟩, fun hm => ⟨hm.home_eq, hopts.2 hm.not_optsOut⟩⟩
  have hentry (home) (huser : userPath? e = some home)
      (hsame : ∀ path ∈ projectFiles t directory, path.same home = false)
      (hnot : ∀ path ∈ projectFiles t directory, ¬ OptsOut t e path) : t'.entry home = t.entry home :=
    hhome home huser fun path hpath => ⟨hsame path hpath, hnot path hpath⟩
  have hcounts (home) (huser : userPath? e = some home) :
      HomeCounts t' e directory home ↔ HomeCounts t e directory home := by
    constructor
    · rintro ⟨hexists, hsame, hopted⟩
      rw [hproject] at hsame
      have hopted' := hopts.1 hopted
      exact ⟨doesExist_congr (hentry home huser hsame hopted') ▸ hexists, hsame, hopted'⟩
    · rintro ⟨hexists, hsame, hopted⟩
      refine ⟨doesExist_congr (hentry home huser hsame hopted) ▸ hexists, ?_, hopts.2 hopted⟩
      rw [hproject]
      exact hsame
  have hvisited : visited t' e directory = visited t e directory := by
    rw [visited, visited, hproject]
    congr 1
    refine List.filter_congr fun home hmem => ?_
    simp only [hcounts home (Option.mem_toList.1 hmem)]
  have hall : (visited t' e directory).mapM (readLayer t') =
      (visited t e directory).mapM (readLayer t) := by
    rw [hvisited]
    refine mapM_congr fun path hpath => ?_
    rcases List.mem_append.1 hpath with hpath | hpath
    · exact hread path hpath
    · obtain ⟨huser, hcounts⟩ := List.mem_filter.1 hpath
      have hcounts : HomeCounts t e directory path := of_decide_eq_true hcounts
      exact readLayer_congr
        (hentry path (Option.mem_toList.1 huser) hcounts.not_same hcounts.not_optsOut)
  by_cases hm : HomeMissing t e directory
  · rw [layers_of_homeMissing hm, layers_of_homeMissing (hmissing.2 hm), hall]
  · rw [layers_eq_mapM hm, layers_eq_mapM (mt hmissing.1 hm), hall]

/-- When the layers of a directory are read. -/
theorem layers_eq_ok_iff {ls : List Layer} : layers t e directory = .ok ls ↔
    ¬ HomeMissing t e directory ∧ (visited t e directory).mapM (readLayer t) = .ok ls := by
  by_cases hm : HomeMissing t e directory
  · rw [layers_of_homeMissing hm]
    simp only [hm, not_true_eq_false, false_and, iff_false]
    cases (visited t e directory).mapM (readLayer t) <;> exact fun h => (nomatch h)
  · simp only [layers_eq_mapM hm, hm, not_false_eq_true, true_and]

/-- Why the layers of a directory cannot be read. -/
theorem layers_eq_error_iff {fault : Fault} : layers t e directory = .error fault ↔
    (visited t e directory).mapM (readLayer t) = .error fault ∨
      HomeMissing t e directory ∧ fault = .homeUnknown ∧
        ∃ ls, (visited t e directory).mapM (readLayer t) = .ok ls := by
  by_cases hm : HomeMissing t e directory
  · rw [layers_of_homeMissing hm]
    simp only [hm, true_and]
    cases (visited t e directory).mapM (readLayer t) with
    | error fault' =>
      exact ⟨.inl, fun h => h.resolve_right fun ⟨_, _, h⟩ => (nomatch h)⟩
    | ok ls =>
      constructor
      · intro h
        cases h
        exact .inr ⟨rfl, ls, rfl⟩
      · rintro (h | ⟨rfl, -⟩)
        · cases h
        · rfl
  · simp only [layers_eq_mapM hm, hm, false_and, or_false]

/-- The layers for a directory are those of the files that count for it, which do not include a path twice.
There is a fault just if one of these files cannot be used, or if the user's own file is asked for and
it is not known which directory is the user's. It is that of the first such file, if there is one. No
other file makes a difference. -/
theorem layers_visits (t : Tree) (e : Environment) (directory : Path) :
    ((∃ ls, layers t e directory = .ok ls) ↔ ¬ HomeMissing t e directory ∧
      ∀ path ∈ visited t e directory, ∀ fault, ¬ Unusable t path fault) ∧
    (∀ ls, layers t e directory = .ok ls → ls.map (·.path) = visited t e directory ∧
      (visited t e directory).mapM (readLayer t) = .ok ls) ∧
    (visited t e directory).Pairwise (fun path path' => path.same path' = false) ∧
    (∀ fault, layers t e directory = .error fault ↔
      (∃ earlier path later, visited t e directory = earlier ++ path :: later ∧
        (∀ path' ∈ earlier, ∀ fault', ¬ Unusable t path' fault') ∧ Unusable t path fault) ∨
      HomeMissing t e directory ∧ fault = .homeUnknown ∧
        ∀ path ∈ visited t e directory, ∀ fault', ¬ Unusable t path fault') ∧
    (∀ t', (∀ path ∈ searched t directory, t'.entry path = t.entry path) →
      (∀ home, userPath? e = some home → (∀ path ∈ projectFiles t directory,
        path.same home = false ∧ ¬ OptsOut t e path) → t'.entry home = t.entry home) →
      layers t' e directory = layers t e directory) := by
  have hall : (∃ ls, (visited t e directory).mapM (readLayer t) = .ok ls) ↔
      ∀ path ∈ visited t e directory, ∀ fault, ¬ Unusable t path fault := by
    simp only [← exists_readLayer_iff]
    exact exists_mapM_iff
  refine ⟨?_, fun ls hls => ?_, pairwise_visited t e directory, fun fault => ?_,
    fun t' h hhome => layers_congr h hhome⟩
  · simp only [layers_eq_ok_iff, exists_and_left, hall]
  · have hls := (layers_eq_ok_iff.1 hls).2
    exact ⟨map_path_of_mapM hls, hls⟩
  · simp only [layers_eq_error_iff, hall, mapM_eq_error_iff, exists_readLayer_iff,
      readLayer_eq_error_iff]

/-- A project in a directory of the user, with a file in one of its directories. The user's own file cannot
be read. -/
def nestedTree : Tree where
  entries := [(["u"], .directory), (["u", "p"], .directory), (["u", "p", "q"], .directory),
    (["u", "p", "q", fileName], .file (.text "root-config-lookup-disable-env-var = \x22CI\x22\n")),
    (["u", "p", fileName], .file (.text "root = true\n")),
    (["u", fileName], .file (.binary [255]))]

theorem readLayer_nestedTree : readLayer nestedTree ⟨"/u/p/q/.traefik-migrate.toml"⟩ =
    .ok ⟨⟨"/u/p/q/.traefik-migrate.toml"⟩, { optOutVariable := some "CI" }⟩ := by
  have htext : nestedTree.readText ⟨"/u/p/q/.traefik-migrate.toml"⟩ =
    .ok "root-config-lookup-disable-env-var = \x22CI\x22\n" := by decide +kernel
  have hdocument : (Toml.read? "root-config-lookup-disable-env-var = \x22CI\x22\n").bind
    Settings.ofDocument? = some { optOutVariable := some "CI" } := by decide +kernel
  have hvariable : Settings.isBadVariable "CI" = false := by
    rw [Settings.isBadVariable, String.contains_char_eq]
    decide +kernel
  have hvalid : Settings.invalid? { optOutVariable := some "CI" } = none := by
    simp [Settings.invalid?, hvariable]
  have hparse : parse ⟨"/u/p/q/.traefik-migrate.toml"⟩
      "root-config-lookup-disable-env-var = \x22CI\x22\n" = .ok { optOutVariable := some "CI" } := by
    rw [parse, hdocument]
    dsimp only
    rw [hvalid]
  rw [readLayer, htext]
  dsimp only
  rw [hparse]
  rfl

theorem searched_nestedTree : searched nestedTree ⟨"/u/p/q"⟩ =
    [⟨"/u/p/q/.traefik-migrate.toml"⟩, ⟨"/u/p/.traefik-migrate.toml"⟩] := by
  have hpaths : (FileSystem.Path.mk "/u/p/q").ancestors.map (·.join fileName) =
    [⟨"/u/p/q/.traefik-migrate.toml"⟩, ⟨"/u/p/.traefik-migrate.toml"⟩,
      ⟨"/u/.traefik-migrate.toml"⟩, ⟨"/.traefik-migrate.toml"⟩] := by decide +kernel
  have hfirst : isRootFile nestedTree ⟨"/u/p/q/.traefik-migrate.toml"⟩ = false := by
    rw [isRootFile, readLayer_nestedTree]
  have hroot : isRootFile nestedTree ⟨"/u/p/.traefik-migrate.toml"⟩ = true := by decide +kernel
  rw [searched, hpaths, throughRoot_cons, hfirst, throughRoot_cons, hroot]
  rfl

/-- The user's own file does not count if the variable is set, so it might be a directory as well. -/
theorem layers_optedOut :
    visited nestedTree ⟨some ⟨"/u"⟩, [("CI", "Yes")]⟩ ⟨"/u/p/q"⟩ =
      [⟨"/u/p/q/.traefik-migrate.toml"⟩, ⟨"/u/p/.traefik-migrate.toml"⟩] ∧
    layers (nestedTree.put ["u", fileName] .directory) ⟨some ⟨"/u"⟩, [("CI", "Yes")]⟩ ⟨"/u/p/q"⟩ =
      layers nestedTree ⟨some ⟨"/u"⟩, [("CI", "Yes")]⟩ ⟨"/u/p/q"⟩ := by
  have hproject : projectFiles nestedTree ⟨"/u/p/q"⟩ =
      [⟨"/u/p/q/.traefik-migrate.toml"⟩, ⟨"/u/p/.traefik-migrate.toml"⟩] := by
    rw [projectFiles, searched_nestedTree]
    decide +kernel
  have hfirst : ⟨"/u/p/q/.traefik-migrate.toml"⟩ ∈ projectFiles nestedTree ⟨"/u/p/q"⟩ := by
    rw [hproject]
    exact List.mem_cons_self ..
  have hopts : OptsOut nestedTree ⟨some ⟨"/u"⟩, [("CI", "Yes")]⟩ ⟨"/u/p/q/.traefik-migrate.toml"⟩ :=
    ⟨_, "CI", "Yes", readLayer_nestedTree, rfl, rfl, by decide, by decide +kernel⟩
  obtain ⟨-, -, -, -, hcongr⟩ := layers_visits nestedTree ⟨some ⟨"/u"⟩, [("CI", "Yes")]⟩ ⟨"/u/p/q"⟩
  refine ⟨?_, hcongr _ ?_ ?_⟩
  · have hnot (home) : ¬ HomeCounts nestedTree ⟨some ⟨"/u"⟩, [("CI", "Yes")]⟩ ⟨"/u/p/q"⟩ home :=
      fun hcounts => hcounts.not_optsOut _ hfirst hopts
    rw [visited, List.filter_eq_nil_iff.2 fun home _ => by simpa using hnot home, List.append_nil, hproject]
  · rw [searched_nestedTree]
    decide +kernel
  · exact fun home _ h => absurd hopts (h _ hfirst).2

/-- Only a directory at the path of the user's own file. -/
def directoryTree : Tree where
  entries := [(["home"], .directory), (["home", fileName], .directory), (["work"], .directory)]
  workingDirectory := ["work"]

/-- There may be a fault where no file has one: if the directory of the user is not known, and if there is
a directory at the path of the user's own file, which is no file but counts. -/
theorem layers_fails_without_files :
    (visited {} ⟨none, []⟩ ⟨"/work"⟩ = [] ∧ layers {} ⟨none, []⟩ ⟨"/work"⟩ = .error .homeUnknown) ∧
    directoryTree.isFile ⟨"/home/.traefik-migrate.toml"⟩ = false ∧
    projectFiles directoryTree ⟨"/work"⟩ = [] ∧
    layers directoryTree ⟨some ⟨"/home"⟩, []⟩ ⟨"/work"⟩ =
      .error (.read ⟨"/home/.traefik-migrate.toml"⟩) :=
  ⟨by decide +kernel, by decide +kernel, by decide +kernel, by decide +kernel⟩

end TraefikUpgrade.Config
