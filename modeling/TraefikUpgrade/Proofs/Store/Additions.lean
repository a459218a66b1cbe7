/-
# What a migration adds to a store

A migration only adds files, each for a resource that it created, at the place of that resource below the
directory for version 3. Each step of a migration adds the file of one resource, where there was nothing
(`adds_of_taken`), and so does the whole of it, whether or not a request to the store fails
(`adds_migrateEach`).

Key definitions: `Opened`, `Directory.place?`, `Adds`, `IsNew`.
Key theorems: `Opened.vacant`, `Adds.isNew_iff`, `adds_of_taken`, `adds_migrateEach`, `migrate_adds`,
`migrate_accounts`.
-/
import TraefikUpgrade.Proofs.Store.Account
import TraefikUpgrade.Proofs.Store.Selection

namespace TraefikUpgrade.Store

open FileSystem
open Resource (Group GroupKind Manifest ResourceType encodeOne?)

variable {d : Directory} {start : Location} {options : Conversion.Options} {r : Request}
  {t t' t'' : Tree} {m m' : Manifest} {step : Step} {kind : GroupKind} {ns file : String}

/-! ### Open stores -/

/-- The path of a store leads to a directory, in a closed tree. -/
structure Opened (d : Directory) (start : Location) (t : Tree) : Prop where
  closed : t.Closed
  start_eq : t.start d.root = start
  way : ∀ x ∈ visited start d.root.way, t.lookup x = some .directory
  short : ∀ part ∈ d.root.way, IsShort part
  base : t.lookup (d.base start) = some .directory

theorem Opened.of_steps {names : List String} {l : Location} (ht : t.Closed) (hne : names ≠ [])
    (h : (d.root.way ++ names).foldlM t.step (t.start d.root) = .ok l) :
    Opened d (t.start d.root) t := by
  obtain ⟨hdirs, hshort, -⟩ := Tree.foldlM_step_eq_ok_iff.1 h
  rw [visited_append] at hdirs
  refine ⟨ht, rfl, fun x hx => hdirs x (List.mem_append_left _ hx),
    fun part hpart => hshort part (List.mem_append_left _ hpart), ?_⟩
  obtain ⟨s, names, rfl⟩ := List.exists_cons_of_ne_nil hne
  exact hdirs _ (List.mem_append_right _ (List.mem_cons_self ..))

/-- Something below the directory of a store is reached by its names. -/
theorem Opened.steps_eq {names : List String} {e : Entry} (h : Opened d start t)
    (hn : ∀ s ∈ names, IsEntryName s) (he : t.lookup (d.base start ++ names) = some e) :
    (d.root.way ++ names).foldlM t.step start = .ok (d.base start ++ names) := by
  obtain ⟨hbelow, -⟩ := h.closed.visited_below he
  refine Tree.foldlM_step_eq_ok_iff.2 ⟨?_, ?_, (Directory.foldl_move names hn).symm⟩
  · intro x hx
    rw [visited_append] at hx
    exact (List.mem_append.1 hx).elim (h.way x) (hbelow x)
  · intro part hpart
    rcases List.mem_append.1 hpart with hpart | hpart
    · exact h.short part hpart
    · exact h.closed.short _ e he part (List.mem_append_right _ hpart)

/-- A resource is found where something is at its location. -/
theorem Opened.doesExist {e : Entry} (h : Opened d start t) (hns : IsEntryName ns)
    (hfile : IsEntryName file) (he : t.lookup (d.location start kind ns file) = some e) :
    t.doesExist (d.objectPath kind ns file) = true := by
  have hsteps := h.steps_eq (isEntryName_stepsTo hns hfile) he
  refine Tree.doesExist_iff.2 ⟨e, Tree.entry_eq_ok_iff.2 ⟨_, ?_, he⟩⟩
  rw [Directory.resolve_objectPath hns hfile, h.start_eq, hsteps]
  rfl

theorem Opened.vacant (h : Opened d start t) (hns : IsEntryName ns) (hfile : IsEntryName file)
    (hnew : t.doesExist (d.objectPath kind ns file) = false) :
    t.lookup (d.location start kind ns file) = none := by
  cases he : t.lookup (d.location start kind ns file) with
  | none => rfl
  | some e =>
    rw [h.doesExist hns hfile he] at hnew
    cases hnew

/-- The file is written after the directories on the way to it were created. -/
theorem write_eq_ok {p : Path} {content : String} (h : Directory.write t p content = .ok t') :
    ∃ t₁, t.createDirectories (p.parent?.getD p) = .ok t₁ ∧ t₁.write p (.text content) = .ok t' := by
  unfold Directory.write at h
  dsimp only at h
  split at h
  · cases h
  next t₁ hcreate =>
    split at h
    · cases h
    next t₂ hwrite =>
      cases h
      exact ⟨t₁, hcreate, hwrite⟩

theorem closed_of_write {p : Path} {content : String} (ht : t.Closed)
    (h : Directory.write t p content = .ok t') : t'.Closed := by
  obtain ⟨t₁, hcreate, hwrite⟩ := write_eq_ok h
  exact (ht.createDirectories hcreate).write hwrite

theorem start_of_write {p : Path} {content : String} (h : Directory.write t p content = .ok t')
    (p' : Path) : t'.start p' = t.start p' := by
  obtain ⟨t₁, hcreate, hwrite⟩ := write_eq_ok h
  obtain ⟨l, -, -, rfl⟩ := Tree.write_eq_ok hwrite
  exact (Tree.grown_of_createDirectories hcreate).1.start p'

/-- A store stays open when files are added. -/
theorem Opened.mono (h : Opened d start t) (hk : Tree.Keeps t t') (hc : t'.Closed) :
    Opened d start t' where
  closed := hc
  start_eq := (hk.start _).trans h.start_eq
  way x hx := hk.kept x _ (h.way x hx)
  short := h.short
  base := hk.kept _ _ h.base

/-! ### Additions -/

/-- The location of a resource of a registered kind. -/
def Directory.place? (d : Directory) (start : Location) (m : Manifest) : Option Location :=
  m.groupKind?.map fun kind => d.location start kind m.namespace (fileName m.name)

theorem Storable.place?_eq (h : Storable m kind) :
    d.place? start m = some (d.location start kind m.namespace (fileName m.name)) := by
  rw [Directory.place?, h.groupKind]
  rfl

/-- The tree `t'` is `t` with the files of some resources, each in its own place, and with directories
below the one for version 3. -/
structure Adds (d : Directory) (start : Location) (t t' : Tree) (ms : List Manifest) : Prop where
  keeps : Tree.Keeps t t'
  confined : ∀ x e, t'.lookup x = some e →
    t.lookup x = some e ∨ d.base start ++ [Group.v3.name] <+: x
  files : ∀ x content, t'.lookup x = some (.file content) →
    t.lookup x = some (.file content) ∨ ∃ m ∈ ms, d.place? start m = some x
  new : ∀ m ∈ ms, ∃ x text, d.place? start m = some x ∧ encodeOne? m = some text ∧
    t.lookup x = none ∧ t'.lookup x = some (.file (.text text))
  distinct : (ms.map (d.place? start)).Nodup

theorem Adds.refl (d : Directory) (start : Location) (t : Tree) : Adds d start t t [] where
  keeps := .refl t
  confined _ _ h := .inl h
  files _ _ h := .inl h
  new _ hm := absurd hm List.not_mem_nil
  distinct := List.nodup_nil

/-- There was nothing in the place of a resource, and its file is there now. -/
theorem Adds.at_place {ms : List Manifest} {x : Location} (h : Adds d start t t' ms) (hm : m ∈ ms)
    (hplace : d.place? start m = some x) : ∃ text, encodeOne? m = some text ∧
      t.lookup x = none ∧ t'.lookup x = some (.file (.text text)) := by
  obtain ⟨x', text, hplace', hfile⟩ := h.new m hm
  rw [hplace] at hplace'
  obtain rfl := Option.some.inj hplace'
  exact ⟨text, hfile⟩

theorem Adds.trans {ms ms' : List Manifest} (h : Adds d start t t' ms) (h' : Adds d start t' t'' ms') :
    Adds d start t t'' (ms ++ ms') where
  keeps := h.keeps.trans h'.keeps
  confined x e hx := (h'.confined x e hx).elim (h.confined x e) .inr
  files x content hx := by
    rcases h'.files x content hx with hx | ⟨m, hm, hplace⟩
    · rcases h.files x content hx with hx | ⟨m, hm, hplace⟩
      · exact .inl hx
      · exact .inr ⟨m, List.mem_append_left _ hm, hplace⟩
    · exact .inr ⟨m, List.mem_append_right _ hm, hplace⟩
  new m hm := by
    rcases List.mem_append.1 hm with hm | hm
    · obtain ⟨x, text, hplace, hencode, hnone, hx⟩ := h.new m hm
      exact ⟨x, text, hplace, hencode, hnone, h'.keeps.kept x _ hx⟩
    · obtain ⟨x, text, hplace, hencode, hnone, hx⟩ := h'.new m hm
      refine ⟨x, text, hplace, hencode, ?_, hx⟩
      -- What was there at first would be there still.
      cases hx' : t.lookup x with
      | none => rfl
      | some e =>
        rw [h.keeps.kept x e hx'] at hnone
        cases hnone
  distinct := by
    rw [List.map_append, List.nodup_append]
    refine ⟨h.distinct, h'.distinct, fun x hx x' hx' he => ?_⟩
    -- The place of a resource that is added later is vacant until then.
    subst he
    obtain ⟨m, hm, rfl⟩ := List.mem_map.1 hx
    obtain ⟨m', hm', hsame⟩ := List.mem_map.1 hx'
    obtain ⟨x, text, hplace, -, -, hthere⟩ := h.new m hm
    obtain ⟨text', -, hnone, -⟩ := h'.at_place hm' (hsame.trans hplace)
    rw [hthere] at hnone
    cases hnone

/-- The file of one resource is added. -/
theorem Opened.adds_written {text : String} (h : Opened d start t) (hm : Storable m kind)
    (hkind : kind.group = .v3) (hencode : encodeOne? m = some text)
    (hnew : t.doesExist (d.pathOf kind m) = false)
    (hwrite : Directory.write t (d.pathOf kind m) text = .ok t') :
    Adds d start t t' [m] ∧ Opened d start t' := by
  obtain rfl := h.start_eq
  have hns : IsEntryName m.namespace := isEntryName_of_isNamespace hm.namespace
  have hfile : IsEntryName (fileName m.name) := isEntryName_fileName hm.name
  have hvacant := h.vacant hns hfile hnew
  have hwritten := Directory.written_of_write hns hfile hvacant hwrite
  have hkeeps : Tree.Keeps t t' := ⟨hwritten.kept, start_of_write hwrite⟩
  refine ⟨?_, h.mono hkeeps (closed_of_write h.closed hwrite)⟩
  have hsteps : stepsTo kind m.namespace (fileName m.name) =
      Group.v3.name :: [kind.type.name, m.namespace, fileName m.name] := by
    rw [stepsTo, hkind]
  refine { keeps := hkeeps, confined := fun x e hx => ?_, files := fun x content hx => ?_,
           new := fun m' hm' => ?_, distinct := by simp }
  · rcases hwritten.new x e hx with hx | ⟨rfl, hway⟩ | ⟨-, rfl⟩
    · exact .inl hx
    · -- The directories on the way to the store and the store's own were there before.
      have hn : ∀ s ∈ stepsTo kind m.namespace (fileName m.name), IsEntryName s :=
        isEntryName_stepsTo hns hfile
      rw [hsteps] at hway hn
      rcases Directory.mem_visited hn hway with hx | rfl | hx
      · exact .inl (h.way x hx)
      · exact .inl h.base
      · exact .inr hx
    · rw [Directory.location, hsteps]
      exact .inr ⟨[kind.type.name, m.namespace, fileName m.name], by simp⟩
  · rcases hwritten.new x _ hx with hx | ⟨he, -⟩ | ⟨-, rfl⟩
    · exact .inl hx
    · cases he
    · exact .inr ⟨m, List.mem_singleton_self m, hm.place?_eq⟩
  · obtain rfl := List.mem_singleton.1 hm'
    exact ⟨_, text, hm.place?_eq, hencode, hvacant, hwritten.content⟩

/-- A file that was not there, or that had another content. -/
def IsNew (t t' : Tree) (x : Location) (content : Content) : Prop :=
  t'.lookup x = some (.file content) ∧ t.lookup x ≠ some (.file content)

/-- The new files are those of the resources. -/
theorem Adds.isNew_iff {ms : List Manifest} (h : Adds d start t t' ms) {x : Location}
    {content : Content} : IsNew t t' x content ↔
      ∃ m ∈ ms, ∃ text, d.place? start m = some x ∧ encodeOne? m = some text ∧
        content = .text text := by
  constructor
  · intro hnew
    obtain ⟨m, hm, hplace⟩ := (h.files x content hnew.1).resolve_left hnew.2
    obtain ⟨text, hencode, -, hx⟩ := h.at_place hm hplace
    rw [hnew.1] at hx
    cases hx
    exact ⟨m, hm, text, hplace, hencode, rfl⟩
  · rintro ⟨m, hm, text, hplace, hencode, rfl⟩
    obtain ⟨text', hencode', hnone, hx⟩ := h.at_place hm hplace
    rw [hencode] at hencode'
    obtain rfl := Option.some.inj hencode'
    refine ⟨hx, ?_⟩
    rw [hnone]
    nofun

/-! ### Migrations -/

section
variable [Regex.Limits]

/-- The resources whose files a migration writes. -/
def written (options : Conversion.Options) (r : Request) (taken : List (Manifest × Step)) :
    List Manifest :=
  if r.dryRun then [] else made options taken

theorem mem_made_of_mem_written {taken : List (Manifest × Step)} (h : m ∈ written options r taken) :
    m ∈ made options taken := by
  unfold written at h
  split at h
  · cases h
  · exact h

theorem written_nil : written options r [] = [] := by simp [written, made]

theorem written_append (taken taken' : List (Manifest × Step)) :
    written options r (taken ++ taken') = written options r taken ++ written options r taken' := by
  unfold written made
  split
  · rfl
  · exact List.filterMap_append

theorem written_eq_nil (h : step ≠ .created) : written options r [(m, step)] = [] := by
  unfold written
  split
  · rfl
  · cases step with
    | created => exact absurd rfl h
    | _ => rfl

theorem written_created (hdry : r.dryRun = false) (hconvert : Conversion.convert options m = .ok m') :
    written options r [(m, .created)] = [m'] := by
  simp [written, made, madeOf?, hdry, hconvert, Except.toOption]

/-- A step of a migration adds the file of the resource that it creates, if any. -/
theorem adds_of_taken (ho : Opened d start t) (h : Taken d options r t m step t') :
    Adds d start t t' (written options r [(m, step)]) ∧ Opened d start t' := by
  cases h with
  | skipped hout =>
    rw [written_eq_nil (by simp)]
    exact ⟨.refl d start t, ho⟩
  | failed hin hconvert =>
    rw [written_eq_nil (by simp)]
    exact ⟨.refl d start t, ho⟩
  | alreadyExists hin hconvert hm' hthere =>
    rw [written_eq_nil (by simp)]
    exact ⟨.refl d start t, ho⟩
  | planned hin hconvert hm' hnew hdry =>
    rw [written, if_pos hdry]
    exact ⟨.refl d start t, ho⟩
  | written hin hconvert hm' hnew hdry hencode hwrite =>
    rw [written_created hdry hconvert]
    exact ho.adds_written hm' (hm'.of_convert hconvert).2.2.1 hencode hnew hwrite

/-- A migration adds the files of the resources that it creates, also if it ends with a fault. -/
theorem adds_migrateEach {ms : List Manifest} (ho : Opened d start t) :
    Adds d start t (migrateEach d options r t ms).2 (written options r (trace d options r t ms)) ∧
      Opened d start (migrateEach d options r t ms).2 := by
  induction t, ms using run_induction d options r with
  | nil t =>
    rw [trace, written_nil]
    exact ⟨.refl d start t, ho⟩
  | fault t m ms fault hfault =>
    rw [migrateEach_of_fault hfault, trace_of_fault hfault, written_nil]
    exact ⟨.refl d start t, ho⟩
  | taken t m ms step t₁ htaken ih =>
    obtain ⟨hfirst, hopened⟩ := adds_of_taken ho htaken
    obtain ⟨hrest, hend⟩ := ih hopened
    rw [migrateEach_of_taken htaken, trace_of_taken htaken, ← List.singleton_append,
      written_append]
    exact ⟨hfirst.trans hrest, hend⟩

omit [Regex.Limits] in
/-- A store in which something is selected is open. -/
theorem opened_of_select {ms : List Manifest} (ht : t.Closed) (h : select d t r = .ok ms)
    (hne : ms ≠ []) : Opened d (t.start d.root) t := by
  obtain ⟨m, ms, rfl⟩ := List.exists_cons_of_ne_nil hne
  obtain ⟨ns, file, hselects, hread⟩ := exists_read_of_select ht.toSound h (List.mem_cons_self ..)
  obtain ⟨l, text, rest, hl, -, -⟩ := read_eq_ok hread
  rw [Directory.resolve_objectPath hselects.namespaceEntry hselects.fileEntry] at hl
  exact .of_steps ht (by simp [stepsTo]) hl

theorem migrate_adds (ht : t.Closed) :
    Adds d (t.start d.root) t (migrate d options r t).2
      (written options r (account d options r t)) := by
  cases hselect : select d t r with
  | error fault =>
    rw [migrate, account, hselect]
    dsimp only
    rw [written_nil]
    exact .refl d _ t
  | ok ms =>
    rw [migrate_of_select hselect, account_of_select hselect]
    by_cases hne : ms = []
    · -- Nothing is known of the directory of the store, and nothing is done.
      subst hne
      rw [trace, written_nil]
      exact .refl d _ t
    · exact (adds_migrateEach (opened_of_select ht hselect hne)).1

/-- In a dry run nothing is written. -/
theorem tree_eq_of_taken (hdry : r.dryRun = true) (h : Taken d options r t m step t') : t' = t := by
  cases h with
  | written hin hconvert hm' hnew hwet hencode hwrite =>
    rw [hdry] at hwet
    cases hwet
  | _ => rfl

theorem migrateEach_dryRun {ms : List Manifest} (hdry : r.dryRun = true) :
    (migrateEach d options r t ms).2 = t := by
  induction t, ms using run_induction d options r with
  | nil t => rfl
  | fault t m ms fault hfault => rw [migrateEach_of_fault hfault]
  | taken t m ms step t₁ htaken ih =>
    obtain rfl := tree_eq_of_taken hdry htaken
    rw [migrateEach_of_taken htaken]
    exact ih

theorem migrate_dryRun (hdry : r.dryRun = true) : (migrate d options r t).2 = t := by
  unfold migrate
  cases select d t r with
  | error fault => rfl
  | ok ms => exact migrateEach_dryRun hdry

/-! ### The whole migration -/

/-- A migration keeps every file, and every new file is that of a resource of version 3; in a dry run
there is none. If it gives a report, the report is drawn up from the selected resources, each with what
became of it, and there is one new file for each resource that was created. -/
theorem migrate_accounts (d : Directory) (options : Conversion.Options) (r : Request) {t t' : Tree}
    {result : Except Fault Report} (ht : t.Closed) (h : migrate d options r t = (result, t')) :
    (∀ x content, t.lookup x = some (.file content) → t'.lookup x = some (.file content)) ∧
    (∀ x content, IsNew t t' x content → ∃ type ns name,
      x = d.location (t.start d.root) ⟨.v3, type⟩ ns (fileName name)) ∧
    (r.dryRun = true → t' = t) ∧
    ∀ report, result = .ok report →
      select d t r = .ok ((account d options r t).map Prod.fst) ∧
      report = Report.ofSteps (account d options r t) ∧
      report.size = (account d options r t).length ∧
      (∀ m failure, (m, .failed failure) ∈ account d options r t →
        Conversion.convert options m = .error failure) ∧
      (r.dryRun = false →
        (made options (account d options r t)).length = report.created.length ∧
        ((made options (account d options r t)).map (d.place? (t.start d.root))).Nodup ∧
        ∀ x content, IsNew t t' x content ↔ ∃ m ∈ made options (account d options r t),
          ∃ text, d.place? (t.start d.root) m = some x ∧ encodeOne? m = some text ∧
            content = .text text) := by
  have hadds : Adds d (t.start d.root) t (migrate d options r t).2
      (written options r (account d options r t)) := migrate_adds ht
  have hdry : r.dryRun = true → (migrate d options r t).2 = t := migrate_dryRun
  have hreport : ∀ report, (migrate d options r t).1 = .ok report →
      select d t r = .ok ((account d options r t).map Prod.fst) ∧
        report = Report.ofSteps (account d options r t) := fun _ => migrate_report
  rw [h] at hadds hdry hreport
  refine ⟨fun x content => hadds.keeps.kept x _, fun x content hnew => ?_, hdry,
    fun report hresult => ?_⟩
  · obtain ⟨m, hm, -, hplace, -⟩ := hadds.isNew_iff.1 hnew
    obtain ⟨kind, hstorable, hgroup⟩ := storable_of_mem_made (mem_made_of_mem_written hm)
    rw [hstorable.place?_eq] at hplace
    refine ⟨kind.type, m.namespace, m.name, ?_⟩
    rw [← hgroup, Option.some.inj hplace]
  · obtain ⟨hselect, rfl⟩ := hreport report hresult
    refine ⟨hselect, rfl, Report.size_ofSteps _, fun m failure hm => ?_, fun hwet => ?_⟩
    · obtain ⟨-, t₁, t₂, htaken⟩ := of_mem_account hm
      cases htaken with
      | failed hin hconvert => exact hconvert
    · have hwritten : written options r (account d options r t) =
          made options (account d options r t) := by simp [written, hwet]
      rw [hwritten] at hadds
      refine ⟨length_made fun m hm => ?_, hadds.distinct, fun x content => hadds.isNew_iff⟩
      obtain ⟨m', -, hconvert, -⟩ := exists_convert_of_created hm
      exact ⟨m', hconvert⟩

end

/-- The text of a middleware that names no namespace. -/
def misplacedText : String :=
  "apiVersion: traefik.containo.us/v1alpha1\nkind: Middleware\nmetadata:\n  name: strip\nspec: \x7b\x7d\n"

/-- A tree in which the middleware is stored for a namespace. -/
def misplacedTree : Tree where
  entries := [(["store"], .directory), (["store", "traefik.containo.us"], .directory),
    (["store", "traefik.containo.us", "Middleware"], .directory),
    (["store", "traefik.containo.us", "Middleware", "apps"], .directory),
    (["store", "traefik.containo.us", "Middleware", "apps", "strip.yaml"],
      .file (.text misplacedText))]

/-- A request for the middlewares of the namespace. -/
def misplacedRequest : Request := { type := .middleware, «namespace» := some "apps" }

/-- The tree with the new middleware. -/
def misplacedResult : Tree where
  entries := [(["store", "traefik.io", "Middleware", "default", "strip.yaml"], .file (.text
      "apiVersion: traefik.io/v1alpha1\nkind: Middleware\nmetadata:\n  name: strip\nspec: \x7b\x7d\n")),
    (["store", "traefik.io", "Middleware", "default"], .directory),
    (["store", "traefik.io", "Middleware"], .directory),
    (["store", "traefik.io"], .directory)] ++ misplacedTree.entries

theorem closed_misplacedTree : misplacedTree.Closed :=
  .of_entries (by decide) (by decide)

theorem migrate_misplaced : migrate exampleStore {} misplacedRequest misplacedTree =
    (.ok { created := ["default/strip"] }, misplacedResult) := by
  have hrun : Prod.map Except.toOption id (migrate exampleStore {} misplacedRequest misplacedTree) =
      (some { created := ["default/strip"] }, misplacedResult) := by
    decide +kernel
  generalize migrate exampleStore {} misplacedRequest misplacedTree = outcome at hrun
  obtain ⟨result, t⟩ := outcome
  cases result with
  | error fault => cases hrun
  | ok report =>
    cases hrun
    rfl

/-- The middleware is converted, and its file is the only new one. -/
theorem migrate_accounts_misplaced :
    misplacedTree.Closed ∧
    migrate exampleStore {} misplacedRequest misplacedTree =
      (.ok { created := ["default/strip"] }, misplacedResult) ∧
    (account exampleStore {} misplacedRequest misplacedTree).length = 1 ∧
    (made {} (account exampleStore {} misplacedRequest misplacedTree)).length = 1 ∧
    ∀ x content, IsNew misplacedTree misplacedResult x content ↔
      ∃ m ∈ made {} (account exampleStore {} misplacedRequest misplacedTree),
        ∃ text, exampleStore.place? [] m = some x ∧ encodeOne? m = some text ∧
          content = .text text := by
  obtain ⟨-, -, -, hreport⟩ := migrate_accounts _ _ _ closed_misplacedTree migrate_misplaced
  obtain ⟨-, -, hsize, -, hfiles⟩ := hreport _ rfl
  obtain ⟨hlength, -, hnew⟩ := hfiles rfl
  exact ⟨closed_misplacedTree, migrate_misplaced, hsize.symm, hlength, hnew⟩

end TraefikUpgrade.Store
