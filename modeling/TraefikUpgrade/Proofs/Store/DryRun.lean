/-
# What a dry run foretells

In a store whose files of version 2 are where their resources are stored (`Filed`), the resources that a
request selects differ in their namespaces or names (`Filed.distinct`). So none of the files that a
migration writes is in the place of a resource that comes later, and each resource is found or not found as
in the tree at first (`compare_step`). A dry run, which writes nothing, gives the same report or fault then
as the migration, as far as the resources can be printed, which a dry run does not try
(`migrateEach_wet`, `migrate_of_dryRun`).

Key definitions: `Filed`, `Compared`, `areEncodable`.
Key theorems: `Filed.distinct`, `Represents.filed`, `compare_step`, `migrateEach_wet`,
`migrate_of_dryRun`.
-/
import TraefikUpgrade.Proofs.Store.Additions

namespace TraefikUpgrade.Store

open FileSystem
open Resource (Group GroupKind Manifest ResourceType encodeOne?)

variable {d : Directory} {start : Location} {options : Conversion.Options} {r : Request}
  {t t₁ t' : Tree} {m m' : Manifest} {kind : GroupKind} {ns file : String}

/-! ### Files in their places -/

/-- Every file of version 2 holds one resource, and is where this resource is stored. -/
def Filed (d : Directory) (t : Tree) : Prop :=
  ∀ type ns file content, extension? file = some "yaml" →
    t.lookup (d.location (t.start d.root) ⟨.v2, type⟩ ns file) = some (.file content) →
    ∃ text m, content = .text text ∧ Resource.decode d.registry text = .ok [m] ∧
      m.groupKind? = some ⟨.v2, type⟩ ∧ m.namespace = ns ∧ fileName m.name = file

/-- The names of two resources differ, or their namespaces do. -/
def Apart (m m' : Manifest) : Prop := m.namespace = m'.namespace → m.name ≠ m'.name

theorem Filed.of_read {type : ResourceType} (h : Filed d t) (hns : IsEntryName ns)
    (hfile : IsEntryName file) (hyaml : extension? file = some "yaml")
    (hread : d.read t (d.objectPath ⟨.v2, type⟩ ns file) = .ok m) :
    m.namespace = ns ∧ fileName m.name = file := by
  obtain ⟨l, text, ms, hl, hlookup, hdecode⟩ := read_eq_ok hread
  rw [Directory.resolve_objectPath hns hfile] at hl
  obtain ⟨-, -, rfl⟩ := Tree.foldlM_step_eq_ok_iff.1 hl
  rw [Directory.foldl_move _ (isEntryName_stepsTo hns hfile)] at hlookup
  obtain ⟨text', m', htext, hdecode', -, hnamespace, hname⟩ := h type ns file _ hyaml hlookup
  cases htext
  rw [hdecode] at hdecode'
  cases hdecode'
  exact ⟨hnamespace, hname⟩

theorem names_of_pathsIn {p : Path} {paths : List Path} (hs : t.Sound)
    (h : Directory.pathsIn t p = .ok paths) :
    ∃ names : List String, paths = names.map p.join ∧ (∀ s ∈ names, IsEntryName s) ∧
      names.Pairwise (· ≠ ·) := by
  unfold Directory.pathsIn at h
  cases hnames : t.names p with
  | error refusal =>
    rw [hnames] at h
    cases refusal with
    | notFound =>
      cases h
      exact ⟨[], rfl, nofun, .nil⟩
    | _ => cases h
  | ok names =>
    obtain ⟨l, -, -, hin⟩ := Tree.namesIn_of_names hs hnames
    rw [hnames] at h
    cases h
    refine ⟨names, rfl, hin.entryName, hin.sorted.imp fun {s s'} hlt he => ?_⟩
    subst he
    exact String.lt_irrefl _ hlt

theorem Filed.of_readAll {type : ResourceType} {ms : List Manifest} (h : Filed d t) (hs : t.Sound)
    (hns : IsEntryName ns) (hread : d.readAll t ((d.kindPath ⟨.v2, type⟩).join ns) = .ok ms) :
    (∀ m ∈ ms, m.namespace = ns) ∧ ms.Pairwise Apart := by
  obtain ⟨paths, hpaths, hread⟩ := bind_eq_ok hread
  obtain ⟨names, rfl, hnames, hdistinct⟩ := names_of_pathsIn hs hpaths
  rw [Directory.filter_isObjectPath _ hnames, List.mapM_map] at hread
  have hof (s) (hmem : s ∈ names.filter fun s => extension? s == some "yaml") (m)
      (hm : d.read t (((d.kindPath ⟨.v2, type⟩).join ns).join s) = .ok m) :
      m.namespace = ns ∧ fileName m.name = s :=
    h.of_read hns (hnames s (List.mem_of_mem_filter hmem))
      (beq_iff_eq.1 (List.mem_filter.1 hmem).2) hm
  have hfiles := map_of_mapM (g := fun m => fileName m.name) hread fun s hmem m hm =>
    (hof s hmem m hm).2
  refine ⟨fun m hm => ?_, ?_⟩
  · obtain ⟨s, hmem, hread⟩ := (mem_of_mapM hread).1 m hm
    exact (hof s hmem m hread).1
  · have hpairs : (ms.map fun m => fileName m.name).Pairwise (· ≠ ·) :=
      hfiles ▸ hdistinct.sublist List.filter_sublist
    rw [List.pairwise_map] at hpairs
    exact hpairs.imp fun hne _ he => hne (congrArg fileName he)

theorem Filed.distinct_flatten {type : ResourceType} {names : List String}
    {mss : List (List Manifest)} (h : Filed d t) (hs : t.Sound)
    (hread : names.mapM (d.readAll t ∘ (d.kindPath ⟨.v2, type⟩).join) = .ok mss)
    (hnames : ∀ ns ∈ names, IsEntryName ns) (hdistinct : names.Pairwise (· ≠ ·)) :
    mss.flatten.Pairwise Apart := by
  rw [List.pairwise_flatten]
  constructor
  · intro ms hms
    obtain ⟨ns, hns, hread⟩ := (mem_of_mapM hread).1 ms hms
    exact (h.of_readAll hs (hnames ns hns) hread).2
  · have hpairs : names.Pairwise fun ns ns' => ns ≠ ns' ∧ IsEntryName ns ∧ IsEntryName ns' :=
      hdistinct.imp_of_mem fun hns hns' hne => ⟨hne, hnames _ hns, hnames _ hns'⟩
    refine pairwise_of_mapM (fun ns ns' ms ms' hne hms hms' m hm m' hm' he => ?_) hread hpairs
    rw [(h.of_readAll hs hne.2.1 hms).1 m hm, (h.of_readAll hs hne.2.2 hms').1 m' hm'] at he
    exact absurd he hne.1

/-- The resources that a request selects differ in their namespaces or names. -/
theorem Filed.distinct {ms : List Manifest} (h : Filed d t) (hs : t.Sound)
    (hselect : select d t r = .ok ms) : ms.Pairwise Apart := by
  unfold select at hselect
  dsimp only at hselect
  split at hselect
  · next name _ =>
    cases hget : d.get t ⟨.v2, r.type⟩ (r.namespace.getD Resource.defaultNamespace) name with
    | error fault => rw [hget] at hselect; cases hselect
    | ok m =>
      rw [hget] at hselect
      cases hselect
      exact List.pairwise_singleton ..
  · cases hns? : r.namespace with
    | some ns =>
      rw [hns?, list_namespace_eq] at hselect
      by_cases hns : isNamespace ns = true
      · rw [if_pos hns] at hselect
        exact (h.of_readAll hs (isEntryName_of_isNamespace hns) hselect).2
      · rw [if_neg hns] at hselect
        cases hselect
    | none =>
      rw [hns?, list_kind_eq] at hselect
      cases hpaths : Directory.pathsIn t (d.kindPath ⟨.v2, r.type⟩) with
      | error fault => rw [hpaths] at hselect; cases hselect
      | ok paths =>
        rw [hpaths] at hselect
        obtain ⟨names, rfl, hnames, hdistinct⟩ := names_of_pathsIn hs hpaths
        dsimp only at hselect
        rw [List.filter_map, List.mapM_map] at hselect
        cases hread : (names.filter (t.isDirectory ∘ (d.kindPath ⟨.v2, r.type⟩).join)).mapM
            (d.readAll t ∘ (d.kindPath ⟨.v2, r.type⟩).join) with
        | error fault => rw [hread] at hselect; cases hselect
        | ok mss =>
          rw [hread] at hselect
          cases hselect
          exact h.distinct_flatten hs hread (fun ns hns => hnames ns (List.mem_of_mem_filter hns))
            (hdistinct.sublist List.filter_sublist)

/-! ### Places of resources -/

/-- A resource is found if something is at its location. -/
theorem Opened.doesExist_eq (h : Opened d start t) (hns : IsEntryName ns) (hfile : IsEntryName file) :
    t.doesExist (d.objectPath kind ns file) = (t.lookup (d.location start kind ns file)).isSome := by
  rw [Bool.eq_iff_iff]
  constructor
  · intro hthere
    obtain ⟨e, he⟩ := Tree.doesExist_iff.1 hthere
    obtain ⟨l, hl, hlookup⟩ := Tree.entry_eq_ok_iff.1 he
    rw [Directory.resolve_objectPath hns hfile, h.start_eq] at hl
    obtain ⟨-, -, rfl⟩ := Tree.foldlM_step_eq_ok_iff.1 hl
    rw [Directory.foldl_move _ (isEntryName_stepsTo hns hfile)] at hlookup
    exact Option.isSome_iff_exists.2 ⟨e, hlookup⟩
  · intro hsome
    obtain ⟨e, he⟩ := Option.isSome_iff_exists.1 hsome
    exact h.doesExist hns hfile he

/-- A file that is written leaves the places of all other resources as they were. -/
theorem Opened.lookup_of_write {text : String} {kind' : GroupKind} {ns' file' : String}
    (h : Opened d start t) (hns : IsEntryName ns) (hfile : IsEntryName file)
    (hnew : t.doesExist (d.objectPath kind ns file) = false)
    (hwrite : Directory.write t (d.objectPath kind ns file) text = .ok t')
    (hne : d.location start kind' ns' file' ≠ d.location start kind ns file) :
    t'.lookup (d.location start kind' ns' file') = t.lookup (d.location start kind' ns' file') := by
  obtain rfl := h.start_eq
  have hw := Directory.written_of_write hns hfile (h.vacant hns hfile hnew) hwrite
  cases he : t.lookup (d.location (t.start d.root) kind' ns' file') with
  | some e => exact hw.kept _ e he
  | none =>
    cases he' : t'.lookup (d.location (t.start d.root) kind' ns' file') with
    | none => rfl
    | some e =>
      rcases hw.new _ e he' with hx | ⟨-, hx⟩ | ⟨-, hx⟩
      · rw [he] at hx
        cases hx
      · -- The directories on the way are those of the store, or too few steps below it.
        rcases Directory.mem_visited_cases (isEntryName_stepsTo hns hfile) hx with hx | ⟨below, hx, hlt⟩
        · rw [h.way _ hx] at he
          cases he
        · have hlength := congrArg List.length hx
          rw [Directory.length_location, List.length_append] at hlength
          simp only [stepsTo, List.length_cons, List.length_nil] at hlt
          omega
      · exact absurd hx hne

/-! ### One resource -/

/-- The request, as a dry run. -/
def Request.dry (r : Request) : Request := { r with dryRun := true }

/-- The request, as a migration that writes. -/
def Request.wet (r : Request) : Request := { r with dryRun := false }

/-- A resource can be stored, or the store refuses it, whatever it holds. -/
theorem storable_or_refused (d : Directory) (m : Manifest) : (∃ kind, Storable m kind) ∨
    ∃ fault, ∀ t dryRun, d.create t m dryRun = .error fault := by
  cases hkind : m.groupKind? with
  | none => exact .inr ⟨.unregistered m.apiVersion m.kind, fun t dryRun => by
      rw [Directory.create, hkind]; rfl⟩
  | some kind =>
    cases hcheck : Key.check ⟨kind, m.namespace, m.name⟩ with
    | ok =>
      obtain ⟨hname, hns⟩ := Key.check_eq_ok_iff.1 hcheck
      exact .inl ⟨kind, hkind, hname, hns⟩
    | error fault =>
      have hpath : d.path kind m.namespace m.name = .error fault := Directory.path_of_refused hcheck
      refine .inr ⟨fault, fun t dryRun => ?_⟩
      rw [Directory.create, hkind]
      dsimp only
      rw [hpath]
      rfl

/-- What becomes of a resource in a dry run over the tree `t`, and in a migration over `t₁`. -/
inductive Compared [Regex.Limits] (d : Directory) (options : Conversion.Options) (r : Request)
    (t t₁ : Tree) (m : Manifest) : Prop
  | refused {fault : Fault} (hdry : migrateOne d options r.dry t m = .error fault)
      (hwet : migrateOne d options r.wet t₁ m = .error fault)
  | same {step : Step} (hne : step ≠ .created) (hdry : Taken d options r.dry t m step t)
      (hwet : Taken d options r.wet t₁ m step t₁)
  | created {m' : Manifest} {kind : GroupKind} (hconvert : Conversion.convert options m = .ok m')
      (hm' : Storable m' kind) (hnew : t₁.doesExist (d.pathOf kind m') = false)
      (hdry : Taken d options r.dry t m .created t)
      (hwet : migrateOne d options r.wet t₁ m =
        match encodeOne? m' with
        | none => .error .encode
        | some text => (Directory.write t₁ (d.pathOf kind m') text).map (Step.created, ·))

/-- The same becomes of a resource over two trees with the same in its places, until it is written. -/
theorem compare_step [Regex.Limits] (ho : Opened d start t) (ho₁ : Opened d start t₁)
    (hsame : ∀ kind, t₁.lookup (d.location start kind m.namespace (fileName m.name)) =
      t.lookup (d.location start kind m.namespace (fileName m.name))) :
    Compared d options r t t₁ m := by
  by_cases hout : (r.skipDeprecated && setsRemovedOption m) = true
  · exact .same (by simp) (.skipped hout) (.skipped hout)
  rw [Bool.not_eq_true] at hout
  cases hconvert : Conversion.convert options m with
  | error failure => exact .same (by simp) (.failed hout hconvert) (.failed hout hconvert)
  | ok m' =>
    rcases storable_or_refused d m' with ⟨kind, hm'⟩ | ⟨fault, hfault⟩
    · have hns := isEntryName_of_isNamespace hm'.namespace
      have hfile := isEntryName_fileName hm'.name
      obtain ⟨hnamespace, hname, -⟩ := hm'.of_convert hconvert
      have hthere : t₁.doesExist (d.pathOf kind m') = t.doesExist (d.pathOf kind m') := by
        rw [Directory.pathOf, ho₁.doesExist_eq hns hfile, ho.doesExist_eq hns hfile, hnamespace, hname,
          hsame kind]
      cases hexists : t.doesExist (d.pathOf kind m') with
      | true =>
        exact .same (by simp) (.alreadyExists hout hconvert hm' hexists)
          (.alreadyExists hout hconvert hm' (hthere.trans hexists))
      | false =>
        refine .created hconvert hm' (hthere.trans hexists) (.planned hout hconvert hm' hexists rfl) ?_
        rw [migrateOne_of_convert (r := r.wet) hout hconvert, hm'.create_eq, hthere, hexists,
          if_neg Bool.false_ne_true, if_neg (show ¬ r.wet.dryRun = true from Bool.false_ne_true)]
        cases encodeOne? m' with
        | none => rfl
        | some text =>
          dsimp only
          cases Directory.write t₁ (d.pathOf kind m') text <;> rfl
    · have hdry : migrateOne d options r.dry t m = .error fault := by
        rw [migrateOne_of_convert (r := r.dry) hout hconvert, hfault]
        rfl
      have hwet : migrateOne d options r.wet t₁ m = .error fault := by
        rw [migrateOne_of_convert (r := r.wet) hout hconvert, hfault]
        rfl
      exact .refused hdry hwet

/-! ### The whole migration -/

/-- Whether all of some resources can be printed. -/
def areEncodable (ms : List Manifest) : Bool := ms.all fun m => (encodeOne? m).isSome

theorem made_cons_of_ne [Regex.Limits] {step : Step} (h : step ≠ .created)
    (taken : List (Manifest × Step)) :
    made options ((m, step) :: taken) = made options taken := by
  cases step with
  | created => exact absurd rfl h
  | _ => rfl

theorem made_cons_created [Regex.Limits] (h : Conversion.convert options m = .ok m')
    (taken : List (Manifest × Step)) :
    made options ((m, .created) :: taken) = m' :: made options taken := by
  simp [made, madeOf?, h, Except.toOption]

/-- A fault of the rest is that of the whole. -/
theorem map_ne_error {result : Except Fault Report} {f : Report → Report} {fault : Fault}
    (h : result.map f ≠ .error fault) : result ≠ .error fault := by
  rintro rfl
  exact h rfl

/-- Over a tree with the same in the places of the resources a migration gives what a dry run gives, as far
as the resources that the dry run would create can be printed. -/
theorem migrateEach_wet [Regex.Limits] {ms : List Manifest} (hdistinct : ms.Pairwise Apart)
    (ho : Opened d start t) (ho₁ : Opened d start t₁)
    (hsame : ∀ m ∈ ms, ∀ kind, t₁.lookup (d.location start kind m.namespace (fileName m.name)) =
      t.lookup (d.location start kind m.namespace (fileName m.name)))
    (hwrite : ∀ path, (migrateEach d options r.wet t₁ ms).1 ≠ .error (.write path)) :
    (migrateEach d options r.wet t₁ ms).1 =
      if areEncodable (made options (trace d options r.dry t ms)) then
        (migrateEach d options r.dry t ms).1
      else .error .encode := by
  induction ms generalizing t₁ with
  | nil => rfl
  | cons m ms ih =>
    rw [List.pairwise_cons] at hdistinct
    rw [List.forall_mem_cons] at hsame
    have hcompared : Compared d options r t t₁ m := compare_step ho ho₁ hsame.1
    cases hcompared with
    | refused hdry hwet =>
      rw [migrateEach_of_fault hdry, migrateEach_of_fault hwet, trace_of_fault hdry]
      rfl
    | same hne hdry hwet =>
      rw [migrateEach_of_taken hwet] at hwrite
      rw [migrateEach_of_taken hdry, migrateEach_of_taken hwet, trace_of_taken hdry, made_cons_of_ne hne,
        ih hdistinct.2 ho₁ hsame.2 fun path => map_ne_error (hwrite path)]
      split <;> rfl
    | @created m' kind hconvert hm' hnew hdry hwet =>
      rw [migrateEach_of_taken hdry, trace_of_taken hdry, made_cons_created hconvert, areEncodable,
        List.all_cons]
      cases hencode : encodeOne? m' with
      | none =>
        rw [hencode] at hwet
        rw [migrateEach_of_fault hwet]
        rfl
      | some text =>
        rw [hencode] at hwet
        dsimp only at hwet
        cases hfile : Directory.write t₁ (d.pathOf kind m') text with
        | error fault =>
          obtain ⟨path, rfl⟩ := Directory.write_eq_error hfile
          rw [hfile] at hwet
          rw [migrateEach_of_fault hwet] at hwrite
          exact absurd rfl (hwrite path)
        | ok t₂ =>
          rw [hfile] at hwet
          have htaken := migrateOne_eq_ok_iff.1 hwet
          obtain ⟨hnamespace, hname, hgroup, -⟩ := hm'.of_convert hconvert
          have ho₂ := (ho₁.adds_written hm' hgroup hencode hnew hfile).2
          -- The new file is in the place of none of the resources that come later.
          have hlater (m₂) (hm₂ : m₂ ∈ ms) (kind₂) :
              t₂.lookup (d.location start kind₂ m₂.namespace (fileName m₂.name)) =
                t.lookup (d.location start kind₂ m₂.namespace (fileName m₂.name)) := by
            rw [← hsame.2 m₂ hm₂ kind₂]
            refine ho₁.lookup_of_write (isEntryName_of_isNamespace hm'.namespace)
              (isEntryName_fileName hm'.name) hnew hfile fun he => ?_
            obtain ⟨-, hns₂, hfile₂⟩ := Directory.location_inj he
            rw [hnamespace] at hns₂
            rw [hname] at hfile₂
            exact hdistinct.1 m₂ hm₂ hns₂.symm (fileName_inj hfile₂).symm
          rw [migrateEach_of_taken htaken] at hwrite
          rw [migrateEach_of_taken htaken,
            ih hdistinct.2 ho₂ hlater fun path => map_ne_error (hwrite path), areEncodable]
          simp only [Option.isSome_some, Bool.true_and]
          split <;> rfl

theorem migrate_wet [Regex.Limits] (ht : t.Closed) (hf : Filed d t)
    (hwrite : ∀ path, (migrate d options r.wet t).1 ≠ .error (.write path)) :
    (migrate d options r.wet t).1 =
      if areEncodable (made options (account d options r.dry t)) then (migrate d options r.dry t).1
      else .error .encode := by
  cases hselect : select d t r with
  | error fault =>
    have hdry : select d t r.dry = .error fault := hselect
    have hwet : select d t r.wet = .error fault := hselect
    rw [migrate, migrate, account, hdry, hwet]
    rfl
  | ok ms =>
    have hdry : select d t r.dry = .ok ms := hselect
    have hwet : select d t r.wet = .ok ms := hselect
    rw [migrate_of_select hwet] at hwrite
    rw [migrate_of_select hwet, migrate_of_select hdry, account_of_select hdry]
    by_cases hne : ms = []
    · subst hne
      rfl
    · have ho := opened_of_select ht hselect hne
      exact migrateEach_wet (hf.distinct ht.toSound hselect) ho ho (fun _ _ _ => rfl) hwrite

/-! ### Stores that were filled by requests -/

/-- The files of a catalogue are in their places. -/
theorem Represents.filed {c : Catalogue} (h : Represents d start t c) : Filed d t := by
  intro type ns file content hyaml hlookup
  rw [h.start_eq] at hlookup
  obtain ⟨m, hm, hkind, rfl, rfl⟩ := h.only _ ns file hyaml (by rw [hlookup]; rfl)
  obtain ⟨text, hkept⟩ := h.kept_of_kind hm hkind
  rw [hkept.file] at hlookup
  cases hlookup
  exact ⟨text, m, rfl, hkept.decoded, hkind, rfl, rfl⟩

/-- In a store whose files of version 2 are where their resources are stored, a dry run leaves everything as
it is and gives what the migration gives, if files can be written and the resources that the dry run says
are created can be printed; if one of them cannot, the migration ends there. Requests to a store without
files lead to such a store, if a text that is printed is read as what was printed. -/
theorem migrate_of_dryRun [Regex.Limits] (d : Directory) (options : Conversion.Options) (r : Request) :
    (∀ t : Tree, t.Closed → Filed d t →
      (∀ path, (migrate d options r.wet t).1 ≠ .error (.write path)) →
      (migrate d options r.dry t).2 = t ∧
      (migrate d options r.wet t).1 =
        if areEncodable (made options (account d options r.dry t)) then
          (migrate d options r.dry t).1
        else .error .encode) ∧
    (∀ (t root : Tree) (ops : List Operation), d.registry = GroupKind.all → t.Sound →
      t.createDirectories d.root = .ok root → Vacant d root →
      (∀ m dryRun, .create m dryRun ∈ ops → m.Obtained ∧
        ∀ text, encodeOne? m = some text → Yaml.readAll text = [some m.toValue]) →
      (∀ path, .error (.write path) ∉ d.replies t ops) → Filed d (d.after t ops)) := by
  constructor
  · exact fun t ht hf hwrite => ⟨migrate_dryRun rfl, migrate_wet ht hf hwrite⟩
  · intro t root ops hregistry hsound hroot hvacant hobtained hwrite
    obtain ⟨-, c, hc⟩ := (Represents.of_vacant hsound hroot hvacant).replies_eq hregistry
      (fun m dryRun hm => (hobtained m dryRun hm).1) (fun m dryRun hm => (hobtained m dryRun hm).2) hwrite
    exact hc.filed

/-! ### Examples -/

/-- The kinds, namespaces and file names of the resources of a text. -/
def placesIn? (text : String) : Option (List (Option GroupKind × String × String)) :=
  (Resource.decode GroupKind.all text).toOption.map <| List.map fun m =>
    (m.groupKind?, m.namespace, fileName m.name)

theorem exists_of_placesIn {text : String} (h : placesIn? text = some [(some kind, ns, file)]) :
    ∃ m, Resource.decode GroupKind.all text = .ok [m] ∧ m.groupKind? = some kind ∧ m.namespace = ns ∧
      fileName m.name = file := by
  unfold placesIn? at h
  generalize Resource.decode GroupKind.all text = decoded at h
  cases decoded with
  | error fault => cases h
  | ok ms =>
    obtain ⟨m, rfl, hm⟩ := List.map_eq_singleton_iff.1 (Option.some.inj h)
    obtain ⟨hkind, hrest⟩ := Prod.mk.inj hm
    obtain ⟨hns, hfile⟩ := Prod.mk.inj hrest
    exact ⟨m, rfl, hkind, hns, hfile⟩

/-- A file in the place of its middleware. -/
theorem exists_of_location {ns' file' text : String} {type : ResourceType} {content : Content}
    (hplaces : placesIn? text = some [(some ⟨.v2, .middleware⟩, ns, file)])
    (hl : d.location start ⟨.v2, type⟩ ns' file' = d.location start ⟨.v2, .middleware⟩ ns file)
    (hcontent : Entry.file content = .file (.text text)) :
    ∃ text m, content = .text text ∧ Resource.decode GroupKind.all text = .ok [m] ∧
      m.groupKind? = some ⟨.v2, type⟩ ∧ m.namespace = ns' ∧ fileName m.name = file' := by
  obtain ⟨hkind, rfl, rfl⟩ := Directory.location_inj hl
  cases hkind
  cases hcontent
  obtain ⟨m, hm⟩ := exists_of_placesIn hplaces
  exact ⟨text, m, rfl, hm⟩

/-- The text of a middleware of a namespace. -/
def twinText (ns : String) : String :=
  "apiVersion: traefik.containo.us/v1alpha1\nkind: Middleware\nmetadata:\n  name: strip\n  namespace: " ++
    ns ++ "\nspec: \x7b\x7d\n"

/-- A tree with two middlewares of one name. -/
def twinTree : Tree where
  entries := [(["store"], .directory), (["store", "traefik.containo.us"], .directory),
    (["store", "traefik.containo.us", "Middleware"], .directory),
    (["store", "traefik.containo.us", "Middleware", "apps"], .directory),
    (["store", "traefik.containo.us", "Middleware", "shop"], .directory),
    (["store", "traefik.containo.us", "Middleware", "apps", "strip.yaml"],
      .file (.text (twinText "apps"))),
    (["store", "traefik.containo.us", "Middleware", "shop", "strip.yaml"],
      .file (.text (twinText "shop")))]

theorem closed_twinTree : twinTree.Closed := .of_entries (by decide) (by decide)

theorem filed_twinTree : Filed exampleStore twinTree := by
  intro type ns file content _ hlookup
  have hm := Tree.mem_of_lookup (by simp [Directory.location, stepsTo]) hlookup
  simp only [twinTree, List.mem_cons, Prod.mk.injEq, reduceCtorEq, and_false, List.not_mem_nil, or_false,
    false_or] at hm
  have happs : placesIn? (twinText "apps") =
    some [(some ⟨.v2, .middleware⟩, "apps", "strip.yaml")] := by decide +kernel
  have hshop : placesIn? (twinText "shop") =
    some [(some ⟨.v2, .middleware⟩, "shop", "strip.yaml")] := by decide +kernel
  rcases hm with ⟨hl, hcontent⟩ | ⟨hl, hcontent⟩
  · exact exists_of_location happs hl hcontent
  · exact exists_of_location hshop hl hcontent

/-- A request for all middlewares. -/
def allMiddlewares : Request := { type := .middleware }

theorem names_twinTree :
    twinTree.names (exampleStore.kindPath ⟨.v2, .middleware⟩) = .ok ["apps", "shop"] := by
  have hresolve : twinTree.resolve (exampleStore.kindPath ⟨.v2, .middleware⟩) =
    .ok ["store", "traefik.containo.us", "Middleware"] := by decide +kernel
  have hlookup : twinTree.lookup ["store", "traefik.containo.us", "Middleware"] = some .directory := by
    decide +kernel
  have hfound : twinTree.entries.filterMap (fun e =>
    Tree.nameIn? ["store", "traefik.containo.us", "Middleware"] e.1) = ["apps", "shop"] := by
    decide +kernel
  simp only [Tree.names, hresolve, bind, Except.bind, hlookup, hfound]
  rw [List.mergeSort_of_pairwise (by decide +kernel)]
  rfl

/-- The paths of the two namespaces. -/
def twinPaths : List Path := ["apps", "shop"].map (exampleStore.kindPath ⟨.v2, .middleware⟩).join

theorem select_twinTree : select exampleStore twinTree allMiddlewares =
    ((twinPaths.filter twinTree.isDirectory).mapM (exampleStore.readAll twinTree)).map List.flatten := by
  show exampleStore.list twinTree ⟨.v2, .middleware⟩ none = _
  rw [list_kind_eq, Directory.pathsIn, names_twinTree]
  rfl

/-- Both middlewares are created, as the dry run says. -/
theorem migrate_of_dryRun_twins :
    twinTree.Closed ∧ Filed exampleStore twinTree ∧
    (migrate exampleStore {} allMiddlewares.wet twinTree).1.toOption =
      some { created := ["apps/strip", "shop/strip"] } ∧
    (migrate exampleStore {} allMiddlewares.dry twinTree).2 = twinTree ∧
    (migrate exampleStore {} allMiddlewares.wet twinTree).1 =
      (migrate exampleStore {} allMiddlewares.dry twinTree).1 ∧
    Filed exampleStore (exampleStore.after {} exampleRequests) := by
  have hselect : select exampleStore twinTree allMiddlewares.wet = _ := select_twinTree
  have hwet : (migrate exampleStore {} allMiddlewares.wet twinTree).1.toOption =
      some { created := ["apps/strip", "shop/strip"] } := by
    rw [migrate, hselect]
    decide +kernel
  have hwrite (fault) : (migrate exampleStore {} allMiddlewares.wet twinTree).1 ≠ .error fault := by
    intro h
    rw [h] at hwet
    cases hwet
  obtain ⟨hsame, hfiled⟩ := migrate_of_dryRun exampleStore {} allMiddlewares
  obtain ⟨hkept, hresult⟩ := hsame twinTree closed_twinTree filed_twinTree fun path => hwrite (.write path)
  have hdry : (migrate exampleStore {} allMiddlewares.wet twinTree).1 =
      (migrate exampleStore {} allMiddlewares.dry twinTree).1 := by
    split at hresult
    · exact hresult
    · exact absurd hresult (hwrite .encode)
  refine ⟨closed_twinTree, filed_twinTree, hwet, hkept, hdry, ?_⟩
  refine hfiled {} _ exampleRequests rfl sound_empty rfl vacant_exampleStore (fun m dryRun hm => ?_)
    write_notMem_exampleReplies
  rw [eq_of_create_mem hm, encodeOne?_exampleMiddleware]
  refine ⟨exampleMiddleware_obtained (fun _ he => absurd he List.not_mem_nil) readAll_exampleText, ?_⟩
  rintro text ⟨⟩
  exact readAll_exampleText

/-- A middleware with a mapping as a key, which cannot be printed. -/
def unprintableText : String :=
  "apiVersion: traefik.containo.us/v1alpha1\nkind: Middleware\nmetadata: \x7bname: api\x7d\n" ++
    "spec: \x7bretry: \x7b? \x7ba: 1\x7d : 2\x7d\x7d\n"

/-- A tree with the middleware in its place. -/
def unprintableTree : Tree where
  entries := [(["store"], .directory), (["store", "traefik.containo.us"], .directory),
    (["store", "traefik.containo.us", "Middleware"], .directory),
    (["store", "traefik.containo.us", "Middleware", "default"], .directory),
    (["store", "traefik.containo.us", "Middleware", "default", "api.yaml"],
      .file (.text unprintableText))]

theorem filed_unprintableTree : Filed exampleStore unprintableTree := by
  intro type ns file content _ hlookup
  have hm := Tree.mem_of_lookup (by simp [Directory.location, stepsTo]) hlookup
  simp only [unprintableTree, List.mem_cons, Prod.mk.injEq, reduceCtorEq, and_false, List.not_mem_nil,
    or_false, false_or] at hm
  have hplaces : placesIn? unprintableText =
    some [(some ⟨.v2, .middleware⟩, "default", "api.yaml")] := by decide +kernel
  exact exists_of_location hplaces hm.1 hm.2

/-- A dry run says that the middleware is created, and the migration cannot print it. -/
theorem migrate_ne_dryRun :
    unprintableTree.Closed ∧ Filed exampleStore unprintableTree ∧
    (migrate exampleStore {} allMiddlewares.dry unprintableTree).1.toOption =
      some { created := ["default/api"] } ∧
    migrate exampleStore {} allMiddlewares.wet unprintableTree = (.error .encode, unprintableTree) := by
  refine ⟨.of_entries (by decide) (by decide), filed_unprintableTree, by decide +kernel, ?_⟩
  decide +kernel

end TraefikUpgrade.Store
