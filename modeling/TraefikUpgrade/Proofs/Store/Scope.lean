/-
# What a migration is restricted to

A request looks for resources in the files of a namespace and of a name, below the directory of a type.
A resource is created as what its file says of it, though. So a created resource is what was asked for if
and only if the resource in the file is, and that is so wherever the files are in the places that they
name (`created_within`). A file that is elsewhere leads a migration out of what it is restricted to
(`migrate_leaves_namespace`).

Key definitions: `Within`, `InPlace`, `Orderly`.
Key theorems: `exists_source_of_made`, `created_within`.
-/
import TraefikUpgrade.Proofs.Store.Additions

namespace TraefikUpgrade.Store

open FileSystem
open Resource (Group GroupKind Manifest ResourceType)

variable {d : Directory} {options : Conversion.Options} {r : Request} {t : Tree} {m m' : Manifest}
  {ns file : String}

/-! ### Resources that are asked for -/

/-- A resource is of the type that a request is about, and has the namespace and the name to which the
request is restricted. A name is looked for in the default namespace, if no other is given. -/
structure Within (r : Request) (m : Manifest) : Prop where
  type : ∃ group, m.groupKind? = some ⟨group, r.type⟩
  «namespace» : ∀ ns, r.namespace = some ns → m.namespace = ns
  name : ∀ name, r.name = some name →
    m.name = name ∧ m.namespace = r.namespace.getD Resource.defaultNamespace

/-- A file is where a resource of its type and its names is stored. -/
structure InPlace (type : ResourceType) (ns file : String) (m : Manifest) : Prop where
  type : ∃ group, m.groupKind? = some ⟨group, type⟩
  «namespace» : m.namespace = ns
  name : fileName m.name = file

/-- The files in which a request looks are where their resources are stored. -/
def Orderly (d : Directory) (t : Tree) (r : Request) : Prop :=
  ∀ ns file m, Selects r ns file → d.read t (d.objectPath ⟨.v2, r.type⟩ ns file) = .ok m →
    InPlace r.type ns file m

theorem InPlace.within (h : InPlace r.type ns file m) (hselects : Selects r ns file) :
    Within r m where
  type := h.type
  «namespace» ns' hns' := h.namespace.trans (hselects.namespace ns' hns')
  name name hname := by
    obtain ⟨hfile, hns⟩ := hselects.name name hname
    exact ⟨fileName_inj (h.name.trans hfile), h.namespace.trans hns⟩

/-! ### Where resources come from -/

/-- A created resource was converted from one that is in a file where the request looks. -/
theorem exists_source_of_made [Regex.Limits] (hs : t.Sound)
    (h : m' ∈ made options (account d options r t)) :
    ∃ ns file m, Selects r ns file ∧ d.read t (d.objectPath ⟨.v2, r.type⟩ ns file) = .ok m ∧
      Conversion.convert options m = .ok m' := by
  obtain ⟨m, hm, hconvert⟩ := mem_made_iff.1 h
  obtain ⟨⟨ms, hselect, hmem⟩, -⟩ := of_mem_account hm
  obtain ⟨ns, file, hselects, hread⟩ := exists_read_of_select hs hselect hmem
  exact ⟨ns, file, m, hselects, hread, hconvert⟩

/-- A conversion leads neither out of what is asked for nor into it. -/
theorem Storable.within_iff [Regex.Limits] {kind : GroupKind} (hm' : Storable m' kind)
    (h : Conversion.convert options m = .ok m') : Within r m' ↔ Within r m := by
  obtain ⟨hns, hname, -, group, hgroup⟩ := hm'.of_convert h
  have htype : (∃ group, m'.groupKind? = some ⟨group, r.type⟩) ↔
      ∃ group, m.groupKind? = some ⟨group, r.type⟩ := by
    simp only [hm'.groupKind, hgroup, Option.some.injEq]
    constructor
    · rintro ⟨_, rfl⟩
      exact ⟨group, rfl⟩
    · rintro ⟨_, he⟩
      obtain ⟨-, htype⟩ := GroupKind.mk.inj he
      exact ⟨kind.group, by rw [← htype]⟩
  constructor
  · rintro ⟨h1, h2, h3⟩
    rw [hns] at h2 h3
    rw [hname] at h3
    exact ⟨htype.1 h1, h2, h3⟩
  · rintro ⟨h1, h2, h3⟩
    rw [← hns] at h2 h3
    rw [← hname] at h3
    exact ⟨htype.2 h1, h2, h3⟩

/-- A created resource is of version 3, and comes from a file in which the request looks. It is what was
asked for if and only if the resource in the file is. All created resources are what was asked for, if the
files in which the request looks are where their resources are stored. -/
theorem created_within [Regex.Limits] (d : Directory) (options : Conversion.Options) (r : Request)
    {t : Tree} (hs : t.Sound) :
    (∀ m' ∈ made options (account d options r t),
      (∃ type, m'.groupKind? = some ⟨.v3, type⟩) ∧
      ∃ ns file m, Selects r ns file ∧ d.read t (d.objectPath ⟨.v2, r.type⟩ ns file) = .ok m ∧
        Conversion.convert options m = .ok m' ∧ (Within r m' ↔ Within r m)) ∧
    (Orderly d t r → ∀ m' ∈ made options (account d options r t), Within r m') := by
  constructor
  · intro m' hm'
    obtain ⟨⟨group, type⟩, hstorable, hgroup⟩ := storable_of_mem_made hm'
    obtain ⟨ns, file, m, hselects, hread, hconvert⟩ := exists_source_of_made hs hm'
    refine ⟨⟨type, ?_⟩, ns, file, m, hselects, hread, hconvert, hstorable.within_iff hconvert⟩
    have hgroup : group = .v3 := hgroup
    rw [hstorable.groupKind, hgroup]
  · intro horderly m' hm'
    obtain ⟨kind, hstorable, -⟩ := storable_of_mem_made hm'
    obtain ⟨ns, file, m, hselects, hread, hconvert⟩ := exists_source_of_made hs hm'
    exact (hstorable.within_iff hconvert).2 ((horderly ns file m hselects hread).within hselects)

/-- A tree in which the middleware is stored for its own namespace. -/
def orderlyTree : Tree where
  entries := [(["store"], .directory), (["store", "traefik.containo.us"], .directory),
    (["store", "traefik.containo.us", "Middleware"], .directory),
    (["store", "traefik.containo.us", "Middleware", "default"], .directory),
    (["store", "traefik.containo.us", "Middleware", "default", "strip.yaml"],
      .file (.text misplacedText))]

/-- A request for the middleware. -/
def orderlyRequest : Request :=
  { type := .middleware, name := some "strip", «namespace» := some "default" }

theorem sound_orderlyTree : orderlyTree.Sound :=
  (Tree.Closed.of_entries (by decide) (by decide)).toSound

theorem decode_misplacedText {m : Manifest} {ms : List Manifest}
    (h : Resource.decode GroupKind.all misplacedText = .ok (m :: ms)) :
    m.groupKind? = some ⟨.v2, .middleware⟩ ∧ m.namespace = "default" ∧ m.name = "strip" := by
  have hdecode : (Resource.decode GroupKind.all misplacedText).toOption.map (List.map fun m =>
      (m.groupKind?, m.namespace, m.name)) =
        some [(some ⟨.v2, .middleware⟩, "default", "strip")] := by
    decide +kernel
  rw [h] at hdecode
  cases ms with
  | nil => simpa [Except.toOption] using hdecode
  | cons m₁ ms => simp [Except.toOption] at hdecode

theorem orderly_orderlyTree : Orderly exampleStore orderlyTree orderlyRequest := by
  intro ns file m hselects hread
  obtain ⟨l, text, ms, hl, hlookup, hdecode⟩ := read_eq_ok hread
  obtain ⟨hfile, hns⟩ := hselects.name "strip" rfl
  rw [Directory.resolve_objectPath hselects.namespaceEntry hselects.fileEntry] at hl
  obtain ⟨-, -, rfl⟩ := Tree.foldlM_step_eq_ok_iff.1 hl
  rw [Directory.foldl_move _ (isEntryName_stepsTo hselects.namespaceEntry hselects.fileEntry),
    hfile, hns] at hlookup
  have htext : orderlyTree.lookup (exampleStore.base (orderlyTree.start exampleStore.root) ++
      stepsTo ⟨.v2, .middleware⟩ "default" (fileName "strip")) =
        some (.file (.text misplacedText)) := by
    decide
  obtain rfl : misplacedText = text := by simpa using htext.symm.trans hlookup
  obtain ⟨hkind, hnamespace, hname⟩ := decode_misplacedText hdecode
  exact ⟨⟨.v2, hkind⟩, hnamespace.trans hns.symm, by rw [hname, hfile]⟩

/-- The middleware is created in the namespace to which the request is restricted. -/
theorem created_within_orderly :
    orderlyTree.Sound ∧ Orderly exampleStore orderlyTree orderlyRequest ∧
    (account exampleStore {} orderlyRequest orderlyTree).map Prod.snd = [.created] ∧
    ∀ m' ∈ made {} (account exampleStore {} orderlyRequest orderlyTree), Within orderlyRequest m' :=
  ⟨sound_orderlyTree, orderly_orderlyTree, by decide +kernel,
    (created_within exampleStore {} orderlyRequest sound_orderlyTree).2 orderly_orderlyTree⟩

/-- The file of a middleware in the directory of a namespace that it does not name: a request that is
restricted to that namespace creates a resource of another one. -/
theorem migrate_leaves_namespace :
    misplacedTree.Closed ∧ misplacedRequest.namespace = some "apps" ∧
    migrate exampleStore {} misplacedRequest misplacedTree =
      (.ok { created := ["default/strip"] }, misplacedResult) ∧
    ∃ m' ∈ made {} (account exampleStore {} misplacedRequest misplacedTree),
      m'.namespace ≠ "apps" := by
  refine ⟨closed_misplacedTree, rfl, migrate_misplaced, ?_⟩
  have hcreated : ["default/strip"] =
      listed (· == .created) (account exampleStore {} misplacedRequest misplacedTree) :=
    congrArg Report.created (migrate_report (congrArg Prod.fst migrate_misplaced)).2
  have hmem := List.mem_singleton_self "default/strip"
  rw [hcreated] at hmem
  obtain ⟨⟨m, step⟩, hm, hidentity⟩ := List.mem_map.1 hmem
  obtain ⟨hm, hstep⟩ := List.mem_filter.1 hm
  obtain rfl : step = .created := by simpa using hstep
  obtain ⟨m', kind, hconvert, hstorable⟩ := exists_convert_of_created hm
  refine ⟨m', mem_made_iff.2 ⟨m, hm, hconvert⟩, fun hns => ?_⟩
  have hfirst := congrArg (fun s => s.toList.head?) hidentity
  rw [identity, ← (hstorable.of_convert hconvert).1, hns] at hfirst
  simp at hfirst

end TraefikUpgrade.Store
