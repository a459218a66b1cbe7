/-
# A store in a directory is a catalogue

A store whose directory held no files answers every sequence of requests as a catalogue that was empty
(`replies_eq_catalogue`). One request leaves a store that represents the catalogue after it; only a new
resource changes the tree, by its file and by the directories on the way to it.

Key theorems: `Represents.concat`, `Represents.create_cases`, `Represents.perform`,
`replies_eq_catalogue`.
-/
import TraefikUpgrade.Proofs.Resource.Obtained
import TraefikUpgrade.Proofs.Store.Listings
import TraefikUpgrade.Proofs.Yaml.Equality

namespace TraefikUpgrade.Store

open FileSystem
open Resource (GroupKind Manifest encodeOne?)

variable {d : Directory} {start : Location} {t : Tree} {c : Catalogue} {kind : GroupKind} {ns : String}

/-! ### Creating resources -/

theorem Directory.create_eq {m : Manifest} {dryRun : Bool} {p : Path} (hkind : m.groupKind? = some kind)
    (hp : d.path kind m.namespace m.name = .ok p) : d.create t m dryRun =
      if t.doesExist p then .ok (.alreadyExists, t)
      else if dryRun then .ok (.created, t)
      else match encodeOne? m with
        | none => .error .encode
        | some content => (Directory.write t p content).map (Outcome.created, ·) := by
  rw [Directory.create, hkind]
  dsimp only
  rw [hp]
  show (if t.doesExist p then _ else _) = _
  split
  · rfl
  · split
    · rfl
    · cases encodeOne? m with
      | none => rfl
      | some content => cases Directory.write t p content <;> rfl

theorem Catalogue.create_eq {m : Manifest} {dryRun : Bool} {k : Key} (hkey : key? m = some k)
    (hk : k.check = .ok ()) : c.create m dryRun =
      if (c.resource? k).isSome then .ok (.alreadyExists, c)
      else if dryRun then .ok (.created, c)
      else if (encodeOne? m).isSome then .ok (.created, c ++ [m]) else .error .encode := by
  rw [Catalogue.create, hkey]
  dsimp only
  rw [hk]
  show (if (c.resource? k).isSome then _ else _) = _
  split
  · rfl
  · split
    · rfl
    · split <;> rfl

namespace Represents

/-- There is nothing where a new resource is written. -/
theorem lookup_eq_none (h : Represents d start t c) {m : Manifest} (hkind : m.groupKind? = some kind)
    (hname : isName m.name = true) (hnew : ∀ m' ∈ c, key? m' ≠ key? m) :
    t.lookup (d.location start kind m.namespace (fileName m.name)) = none := by
  rw [← Option.not_isSome_iff_eq_none]
  intro hsome
  obtain ⟨m', hm', hkind', hns', hfile'⟩ := h.only _ _ _ (extension?_yaml (of_isName hname).1) hsome
  refine hnew m' hm' ?_
  rw [key?, key?, hkind, hkind', hns', fileName_inj hfile']

/-- A catalogue with a new resource is represented after its file was written. -/
theorem concat (h : Represents d start t c) {m : Manifest} {text : String} {t' : Tree}
    (hkind : m.groupKind? = some kind) (hname : isName m.name = true)
    (hns : isNamespace m.namespace = true) (hdecoded : Resource.decode d.registry text = .ok [m])
    (hnew : ∀ m' ∈ c, key? m' ≠ key? m)
    (hw : d.Written t t' kind m.namespace (fileName m.name) text) :
    Represents d start t' (c ++ [m]) := by
  have hyaml : extension? (fileName m.name) = some "yaml" := extension?_yaml (of_isName hname).1
  have hnames : ∀ s ∈ stepsTo kind m.namespace (fileName m.name), IsEntryName s :=
    isEntryName_stepsTo (isEntryName_of_isNamespace hns) (isEntryName_fileName hname)
  obtain rfl := h.start_eq
  exact {
    sound := hw.sound h.sound
    start_eq := hw.start
    short := h.short
    way := fun x hx content hfile => by
      rw [hw.way x (by rw [visited_append]; exact List.mem_append_left _ hx)] at hfile
      cases hfile
    apart := h.apart
    files := fun x content hx hbase => by
      rcases hw.new x _ hx with hx | ⟨he, -⟩ | ⟨-, hx⟩
      · exact h.files x content hx hbase
      · cases he
      · exact ⟨_, _, _, hyaml, hx⟩
    kept := fun m' hm' => by
      rcases List.mem_append.1 hm' with hm' | hm'
      · obtain ⟨kind', text', hk⟩ := h.kept m' hm'
        exact ⟨kind', text', hk.mono hw.kept⟩
      · obtain rfl := List.mem_singleton.1 hm'
        exact ⟨kind, text, hkind, hname, hns, hdecoded, hw.short, hw.way, hw.content⟩
    only := fun kind' ns' file' hyaml' hsome => by
      obtain ⟨e, he⟩ := Option.isSome_iff_exists.1 hsome
      rcases hw.new _ e he with he | ⟨-, hx⟩ | ⟨-, hx⟩
      · obtain ⟨m', hm', hat⟩ := h.only kind' ns' file' hyaml' (by rw [he]; rfl)
        exact ⟨m', List.mem_append_left _ hm', hat⟩
      · -- A directory on the way to the new file is not where a resource would be.
        rcases Directory.mem_visited_cases hnames hx with hx | ⟨below, hbelow, hlt⟩
        · exact absurd rfl (h.apart _ hx kind' ns' file' hyaml')
        · have hlength := congrArg List.length hbelow
          rw [Directory.length_location, List.length_append] at hlength
          simp only [stepsTo, List.length_cons, List.length_nil] at hlt
          omega
      · obtain ⟨rfl, rfl, rfl⟩ := Directory.location_inj hx
        exact ⟨m, List.mem_append_right _ (List.mem_singleton_self m), hkind, rfl, rfl⟩
    distinct := by
      rw [List.pairwise_append]
      refine ⟨h.distinct, List.pairwise_singleton _ _, fun m' hm' m'' hm'' => ?_⟩
      rw [List.mem_singleton.1 hm'']
      exact hnew m' hm' }

/-- The file of a new resource is written, or else cannot be written. -/
theorem write_cases [Regex.Limits] (h : Represents d start t c) (hr : d.registry = GroupKind.all)
    {m : Manifest} {text : String} (hm : m.Obtained) (ht : Yaml.readAll text = [some m.toValue])
    (hkind : m.groupKind? = some kind) (hk : Key.check ⟨kind, m.namespace, m.name⟩ = .ok ())
    (hnew : ∀ m' ∈ c, key? m' ≠ key? m) :
    (∃ t', Directory.write t (d.objectPath kind m.namespace (fileName m.name)) text = .ok t' ∧
      Represents d start t' (c ++ [m])) ∨
    ∃ path, Directory.write t (d.objectPath kind m.namespace (fileName m.name)) text =
      .error (.write path) := by
  obtain ⟨hname, hns⟩ := Key.check_eq_ok_iff.1 hk
  cases hwrite : Directory.write t (d.objectPath kind m.namespace (fileName m.name)) text with
  | error fault =>
    obtain ⟨path, rfl⟩ := Directory.write_eq_error hwrite
    exact .inr ⟨path, rfl⟩
  | ok t' =>
    have hdecoded : Resource.decode d.registry text = .ok [m] :=
      hr ▸ Resource.Manifest.decode_of_readAll hm.fits hkind ht
    have hvacant := h.lookup_eq_none hkind hname hnew
    rw [← h.start_eq] at hvacant
    have hwritten := Directory.written_of_write (isEntryName_of_isNamespace hns)
      (isEntryName_fileName hname) hvacant hwrite
    exact .inl ⟨t', rfl, h.concat hkind hname hns hdecoded hnew hwritten⟩

/-- A resource is created in a store as in the catalogue, unless its file cannot be written. -/
theorem create_cases [Regex.Limits] (h : Represents d start t c) (hr : d.registry = GroupKind.all)
    {m : Manifest} (hm : m.Obtained)
    (hy : ∀ text, encodeOne? m = some text → Yaml.readAll text = [some m.toValue]) (dryRun : Bool) :
    (∃ fault, d.create t m dryRun = .error fault ∧ c.create m dryRun = .error fault) ∨
    (∃ outcome t' c', d.create t m dryRun = .ok (outcome, t') ∧
      c.create m dryRun = .ok (outcome, c') ∧ Represents d start t' c') ∨
    ∃ path, d.create t m dryRun = .error (.write path) := by
  cases hkind : m.groupKind? with
  | none =>
    refine .inl ⟨.unregistered m.apiVersion m.kind, ?_, ?_⟩
    · rw [Directory.create, hkind]
      rfl
    · rw [Catalogue.create, key?, hkind]
      rfl
  | some kind =>
    have hkey : key? m = some ⟨kind, m.namespace, m.name⟩ := by rw [key?, hkind]; rfl
    cases hk : Key.check ⟨kind, m.namespace, m.name⟩ with
    | error fault =>
      have hp : d.path kind m.namespace m.name = .error fault := Directory.path_of_refused hk
      refine .inl ⟨fault, ?_, ?_⟩
      · rw [Directory.create, hkind]
        dsimp only
        rw [hp]
        rfl
      · rw [Catalogue.create, hkey]
        dsimp only
        rw [hk]
        rfl
    | ok =>
      rw [Directory.create_eq hkind (Directory.path_of_check hk), Catalogue.create_eq hkey hk]
      rcases h.entry_cases _ hk with ⟨m', hfind, text, -, hentry, -⟩ | ⟨hfind, refusal, hentry⟩
      · rw [Tree.doesExist, hentry, hfind]
        exact .inr (.inl ⟨_, _, _, rfl, rfl, h⟩)
      · rw [Tree.doesExist, hentry, hfind]
        cases dryRun with
        | true => exact .inr (.inl ⟨_, _, _, rfl, rfl, h⟩)
        | false =>
          cases hencode : encodeOne? m with
          | none => exact .inl ⟨.encode, rfl, rfl⟩
          | some text =>
            have hnew : ∀ m' ∈ c, key? m' ≠ key? m := hkey ▸ Catalogue.resource?_eq_none_iff.1 hfind
            rcases h.write_cases hr hm (hy text hencode) hkind hk hnew with
              ⟨t', hwrite, hnext⟩ | ⟨path, hwrite⟩
            · refine .inr (.inl ⟨.created, t', c ++ [m], ?_, rfl, hnext⟩)
              simp [hwrite, Except.map, Except.isOk, Except.toBool]
            · refine .inr (.inr ⟨path, ?_⟩)
              simp [hwrite, Except.map, Except.isOk, Except.toBool]

/-- A store answers a request as the catalogue that it represents, and represents the catalogue after
it, unless a file cannot be written. -/
theorem perform [Regex.Limits] (h : Represents d start t c) (hr : d.registry = GroupKind.all)
    {op : Operation} (hm : ∀ m dryRun, op = .create m dryRun → m.Obtained)
    (hy : ∀ m dryRun, op = .create m dryRun →
      ∀ text, encodeOne? m = some text → Yaml.readAll text = [some m.toValue])
    (hw : ∀ path, (d.perform t op).1 ≠ .error (.write path)) :
    (d.perform t op).1 = (c.perform op).1 ∧
      Represents d start (d.perform t op).2 (c.perform op).2 := by
  cases op with
  | create m dryRun =>
    rw [Directory.perform] at hw ⊢
    rw [Catalogue.perform]
    rcases h.create_cases hr (hm m dryRun rfl) (hy m dryRun rfl) dryRun with
      ⟨fault, hd, hc⟩ | ⟨outcome, t', c', hd, hc, hnext⟩ | ⟨path, hd⟩
    · rw [hd, hc]
      exact ⟨rfl, h⟩
    · rw [hd, hc]
      exact ⟨rfl, hnext⟩
    · rw [hd] at hw
      exact absurd rfl (hw path)
  | get kind ns name =>
    rw [Directory.perform, Catalogue.perform, h.get_eq]
    exact ⟨rfl, h⟩
  | list kind ns =>
    rw [Directory.perform, Catalogue.perform, h.list_eq]
    exact ⟨rfl, h⟩

/-- A store answers requests as the catalogue that it represents, and represents a catalogue after them. -/
theorem replies_eq [Regex.Limits] (h : Represents d start t c) (hr : d.registry = GroupKind.all)
    {ops : List Operation} (hm : ∀ m dryRun, .create m dryRun ∈ ops → m.Obtained)
    (hy : ∀ m dryRun, .create m dryRun ∈ ops →
      ∀ text, encodeOne? m = some text → Yaml.readAll text = [some m.toValue])
    (hw : ∀ path, .error (.write path) ∉ d.replies t ops) :
    d.replies t ops = c.replies ops ∧ ∃ c', Represents d start (d.after t ops) c' := by
  induction ops generalizing t c with
  | nil => exact ⟨rfl, c, h⟩
  | cons op ops ih =>
    have hmem : ∀ m dryRun, op = .create m dryRun → .create m dryRun ∈ op :: ops :=
      fun _ _ he => he ▸ List.mem_cons_self ..
    have hfirst : ∀ path, (d.perform t op).1 ≠ .error (.write path) := fun path he =>
      hw path (he ▸ List.mem_cons_self ..)
    obtain ⟨hreply, hnext⟩ := h.perform hr (fun m dryRun he => hm m dryRun (hmem m dryRun he))
      (fun m dryRun he => hy m dryRun (hmem m dryRun he)) hfirst
    obtain ⟨hrest, hafter⟩ := ih hnext (fun m dryRun ho => hm m dryRun (List.mem_cons_of_mem _ ho))
      (fun m dryRun ho => hy m dryRun (List.mem_cons_of_mem _ ho))
      (fun path ho => hw path (List.mem_cons_of_mem _ ho))
    rw [Directory.replies, Catalogue.replies, hreply, hrest]
    exact ⟨rfl, hafter⟩

end Represents

/-! ### Every sequence of requests -/

/-- A store of all kinds, whose directory can be created and holds no files, answers requests as an empty
catalogue does. The resources come from streams or from conversions, and it is assumed that a text that
is printed is read as what was printed, and that files can be written. -/
theorem replies_eq_catalogue [Regex.Limits] {d : Directory} {t root : Tree} {ops : List Operation}
    (hregistry : d.registry = GroupKind.all) (hsound : t.Sound)
    (hroot : t.createDirectories d.root = .ok root) (hvacant : Vacant d root)
    (hobtained : ∀ m dryRun, .create m dryRun ∈ ops → m.Obtained)
    (hyaml : ∀ m dryRun, .create m dryRun ∈ ops →
      ∀ text, encodeOne? m = some text → Yaml.readAll text = [some m.toValue])
    (hwrite : ∀ path, .error (.write path) ∉ d.replies t ops) :
    d.replies t ops = Catalogue.replies [] ops :=
  ((Represents.of_vacant hsound hroot hvacant).replies_eq hregistry hobtained hyaml hwrite).1

/-- A store of all kinds in the working directory. -/
def exampleStore : Directory := ⟨⟨"store"⟩, GroupKind.all⟩

/-- A middleware of the default namespace, with blocks that are kept as they are. -/
def exampleMiddleware (blocks : List (String × Yaml.Value)) : Manifest :=
  .middlewareV3 {
    apiVersion := GroupKind.apiVersion ⟨.v3, .middleware⟩
    kind := "Middleware"
    metadata := { name := "api" }
    spec := { other := .ofEntries blocks } }

theorem exampleMiddleware_obtained [Regex.Limits] {blocks : List (String × Yaml.Value)} {text : String}
    (hl : Yaml.Leftover Resource.V3.MiddlewareSpec.known (.ofEntries blocks))
    (ht : Yaml.readAll text = [some (exampleMiddleware blocks).toValue]) :
    (exampleMiddleware blocks).Obtained := by
  have hfits : (exampleMiddleware blocks).Fits := by
    refine ⟨⟨nofun, nofun, nofun, hl⟩, fun k hk => ?_⟩
    cases hk
    exact Resource.lookup_all (Resource.groupOf_apiVersion _) rfl
  exact .decoded (Resource.Manifest.decode_of_readAll hfits rfl ht) (List.mem_singleton_self _)

/-- The text as which the middleware without blocks is stored. -/
def exampleText : String :=
  "apiVersion: traefik.io/v1alpha1\nkind: Middleware\nmetadata:\n  name: api\nspec: \x7b\x7d\n"

theorem encodeOne?_exampleMiddleware : encodeOne? (exampleMiddleware []) = some exampleText := by
  decide +kernel

theorem readAll_exampleText : Yaml.readAll exampleText = [some (exampleMiddleware []).toValue] := by
  decide +kernel

theorem vacant_exampleStore :
    Vacant exampleStore { entries := [(["store"], .directory)] } := by
  have hmem : ∀ l e, l ≠ [] → Tree.lookup { entries := [(["store"], .directory)] } l = some e →
      (l, e) = (["store"], .directory) := fun l e hl h => List.mem_singleton.1 (Tree.mem_of_lookup hl h)
  constructor
  · intro l content h
    have hl : l ≠ [] := by
      rintro rfl
      cases h
    cases hmem l _ hl h
  · intro kind ns file _
    rw [← Option.not_isSome_iff_eq_none]
    intro hsome
    obtain ⟨e, he⟩ := Option.isSome_iff_exists.1 hsome
    have hlength : ["store"].length = _ + 4 :=
      congrArg List.length (Prod.mk.inj (hmem _ e (by simp [Directory.location, stepsTo]) he)).1 ▸
        Directory.length_location
    simp at hlength

theorem sound_empty : Tree.Sound {} := ⟨List.nodup_nil, fun _ hl => absurd hl List.not_mem_nil⟩

/-- Requests around one middleware. -/
def exampleRequests : List Operation :=
  [.create (exampleMiddleware []) true, .create (exampleMiddleware []) false,
    .create (exampleMiddleware []) false, .get ⟨.v3, .middleware⟩ "default" "api",
    .list ⟨.v3, .middleware⟩ none]

theorem eq_of_create_mem {m : Manifest} {dryRun : Bool} (h : .create m dryRun ∈ exampleRequests) :
    m = exampleMiddleware [] := by
  simp only [exampleRequests, List.mem_cons, Operation.create.injEq, List.not_mem_nil, or_false,
    reduceCtorEq] at h
  rcases h with h | h | h <;> exact h.1

/-- Why a request failed. -/
def Reply.fault? : Reply → Option Fault
  | .error fault => some fault
  | .ok _ => none

/-- What became of a request to create a resource. -/
def Reply.outcome? : Reply → Option Outcome
  | .ok (.outcome outcome) => some outcome
  | _ => none

theorem write_notMem_exampleReplies (path : Path) :
    .error (.write path) ∉ exampleStore.replies {} exampleRequests := by
  intro hm
  have hfaults : (exampleStore.replies {} exampleRequests).filterMap Reply.fault? = [] := by
    decide +kernel
  have hfault : .write path ∈ (exampleStore.replies {} exampleRequests).filterMap Reply.fault? :=
    List.mem_filterMap.2 ⟨_, hm, rfl⟩
  rw [hfaults] at hfault
  exact List.not_mem_nil hfault

/-- A middleware is created once, and is found and listed afterwards. -/
theorem replies_eq_catalogue_middleware : exampleStore.replies {} exampleRequests =
    [.ok (.outcome .created), .ok (.outcome .created), .ok (.outcome .alreadyExists),
      .ok (.resource (exampleMiddleware [])), .ok (.resources [exampleMiddleware []])] := by
  have hobtained : (exampleMiddleware []).Obtained :=
    exampleMiddleware_obtained (fun _ he => absurd he List.not_mem_nil) readAll_exampleText
  have hyaml : ∀ text, encodeOne? (exampleMiddleware []) = some text →
      Yaml.readAll text = [some (exampleMiddleware []).toValue] := by
    intro text htext
    rw [encodeOne?_exampleMiddleware] at htext
    cases htext
    exact readAll_exampleText
  have hcatalogue : exampleStore.replies {} exampleRequests = Catalogue.replies [] exampleRequests :=
    replies_eq_catalogue rfl sound_empty rfl vacant_exampleStore
      (fun m dryRun hm => eq_of_create_mem hm ▸ hobtained)
      (fun m dryRun hm => eq_of_create_mem hm ▸ hyaml) write_notMem_exampleReplies
  have hkey : key? (exampleMiddleware []) = some ⟨⟨.v3, .middleware⟩, "default", "api"⟩ := rfl
  have hkind : (exampleMiddleware []).groupKind? = some ⟨.v3, .middleware⟩ := rfl
  have hcheck : Key.check ⟨⟨.v3, .middleware⟩, "default", "api"⟩ = .ok () :=
    Key.check_eq_ok_iff.2 ⟨by decide, by decide⟩
  rw [hcatalogue]
  simp [exampleRequests, Catalogue.replies, Catalogue.perform, Catalogue.create, Catalogue.get,
    Catalogue.list, Catalogue.all, Catalogue.resource?, hkey, hkind, hcheck,
    encodeOne?_exampleMiddleware, pure, Except.pure, bind, Except.bind, Except.map]

/-- A block with a mapping as a key, which cannot be written. -/
def exampleBlock : String × Yaml.Value :=
  ("retry", .mapping [(.mapping [(.text "a", .int 1)], .int 2)])

/-- A text of the middleware with the block. -/
def exampleBlockText : String :=
  "apiVersion: traefik.io/v1alpha1\nkind: Middleware\nmetadata: \x7bname: api\x7d\n" ++
    "spec: \x7bretry: \x7b? \x7ba: 1\x7d : 2\x7d\x7d\n"

/-- A tree with a directory in the place of the file of the middleware. -/
def exampleTree : Tree where
  entries := [(["store"], .directory), (["store", "traefik.io"], .directory),
    (["store", "traefik.io", "Middleware"], .directory),
    (["store", "traefik.io", "Middleware", "default"], .directory),
    (["store", "traefik.io", "Middleware", "default", "api.yaml"], .directory)]

/-- A key with an invalid namespace is refused and not looked for, a resource that cannot be written is
refused and not created, and a directory in the place of a file counts as the resource. -/
theorem replies_ne_map :
    exampleStore.replies {} [.get ⟨.v3, .middleware⟩ "Apps" "api"] ≠
      [.error (.notFound ⟨.v3, .middleware⟩ "Apps" "api")] ∧
    (exampleMiddleware [exampleBlock]).Obtained ∧
    exampleStore.replies {} [.create (exampleMiddleware [exampleBlock]) false] ≠
      [.ok (.outcome .created)] ∧
    exampleStore.replies exampleTree [.create (exampleMiddleware []) true] ≠
      [.ok (.outcome .created)] := by
  have hblock : Yaml.readAll exampleBlockText = [some (exampleMiddleware [exampleBlock]).toValue] := by
    decide +kernel
  have hleftover : Yaml.Leftover Resource.V3.MiddlewareSpec.known (.ofEntries [exampleBlock]) := by
    unfold Yaml.Leftover
    decide +kernel
  have hget : (exampleStore.replies {} [.get ⟨.v3, .middleware⟩ "Apps" "api"]).filterMap Reply.fault? =
      [.badName .namespace "Apps"] := by
    decide +kernel
  have hcreate : (exampleStore.replies {} [.create (exampleMiddleware [exampleBlock]) false]).filterMap
      Reply.fault? = [.encode] := by
    decide +kernel
  have hdirectory : (exampleStore.replies exampleTree [.create (exampleMiddleware []) true]).filterMap
      Reply.outcome? = [.alreadyExists] := by
    decide +kernel
  refine ⟨fun h => ?_, exampleMiddleware_obtained hleftover hblock, fun h => ?_, fun h => ?_⟩
  · rw [h] at hget
    cases hget
  · rw [h] at hcreate
    cases hcreate
  · rw [h] at hdirectory
    cases hdirectory

end TraefikUpgrade.Store
