/-
# Catalogues of resources

What a store answers, without files and paths: a catalogue holds the resources that were created, the
first one first, and a resource is found by its kind, its namespace and its name. Nothing is ever taken
out of a catalogue or replaced in it. Resources are listed in the order of their namespaces, and in a
namespace in the order of their files' names; there is only one such list (`Listing.eq`).

Key definitions: `Operation`, `Directory.replies`, `Key`, `Catalogue`, `Catalogue.replies`, `Listing`.
Key theorems: `Listing.eq`, `Catalogue.listing_all`.
-/
import TraefikUpgrade.Proofs.Store.Locations

namespace TraefikUpgrade.Store

open FileSystem (Tree)
open Resource (GroupKind Manifest encodeOne?)

/-! ### Requests -/

/-- What is asked of a store. -/
inductive Operation where
  | create (m : Manifest) (dryRun : Bool)
  | get (kind : GroupKind) («namespace» name : String)
  | list (kind : GroupKind) («namespace» : Option String)

/-- What a store answers to a request that does not fail. -/
inductive Answer where
  | outcome (outcome : Outcome)
  | resource (m : Manifest)
  | resources (ms : List Manifest)

abbrev Reply := Except Fault Answer

namespace Directory

/-- The reply of a store, and the tree that it leaves: a request that fails leaves it as it was. -/
def perform (d : Directory) (t : Tree) : Operation → Reply × Tree
  | .create m dryRun =>
    match d.create t m dryRun with
    | .ok (outcome, t) => (.ok (.outcome outcome), t)
    | .error fault => (.error fault, t)
  | .get kind ns name => ((d.get t kind ns name).map .resource, t)
  | .list kind ns => ((d.list t kind ns).map .resources, t)

/-- The replies to requests, one after the other. -/
def replies (d : Directory) : Tree → List Operation → List Reply
  | _, [] => []
  | t, op :: ops => (d.perform t op).1 :: d.replies (d.perform t op).2 ops

/-- What a store holds after requests. -/
def after (d : Directory) : Tree → List Operation → Tree
  | t, [] => t
  | t, op :: ops => d.after (d.perform t op).2 ops

end Directory

/-! ### The catalogue -/

/-- By what a resource is found. -/
structure Key where
  kind : GroupKind
  «namespace» : String
  name : String
deriving DecidableEq, Repr

/-- Refuses a key unless its name and its namespace are valid. -/
def Key.check (k : Key) : Except Fault Unit :=
  if isName k.name then
    if isNamespace k.namespace then .ok () else .error (.badName .namespace k.namespace)
  else .error (.badName .name k.name)

/-- The key of a resource of a registered kind. -/
def key? (m : Manifest) : Option Key := m.groupKind?.map fun kind => ⟨kind, m.namespace, m.name⟩

/-- Whether a resource is listed before another one, or is in its place. -/
def precedes (m m' : Manifest) : Bool :=
  decide (m.namespace < m'.namespace ∨
    m.namespace = m'.namespace ∧ fileName m.name ≤ fileName m'.name)

/-- The resources that were created, the first one first. -/
abbrev Catalogue := List Manifest

namespace Catalogue

/-- The first resource of a key. -/
def resource? (c : Catalogue) (k : Key) : Option Manifest := List.find? (fun m => key? m == some k) c

/-- Creates a resource, unless it is there. In a dry run it is not kept; one that cannot be written is
refused. -/
def create (c : Catalogue) (m : Manifest) (dryRun : Bool) : Except Fault (Outcome × Catalogue) := do
  match key? m with
  | none => throw (.unregistered m.apiVersion m.kind)
  | some k =>
    k.check
    if (c.resource? k).isSome then return (.alreadyExists, c)
    else if dryRun then return (.created, c)
    else if (encodeOne? m).isSome then return (.created, c ++ [m])
    else throw .encode

def get (c : Catalogue) (k : Key) : Except Fault Manifest := do
  k.check
  match c.resource? k with
  | some m => return m
  | none => throw (.notFound k.kind k.namespace k.name)

/-- The resources of a kind, in order. -/
def all (c : Catalogue) (kind : GroupKind) : List Manifest :=
  (List.filter (fun m => m.groupKind? == some kind) c).mergeSort precedes

def list (c : Catalogue) (kind : GroupKind) : Option String → Except Fault (List Manifest)
  | none => .ok (c.all kind)
  | some ns =>
    if isNamespace ns then .ok ((c.all kind).filter fun m => m.namespace == ns)
    else .error (.badName .namespace ns)

/-- The reply of a catalogue, and the catalogue after it. -/
def perform (c : Catalogue) : Operation → Reply × Catalogue
  | .create m dryRun =>
    match c.create m dryRun with
    | .ok (outcome, c) => (.ok (.outcome outcome), c)
    | .error fault => (.error fault, c)
  | .get kind ns name => ((c.get ⟨kind, ns, name⟩).map .resource, c)
  | .list kind ns => ((c.list kind ns).map .resources, c)

def replies : Catalogue → List Operation → List Reply
  | _, [] => []
  | c, op :: ops => (c.perform op).1 :: replies (c.perform op).2 ops

end Catalogue

/-! ### Keys -/

theorem Key.check_eq_ok_iff {k : Key} :
    k.check = .ok () ↔ isName k.name = true ∧ isNamespace k.namespace = true := by
  unfold check
  split
  · next hname =>
    split
    · next hns => exact ⟨fun _ => ⟨hname, hns⟩, fun _ => rfl⟩
    · next hns => exact ⟨nofun, fun h => absurd h.2 hns⟩
  · next hname => exact ⟨nofun, fun h => absurd h.1 hname⟩

theorem key?_eq_some_iff {m : Manifest} {k : Key} : key? m = some k ↔
    m.groupKind? = some k.kind ∧ m.namespace = k.namespace ∧ m.name = k.name := by
  rw [key?, Option.map_eq_some_iff]
  constructor
  · rintro ⟨kind, hkind, rfl⟩
    exact ⟨hkind, rfl, rfl⟩
  · rintro ⟨hkind, hns, hname⟩
    refine ⟨k.kind, hkind, ?_⟩
    rw [hns, hname]

namespace Catalogue

variable {c : Catalogue} {k : Key} {m : Manifest}

theorem of_resource?_eq_some (h : c.resource? k = some m) : m ∈ c ∧ key? m = some k :=
  ⟨List.mem_of_find?_eq_some h, by simpa using List.find?_some h⟩

theorem resource?_eq_none_iff : c.resource? k = none ↔ ∀ m ∈ c, key? m ≠ some k := by
  simp [resource?, List.find?_eq_none]

end Catalogue

/-! ### Listings -/

theorem precedes_iff {m m' : Manifest} : precedes m m' = true ↔ m.namespace < m'.namespace ∨
    m.namespace = m'.namespace ∧ fileName m.name ≤ fileName m'.name :=
  decide_eq_true_iff

theorem precedes_trans (m₁ m₂ m₃ : Manifest) (h : precedes m₁ m₂ = true) (h' : precedes m₂ m₃ = true) :
    precedes m₁ m₃ = true := by
  rw [precedes_iff] at h h' ⊢
  rcases h with h | ⟨hns, hfile⟩
  · rcases h' with h' | ⟨hns', -⟩
    · exact .inl (String.lt_trans h h')
    · exact .inl (hns' ▸ h)
  · rcases h' with h' | ⟨hns', hfile'⟩
    · exact .inl (hns ▸ h')
    · exact .inr ⟨hns.trans hns', String.le_trans hfile hfile'⟩

theorem precedes_total (m m' : Manifest) : (precedes m m' || precedes m' m) = true := by
  rw [Bool.or_eq_true, precedes_iff, precedes_iff]
  by_cases hlt : m.namespace < m'.namespace
  · exact .inl (.inl hlt)
  · by_cases heq : m.namespace = m'.namespace
    · exact (String.le_total (fileName m.name) (fileName m'.name)).imp (fun h => .inr ⟨heq, h⟩)
        fun h => .inr ⟨heq.symm, h⟩
    · exact .inr (.inl (Std.lt_of_le_of_ne (Std.not_lt.1 hlt) (Ne.symm heq)))

theorem eq_of_precedes {m m' : Manifest} (h : precedes m m' = true) (h' : precedes m' m = true) :
    m.namespace = m'.namespace ∧ m.name = m'.name := by
  rw [precedes_iff] at h h'
  rcases h with h | ⟨hns, hfile⟩
  · rcases h' with h' | ⟨hns', -⟩
    · exact absurd (String.lt_trans h h') (String.lt_irrefl _)
    · exact absurd (hns' ▸ h) (String.lt_irrefl _)
  · rcases h' with h' | ⟨-, hfile'⟩
    · exact absurd (hns ▸ h') (String.lt_irrefl _)
    · exact ⟨hns, fileName_inj (String.le_antisymm hfile hfile')⟩

/-- A list of the resources that satisfy `P`, each once and in order. -/
structure Listing (P : Manifest → Prop) (ms : List Manifest) : Prop where
  sorted : ms.Pairwise fun m m' => precedes m m' = true
  nodup : ms.Nodup
  mem : ∀ m, m ∈ ms ↔ P m

namespace Listing

variable {P Q : Manifest → Prop} {ms ms' : List Manifest}

theorem congr (h : Listing P ms) (hPQ : ∀ m, P m ↔ Q m) : Listing Q ms :=
  ⟨h.sorted, h.nodup, fun m => (h.mem m).trans (hPQ m)⟩

/-- There is only one listing of resources with different names. -/
theorem eq (h : Listing P ms) (h' : Listing P ms')
    (hP : ∀ m m', P m → P m' → m.namespace = m'.namespace → m.name = m'.name → m = m') : ms = ms' := by
  have hperm : ms.Perm ms' := (List.perm_ext_iff_of_nodup h.nodup h'.nodup).2 fun m =>
    (h.mem m).trans (h'.mem m).symm
  refine hperm.eq_of_pairwise (fun m m' hm hm' hle hle' => ?_) h.sorted h'.sorted
  obtain ⟨hns, hname⟩ := eq_of_precedes hle hle'
  exact hP m m' ((h.mem m).1 hm) ((h'.mem m').1 hm') hns hname

theorem filter (h : Listing P ms) (p : Manifest → Bool) :
    Listing (fun m => P m ∧ p m = true) (ms.filter p) where
  sorted := h.sorted.filter p
  nodup := h.nodup.filter p
  mem m := by rw [List.mem_filter, h.mem]

/-- Listings for namespaces in order are, one after the other, a listing for all of them. -/
theorem flatten {list : String → Except Fault (List Manifest)} {nss : List String}
    (hnss : nss.Pairwise (· < ·))
    (hlist : ∀ ns ∈ nss, ∃ ms, list ns = .ok ms ∧ Listing (fun m => P m ∧ m.namespace = ns) ms) :
    ∃ mss, nss.mapM list = .ok mss ∧ Listing (fun m => P m ∧ m.namespace ∈ nss) mss.flatten := by
  induction nss with
  | nil => exact ⟨[], rfl, .nil, .nil, fun m => by simp⟩
  | cons ns nss ih =>
    rw [List.pairwise_cons] at hnss
    rw [List.forall_mem_cons] at hlist
    obtain ⟨⟨ms, hms, hfirst⟩, hlist⟩ := hlist
    obtain ⟨mss, hmss, hrest⟩ := ih hnss.2 hlist
    have hlt : ∀ m ∈ ms, ∀ m' ∈ mss.flatten, m.namespace < m'.namespace := by
      intro m hm m' hm'
      rw [((hfirst.mem m).1 hm).2]
      exact hnss.1 _ ((hrest.mem m').1 hm').2
    refine ⟨ms :: mss, by rw [List.mapM_cons, hms, hmss]; rfl, ?_, ?_, fun m => ?_⟩
    · rw [List.flatten_cons, List.pairwise_append]
      exact ⟨hfirst.sorted, hrest.sorted, fun m hm m' hm' => precedes_iff.2 (.inl (hlt m hm m' hm'))⟩
    · rw [List.flatten_cons, List.nodup_append]
      refine ⟨hfirst.nodup, hrest.nodup, fun m hm m' hm' he => ?_⟩
      subst he
      exact String.lt_irrefl _ (hlt m hm m hm')
    · rw [List.flatten_cons, List.mem_append, hfirst.mem, hrest.mem, List.mem_cons, and_or_left]

end Listing

theorem Catalogue.listing_all {c : Catalogue} (hc : List.Nodup c) (kind : GroupKind) :
    Listing (fun m => m ∈ c ∧ m.groupKind? = some kind) (c.all kind) where
  sorted := List.pairwise_mergeSort precedes_trans precedes_total _
  nodup := (List.mergeSort_perm _ _).nodup_iff.2 (hc.filter _)
  mem m := by
    rw [Catalogue.all, (List.mergeSort_perm _ _).mem_iff, List.mem_filter, beq_iff_eq]

end TraefikUpgrade.Store
