/-
# Migrating a store

The selected resources of version 2 are converted and created as resources of version 3. Those that are
there already are left as they are, and a resource that cannot be converted does not stop the others.

Key definitions: `Request`, `Report`, `select`, `migrateOne`, `migrate`.
-/
import TraefikUpgrade.Conversion.Batch
import TraefikUpgrade.Conversion.RemovedOption
import TraefikUpgrade.Store.Directory

namespace TraefikUpgrade.Store

open FileSystem (Tree)
open Resource (GroupKind Manifest ResourceType)

variable [Regex.Limits]

/-- The name of a type of resources in a request. -/
def typeName : ResourceType → String
  | .ingressRoute => "ingressroute"
  | .middleware => "middleware"

/-- What to migrate. -/
structure Request where
  type : ResourceType
  /-- The only resource to migrate, if there is to be only one. -/
  name : Option String := none
  /-- The only namespace from which resources are migrated, if there is to be only one. -/
  «namespace» : Option String := none
  dryRun : Bool := false
  /-- Whether middlewares that set a removed option are left out. -/
  skipDeprecated : Bool := false
deriving DecidableEq, Repr

/-- What became of the selected resources. Each is named by its namespace and name. -/
structure Report where
  created : List String := []
  alreadyExists : List String := []
  skipped : List String := []
  failures : List Conversion.Failure := []
deriving DecidableEq, Repr

def Report.isSuccess (r : Report) : Bool := r.failures.isEmpty

/-- The resources that a request selects. A single one is looked for in the default namespace, if no
other is given. -/
def select (d : Directory) (t : Tree) (r : Request) : Except Fault (List Manifest) :=
  let kind : GroupKind := ⟨.v2, r.type⟩
  match r.name with
  | some name => (d.get t kind (r.namespace.getD Resource.defaultNamespace) name).map ([·])
  | none => d.list t kind r.namespace

/-- The namespace and the name. -/
def identity (m : Manifest) : String := m.namespace ++ "/" ++ m.name

/-- Whether a resource is a middleware that sets a removed option. -/
def setsRemovedOption : Manifest → Bool
  | .middlewareV2 m => Conversion.hasRemovedOptions m.spec
  | _ => false

/-- What became of one resource. -/
inductive Step where
  | created
  | alreadyExists
  | skipped
  | failed (failure : Conversion.Failure)
deriving DecidableEq, Repr

/-- Migrates one resource. -/
def migrateOne (d : Directory) (options : Conversion.Options) (r : Request) (t : Tree)
    (m : Manifest) : Except Fault (Step × Tree) :=
  if r.skipDeprecated && setsRemovedOption m then .ok (.skipped, t)
  else
    match Conversion.convert options m with
    | .error failure => .ok (.failed failure, t)
    | .ok converted =>
      match d.create t converted r.dryRun with
      | .error fault => .error fault
      | .ok (.created, t) => .ok (.created, t)
      | .ok (.alreadyExists, t) => .ok (.alreadyExists, t)

/-- Puts what became of a resource in front of a report. -/
def Report.cons (m : Manifest) (step : Step) (r : Report) : Report :=
  match step with
  | .created => { r with created := identity m :: r.created }
  | .alreadyExists => { r with alreadyExists := identity m :: r.alreadyExists }
  | .skipped => { r with skipped := identity m :: r.skipped }
  | .failed failure => { r with failures := failure :: r.failures }

/-- Migrates resources in their order. A request to the store that fails ends the run; what was created
before stays. -/
def migrateEach (d : Directory) (options : Conversion.Options) (r : Request) (t : Tree) :
    List Manifest → Except Fault Report × Tree
  | [] => (.ok {}, t)
  | m :: ms =>
    match migrateOne d options r t m with
    | .error fault => (.error fault, t)
    | .ok (step, t) =>
      let (report, t) := migrateEach d options r t ms
      (report.map (·.cons m step), t)

/-- Migrates the resources that a request selects. -/
def migrate (d : Directory) (options : Conversion.Options) (r : Request) (t : Tree) :
    Except Fault Report × Tree :=
  match select d t r with
  | .error fault => (.error fault, t)
  | .ok ms => migrateEach d options r t ms

end TraefikUpgrade.Store
