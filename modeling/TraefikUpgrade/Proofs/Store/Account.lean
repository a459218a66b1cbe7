/-
# The account of a migration

A migration takes the resources that it selects one after the other, and something becomes of each of
them (`Taken`): it is left out, it cannot be converted, it is there already, or it is created. The list of
the resources with what became of each is the account of the migration (`account`). A report that a
migration gives is drawn up from its account (`migrate_report`). What was made are the resources of version
3 to which the created ones were converted (`made`).

Key definitions: `Storable`, `Taken`, `account`, `made`, `Report.ofSteps`.
Key theorems: `migrateOne_eq_ok_iff`, `Storable.of_convert`, `run_induction`, `migrate_report`,
`of_mem_account`, `storable_of_mem_made`.
-/
import TraefikUpgrade.Proofs.Store.Refinement
import TraefikUpgrade.Store.Migration

namespace TraefikUpgrade.Store

open FileSystem (Path Tree)
open Resource (GroupKind Manifest ResourceType encodeOne?)

/-- What becomes of a resource by the outcome of the request to create it. -/
def Outcome.step : Outcome → Step
  | .created => .created
  | .alreadyExists => .alreadyExists

variable {d : Directory} {options : Conversion.Options} {r : Request} {t t' : Tree} {m m' : Manifest}
  {step : Step} {kind : GroupKind}

/-! ### Resources that a store takes -/

/-- A resource of a registered kind, with names that a store takes. -/
structure Storable (m : Manifest) (kind : GroupKind) : Prop where
  groupKind : m.groupKind? = some kind
  name : isName m.name = true
  «namespace» : isNamespace m.namespace = true

/-- The path of a resource of a kind. -/
def Directory.pathOf (d : Directory) (kind : GroupKind) (m : Manifest) : Path :=
  d.objectPath kind m.namespace (fileName m.name)

theorem Storable.path_eq (h : Storable m kind) :
    d.path kind m.namespace m.name = .ok (d.pathOf kind m) := by
  rw [Directory.path_eq, if_pos h.name, if_pos h.namespace]
  rfl

theorem Storable.create_eq {dryRun : Bool} (h : Storable m kind) : d.create t m dryRun =
    if t.doesExist (d.pathOf kind m) then .ok (.alreadyExists, t)
    else if dryRun then .ok (.created, t)
    else match encodeOne? m with
      | none => .error .encode
      | some content => (Directory.write t (d.pathOf kind m) content).map (Outcome.created, ·) :=
  Directory.create_eq h.groupKind h.path_eq

/-- A request to create a resource that does not fail is about one that can be stored. -/
theorem storable_of_create {dryRun : Bool} {result : Outcome × Tree}
    (h : d.create t m dryRun = .ok result) : ∃ kind, Storable m kind := by
  unfold Directory.create at h
  cases hkind : m.groupKind? with
  | none => rw [hkind] at h; cases h
  | some kind =>
    rw [hkind] at h
    dsimp only at h
    rw [Directory.path_eq] at h
    by_cases hname : isName m.name = true
    · by_cases hns : isNamespace m.namespace = true
      · exact ⟨kind, hkind, hname, hns⟩
      · rw [if_pos hname, if_neg hns] at h
        cases h
    · rw [if_neg hname] at h
      cases h

variable [Regex.Limits]

/-- A conversion keeps the names of a resource and its type, and gives a resource of version 3. -/
theorem Storable.of_convert (hm' : Storable m' kind) (h : Conversion.convert options m = .ok m') :
    m'.namespace = m.namespace ∧ m'.name = m.name ∧ kind.group = .v3 ∧
      ∃ group, m.groupKind? = some ⟨group, kind.type⟩ := by
  have hkind := hm'.groupKind
  cases m with
  | ingressRouteV2 o =>
    rw [Conversion.convert] at h
    cases ho : Conversion.ingressRoute options o with
    | error cause => rw [ho] at h; cases h
    | ok o' =>
      rw [ho] at h
      cases h
      cases hkind
      unfold Conversion.ingressRoute at ho
      cases hroutes : o.spec.routes.mapM (Conversion.route options.keepSyntax) with
      | error cause => rw [hroutes] at ho; cases ho
      | ok routes =>
        rw [hroutes] at ho
        cases ho
        exact ⟨rfl, rfl, rfl, .v2, rfl⟩
  | middlewareV2 o =>
    cases h
    cases hkind
    exact ⟨rfl, rfl, rfl, .v2, rfl⟩
  | ingressRouteV3 o =>
    cases h
    cases hkind
    exact ⟨rfl, rfl, rfl, .v3, rfl⟩
  | middlewareV3 o =>
    cases h
    cases hkind
    exact ⟨rfl, rfl, rfl, .v3, rfl⟩
  | untyped v =>
    cases h
    cases hkind

/-! ### What becomes of one resource -/

/-- What becomes of one resource, and the tree after it, if no request to the store fails. -/
inductive Taken (d : Directory) (options : Conversion.Options) (r : Request) (t : Tree)
    (m : Manifest) : Step → Tree → Prop
  | skipped (hout : (r.skipDeprecated && setsRemovedOption m) = true) : Taken d options r t m .skipped t
  | failed {failure : Conversion.Failure} (hin : (r.skipDeprecated && setsRemovedOption m) = false)
      (hconvert : Conversion.convert options m = .error failure) :
      Taken d options r t m (.failed failure) t
  | alreadyExists {m' : Manifest} {kind : GroupKind}
      (hin : (r.skipDeprecated && setsRemovedOption m) = false)
      (hconvert : Conversion.convert options m = .ok m') (hm' : Storable m' kind)
      (hthere : t.doesExist (d.pathOf kind m') = true) : Taken d options r t m .alreadyExists t
  | planned {m' : Manifest} {kind : GroupKind}
      (hin : (r.skipDeprecated && setsRemovedOption m) = false)
      (hconvert : Conversion.convert options m = .ok m') (hm' : Storable m' kind)
      (hnew : t.doesExist (d.pathOf kind m') = false) (hdry : r.dryRun = true) :
      Taken d options r t m .created t
  | written {m' : Manifest} {kind : GroupKind} {text : String} {t' : Tree}
      (hin : (r.skipDeprecated && setsRemovedOption m) = false)
      (hconvert : Conversion.convert options m = .ok m') (hm' : Storable m' kind)
      (hnew : t.doesExist (d.pathOf kind m') = false) (hdry : r.dryRun = false)
      (hencode : encodeOne? m' = some text)
      (hwrite : Directory.write t (d.pathOf kind m') text = .ok t') : Taken d options r t m .created t'

theorem migrateOne_of_convert (hin : (r.skipDeprecated && setsRemovedOption m) = false)
    (hconvert : Conversion.convert options m = .ok m') : migrateOne d options r t m =
      (d.create t m' r.dryRun).map fun result => (result.1.step, result.2) := by
  simp only [migrateOne, hin, Bool.false_eq_true, if_false, hconvert]
  cases d.create t m' r.dryRun with
  | error fault => rfl
  | ok result =>
    obtain ⟨outcome, t'⟩ := result
    cases outcome <;> rfl

/-- A resource that is created was not there; in a dry run nothing is written. -/
theorem taken_of_create {outcome : Outcome}
    (hin : (r.skipDeprecated && setsRemovedOption m) = false)
    (hconvert : Conversion.convert options m = .ok m')
    (h : d.create t m' r.dryRun = .ok (outcome, t')) : Taken d options r t m outcome.step t' := by
  obtain ⟨kind, hm'⟩ := storable_of_create h
  rw [hm'.create_eq] at h
  by_cases hthere : t.doesExist (d.pathOf kind m') = true
  · rw [if_pos hthere] at h
    cases h
    exact .alreadyExists hin hconvert hm' hthere
  · rw [if_neg hthere] at h
    rw [Bool.not_eq_true] at hthere
    by_cases hdry : r.dryRun = true
    · rw [if_pos hdry] at h
      cases h
      exact .planned hin hconvert hm' hthere hdry
    · rw [if_neg hdry] at h
      cases hencode : encodeOne? m' with
      | none => rw [hencode] at h; cases h
      | some text =>
        rw [hencode] at h
        cases hwrite : Directory.write t (d.pathOf kind m') text with
        | error fault => simp [hwrite, Except.map] at h
        | ok t₁ =>
          simp only [hwrite, Except.map, Except.ok.injEq, Prod.mk.injEq] at h
          obtain ⟨rfl, rfl⟩ := h
          exact .written hin hconvert hm' hthere (by simpa using hdry) hencode hwrite

theorem migrateOne_eq_ok_iff :
    migrateOne d options r t m = .ok (step, t') ↔ Taken d options r t m step t' := by
  constructor
  · intro h
    by_cases hout : (r.skipDeprecated && setsRemovedOption m) = true
    · rw [migrateOne, if_pos hout] at h
      cases h
      exact .skipped hout
    · rw [Bool.not_eq_true] at hout
      cases hconvert : Conversion.convert options m with
      | error failure =>
        simp only [migrateOne, hout, Bool.false_eq_true, if_false, hconvert] at h
        cases h
        exact .failed hout hconvert
      | ok m' =>
        rw [migrateOne_of_convert hout hconvert] at h
        cases hcreate : d.create t m' r.dryRun with
        | error fault => rw [hcreate] at h; cases h
        | ok result =>
          rw [hcreate] at h
          cases h
          exact taken_of_create hout hconvert hcreate
  · intro h
    cases h with
    | skipped hout => rw [migrateOne, if_pos hout]
    | failed hin hconvert => simp [migrateOne, hin, hconvert]
    | alreadyExists hin hconvert hm' hthere =>
      rw [migrateOne_of_convert hin hconvert, hm'.create_eq, if_pos hthere]
      rfl
    | planned hin hconvert hm' hnew hdry =>
      rw [migrateOne_of_convert hin hconvert, hm'.create_eq, hnew, hdry]
      rfl
    | written hin hconvert hm' hnew hdry hencode hwrite =>
      rw [migrateOne_of_convert hin hconvert, hm'.create_eq, hnew, hdry, hencode]
      simp [hwrite, Except.map, Outcome.step]

/-! ### The account -/

/-- Resources that are migrated in their order, each with what became of it. The list ends before the
first one for which a request to the store fails. -/
def trace (d : Directory) (options : Conversion.Options) (r : Request) :
    Tree → List Manifest → List (Manifest × Step)
  | _, [] => []
  | t, m :: ms =>
    match migrateOne d options r t m with
    | .error _ => []
    | .ok (step, t) => (m, step) :: trace d options r t ms

/-- The selected resources, each with what became of it. -/
def account (d : Directory) (options : Conversion.Options) (r : Request) (t : Tree) :
    List (Manifest × Step) :=
  match select d t r with
  | .error _ => []
  | .ok ms => trace d options r t ms

/-- What a resource was converted to, if it was created. -/
def madeOf? (options : Conversion.Options) : Manifest × Step → Option Manifest
  | (m, .created) => (Conversion.convert options m).toOption
  | _ => none

/-- The resources that were created. -/
def made (options : Conversion.Options) (taken : List (Manifest × Step)) : List Manifest :=
  taken.filterMap (madeOf? options)

/-- The names of the resources of which a certain thing became, in their order. -/
def listed (p : Step → Bool) (taken : List (Manifest × Step)) : List String :=
  (taken.filter fun entry => p entry.2).map fun entry => identity entry.1

def Step.failure? : Step → Option Conversion.Failure
  | .failed failure => some failure
  | _ => none

/-- The report that is drawn up from an account. -/
def Report.ofSteps (taken : List (Manifest × Step)) : Report where
  created := listed (· == .created) taken
  alreadyExists := listed (· == .alreadyExists) taken
  skipped := listed (· == .skipped) taken
  failures := taken.filterMap fun entry => entry.2.failure?

/-- How many resources a report is about. -/
def Report.size (report : Report) : Nat :=
  report.created.length + report.alreadyExists.length + report.skipped.length +
    report.failures.length

omit [Regex.Limits] in
theorem Report.ofSteps_cons (taken : List (Manifest × Step)) :
    Report.ofSteps ((m, step) :: taken) = (Report.ofSteps taken).cons m step := by
  cases step <;> rfl

omit [Regex.Limits] in
/-- Every resource of an account is in one list of the report. -/
theorem Report.size_ofSteps (taken : List (Manifest × Step)) :
    (Report.ofSteps taken).size = taken.length := by
  induction taken with
  | nil => rfl
  | cons entry taken ih =>
    obtain ⟨m, step⟩ := entry
    rw [Report.ofSteps_cons, List.length_cons, ← ih]
    cases step <;> simp only [Report.cons, Report.size, List.length_cons] <;> omega

theorem migrateEach_of_taken {ms : List Manifest} (h : Taken d options r t m step t') :
    migrateEach d options r t (m :: ms) =
      ((migrateEach d options r t' ms).1.map (·.cons m step), (migrateEach d options r t' ms).2) := by
  rw [migrateEach, migrateOne_eq_ok_iff.2 h]

theorem migrateEach_of_fault {ms : List Manifest} {fault : Fault}
    (h : migrateOne d options r t m = .error fault) :
    migrateEach d options r t (m :: ms) = (.error fault, t) := by
  rw [migrateEach, h]

theorem trace_of_taken {ms : List Manifest} (h : Taken d options r t m step t') :
    trace d options r t (m :: ms) = (m, step) :: trace d options r t' ms := by
  rw [trace, migrateOne_eq_ok_iff.2 h]

theorem trace_of_fault {ms : List Manifest} {fault : Fault}
    (h : migrateOne d options r t m = .error fault) : trace d options r t (m :: ms) = [] := by
  rw [trace, h]

/-- What holds before nothing is left, and before a fault, and before each resource that is taken if it
holds after it, holds of every run. -/
@[elab_as_elim]
theorem run_induction (d : Directory) (options : Conversion.Options) (r : Request)
    {motive : Tree → List Manifest → Prop} (nil : ∀ t, motive t [])
    (fault : ∀ t m ms fault, migrateOne d options r t m = .error fault → motive t (m :: ms))
    (taken : ∀ t m ms step t', Taken d options r t m step t' → motive t' ms → motive t (m :: ms))
    (t : Tree) (ms : List Manifest) : motive t ms := by
  induction ms generalizing t with
  | nil => exact nil t
  | cons m ms ih =>
    cases hone : migrateOne d options r t m with
    | error refused => exact fault t m ms refused hone
    | ok result => exact taken t m ms _ _ (migrateOne_eq_ok_iff.1 hone) (ih _)

/-- Resources that are migrated without a fault are all in the account, from which the report is drawn
up. -/
theorem migrateEach_report {ms : List Manifest} {report : Report}
    (h : (migrateEach d options r t ms).1 = .ok report) :
    (trace d options r t ms).map Prod.fst = ms ∧
      report = Report.ofSteps (trace d options r t ms) := by
  induction t, ms using run_induction d options r generalizing report with
  | nil t =>
    cases h
    exact ⟨rfl, rfl⟩
  | fault t m ms fault hfault =>
    rw [migrateEach_of_fault hfault] at h
    cases h
  | taken t m ms step t' htaken ih =>
    rw [migrateEach_of_taken htaken] at h
    cases hrest : (migrateEach d options r t' ms).1 with
    | error fault => rw [hrest] at h; cases h
    | ok rest =>
      rw [hrest] at h
      obtain ⟨hms, rfl⟩ := ih hrest
      cases h
      rw [trace_of_taken htaken, List.map_cons, hms, Report.ofSteps_cons]
      exact ⟨rfl, rfl⟩

theorem migrate_of_select {ms : List Manifest} (h : select d t r = .ok ms) :
    migrate d options r t = migrateEach d options r t ms := by
  rw [migrate, h]

theorem account_of_select {ms : List Manifest} (h : select d t r = .ok ms) :
    account d options r t = trace d options r t ms := by
  rw [account, h]

/-- A report is about the selected resources, in their order. -/
theorem migrate_report {report : Report} (h : (migrate d options r t).1 = .ok report) :
    select d t r = .ok ((account d options r t).map Prod.fst) ∧
      report = Report.ofSteps (account d options r t) := by
  cases hselect : select d t r with
  | error fault => rw [migrate, hselect] at h; cases h
  | ok ms =>
    rw [migrate_of_select hselect] at h
    obtain ⟨hms, hreport⟩ := migrateEach_report h
    rw [account_of_select hselect, hms]
    exact ⟨rfl, hreport⟩

/-! ### What was made -/

theorem of_mem_trace {ms : List Manifest} (h : (m, step) ∈ trace d options r t ms) :
    m ∈ ms ∧ ∃ t₁ t₂, Taken d options r t₁ m step t₂ := by
  induction t, ms using run_induction d options r with
  | nil t => cases h
  | fault t m₁ ms fault hfault =>
    rw [trace_of_fault hfault] at h
    cases h
  | taken t m₁ ms step₁ t₁ htaken ih =>
    rw [trace_of_taken htaken] at h
    rcases List.mem_cons.1 h with he | h
    · cases he
      exact ⟨List.mem_cons_self .., t, t₁, htaken⟩
    · exact ⟨List.mem_cons_of_mem _ (ih h).1, (ih h).2⟩

/-- What is in an account was selected and taken. -/
theorem of_mem_account (h : (m, step) ∈ account d options r t) :
    (∃ ms, select d t r = .ok ms ∧ m ∈ ms) ∧ ∃ t₁ t₂, Taken d options r t₁ m step t₂ := by
  cases hselect : select d t r with
  | error fault => rw [account, hselect] at h; cases h
  | ok ms =>
    rw [account_of_select hselect] at h
    obtain ⟨hm, htaken⟩ := of_mem_trace h
    exact ⟨⟨ms, rfl, hm⟩, htaken⟩

/-- A resource that is created was converted to one that can be stored. -/
theorem exists_convert_of_created (h : (m, .created) ∈ account d options r t) :
    ∃ m' kind, Conversion.convert options m = .ok m' ∧ Storable m' kind := by
  obtain ⟨-, t₁, t₂, htaken⟩ := of_mem_account h
  cases htaken with
  | planned hin hconvert hm' hnew hdry => exact ⟨_, _, hconvert, hm'⟩
  | written hin hconvert hm' hnew hdry hencode hwrite => exact ⟨_, _, hconvert, hm'⟩

theorem mem_made_iff {taken : List (Manifest × Step)} : m' ∈ made options taken ↔
    ∃ m, (m, .created) ∈ taken ∧ Conversion.convert options m = .ok m' := by
  unfold made
  rw [List.mem_filterMap]
  constructor
  · rintro ⟨⟨m, step⟩, hm, hmade⟩
    cases step with
    | created =>
      refine ⟨m, hm, ?_⟩
      rw [madeOf?] at hmade
      cases hconvert : Conversion.convert options m with
      | error failure => rw [hconvert] at hmade; cases hmade
      | ok found =>
        rw [hconvert] at hmade
        cases hmade
        rfl
    | _ => cases hmade
  · rintro ⟨m, hm, hconvert⟩
    refine ⟨_, hm, ?_⟩
    rw [madeOf?, hconvert]
    rfl

/-- A resource that was made is of version 3, and has the names and the type of one that was taken. -/
theorem storable_of_mem_made (h : m' ∈ made options (account d options r t)) :
    ∃ kind, Storable m' kind ∧ kind.group = .v3 := by
  obtain ⟨m, hm, hconvert⟩ := mem_made_iff.1 h
  obtain ⟨found, kind, hfound, hstorable⟩ := exists_convert_of_created hm
  rw [hconvert] at hfound
  cases hfound
  exact ⟨kind, hstorable, (hstorable.of_convert hconvert).2.2.1⟩

/-- There is one resource for each entry among the created ones. -/
theorem length_made {taken : List (Manifest × Step)}
    (h : ∀ m, (m, .created) ∈ taken → ∃ m', Conversion.convert options m = .ok m') :
    (made options taken).length = (Report.ofSteps taken).created.length := by
  induction taken with
  | nil => rfl
  | cons entry taken ih =>
    obtain ⟨m, step⟩ := entry
    have ih := ih fun m hm => h m (List.mem_cons_of_mem _ hm)
    rw [Report.ofSteps_cons]
    cases step with
    | created =>
      obtain ⟨m', hconvert⟩ := h m (List.mem_cons_self ..)
      have hmade : madeOf? options (m, .created) = some m' := by
        rw [madeOf?, hconvert]
        rfl
      rw [made, List.filterMap_cons_some hmade, List.length_cons]
      exact congrArg (· + 1) ih
    | _ => exact ih

end TraefikUpgrade.Store
