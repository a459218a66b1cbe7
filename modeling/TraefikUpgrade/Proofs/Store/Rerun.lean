/-
# Migrating a second time

After a migration that gave a report the same request selects the same resources, since nothing was added
where it looks. What was created is there now, and all else becomes of the resources that became of them
before. So the second migration changes nothing (`migrate_again`).

Key definitions: `Step.again`, `Step.isInPlace`.
Key theorems: `Adds.alike`, `taken_again`, `migrateEach_again`, `migrate_again`.
-/
import TraefikUpgrade.Proofs.Store.Additions

namespace TraefikUpgrade.Store

open FileSystem
open Resource (Group GroupKind Manifest encodeOne?)

variable {d : Directory} {start : Location} {options : Conversion.Options} {r : Request}
  {t t₁ t' : Tree} {m : Manifest} {step : Step}

/-! ### The same selection -/

/-- What is added is not where a request looks. -/
theorem Adds.alike {ms : List Manifest} (h : Adds d (t.start d.root) t t' ms)
    (ho : Opened d (t.start d.root) t) (ht' : t'.Closed) : Alike d t t' where
  sound := ho.closed.toSound
  sound' := ht'.toSound
  start := h.keeps.start _
  way x hx := by rw [h.keeps.kept x _ (ho.way x hx), ho.way x hx]
  base := by rw [h.keeps.kept _ _ ho.base, ho.base]
  below x hx := by
    cases he' : t'.lookup x with
    | none =>
      cases he : t.lookup x with
      | none => rfl
      | some e =>
        rw [h.keeps.kept x e he] at he'
        cases he'
    | some e =>
      rcases h.confined x e he' with he | hx'
      · exact he.symm
      · -- Nothing is both below the directory for version 2 and below the one for version 3.
        have hlength : (d.base (t.start d.root) ++ [Group.v2.name]).length ≤
            (d.base (t.start d.root) ++ [Group.v3.name]).length := by simp
        have hgroups := List.append_cancel_left
          ((List.prefix_of_prefix_length_le hx hx' hlength).eq_of_length (by simp))
        exact absurd hgroups (by decide)

/-! ### The second run -/

/-- What becomes of a resource the second time. -/
def Step.again : Step → Step
  | .created => .alreadyExists
  | step => step

/-- Whether a resource of version 3 was there or is there now. -/
def Step.isInPlace (step : Step) : Bool := step == .created || step == .alreadyExists

/-- A resource that was created is there. -/
theorem Opened.doesExist_of_adds {kind : GroupKind} {ms : List Manifest} (ho : Opened d start t₁)
    (h : Adds d start t t₁ ms) (hm : m ∈ ms) (hstorable : Storable m kind) :
    t₁.doesExist (d.pathOf kind m) = true := by
  obtain ⟨text, -, -, hthere⟩ := h.at_place hm hstorable.place?_eq
  exact ho.doesExist (isEntryName_of_isNamespace hstorable.namespace)
    (isEntryName_fileName hstorable.name) hthere

/-- A resource that was taken once is taken a second time and changes nothing. -/
theorem taken_again [Regex.Limits] (h : Taken d options r t m step t₁) (ho : Opened d start t)
    (hwet : r.dryRun = false) (hk : Tree.Keeps t₁ t') : Taken d options r t' m step.again t' := by
  have hstep := adds_of_taken ho h
  cases h with
  | skipped hout => exact .skipped hout
  | failed hin hconvert => exact .failed hin hconvert
  | alreadyExists hin hconvert hm' hthere =>
    exact .alreadyExists hin hconvert hm' (hk.doesExist hthere)
  | planned hin hconvert hm' hnew hdry =>
    rw [hwet] at hdry
    cases hdry
  | written hin hconvert hm' hnew hdry hencode hwrite =>
    rw [written_created hdry hconvert] at hstep
    have hthere := hstep.2.doesExist_of_adds hstep.1 (List.mem_singleton_self _) hm'
    exact .alreadyExists hin hconvert hm' (hk.doesExist hthere)

/-- Resources that were migrated once are migrated a second time, also if something was added since. -/
theorem migrateEach_again [Regex.Limits] {ms : List Manifest} {report : Report} (ho : Opened d start t)
    (hwet : r.dryRun = false) (h : (migrateEach d options r t ms).1 = .ok report)
    (hk : Tree.Keeps (migrateEach d options r t ms).2 t') : migrateEach d options r t' ms =
      (.ok (Report.ofSteps ((trace d options r t ms).map (Prod.map id Step.again))), t') := by
  induction t, ms using run_induction d options r generalizing report with
  | nil t => rfl
  | fault t m ms fault hfault =>
    rw [migrateEach_of_fault hfault] at h
    cases h
  | taken t m ms step t₁ htaken ih =>
    rw [migrateEach_of_taken htaken] at h hk
    cases hrest : (migrateEach d options r t₁ ms).1 with
    | error fault => rw [hrest] at h; cases h
    | ok rest =>
      have hopened := (adds_of_taken ho htaken).2
      have hkeeps : Tree.Keeps t₁ t' := (adds_migrateEach hopened).1.keeps.trans hk
      have hagain := ih hopened hrest hk
      rw [migrateEach_of_taken (taken_again htaken ho hwet hkeeps), hagain, trace_of_taken htaken]
      show (Except.ok ((Report.ofSteps _).cons m step.again), t') = _
      rw [← Report.ofSteps_cons]
      rfl

/-- The report of the second time. -/
theorem Report.ofSteps_again (taken : List (Manifest × Step)) :
    Report.ofSteps (taken.map (Prod.map id Step.again)) =
      { Report.ofSteps taken with created := [], alreadyExists := listed Step.isInPlace taken } := by
  induction taken with
  | nil => rfl
  | cons entry taken ih =>
    obtain ⟨m, step⟩ := entry
    rw [List.map_cons, Report.ofSteps_cons, Prod.map, Report.ofSteps_cons, ih]
    cases step <;> rfl

/-- A migration that gave a report can be run a second time. It changes nothing then, creates nothing,
and reports what was created or was there before as being there, in the order of the selection; all else
is reported as before. -/
theorem migrate_again [Regex.Limits] {d : Directory} {options : Conversion.Options} {r : Request}
    {t t' : Tree} {report : Report} (ht : t.Closed) (hwet : r.dryRun = false)
    (h : migrate d options r t = (.ok report, t')) :
    ∃ report', migrate d options r t' = (.ok report', t') ∧
      select d t' r = .ok ((account d options r t).map Prod.fst) ∧
      report.created = listed (· == .created) (account d options r t) ∧
      report.alreadyExists = listed (· == .alreadyExists) (account d options r t) ∧
      report'.created = [] ∧
      report'.alreadyExists = listed Step.isInPlace (account d options r t) ∧
      report'.skipped = report.skipped ∧
      report'.failures = report.failures := by
  have hreport : (migrate d options r t).1 = .ok report := by rw [h]
  obtain ⟨hselect, rfl⟩ := migrate_report hreport
  have hagain : select d t' r = select d t r ∧ migrate d options r t' = (.ok (Report.ofSteps
      ((account d options r t).map (Prod.map id Step.again))), t') := by
    generalize hms : (account d options r t).map Prod.fst = ms at hselect
    rw [migrate_of_select hselect] at h hreport
    by_cases hne : ms = []
    · -- Nothing was selected, and the tree is as it was.
      subst hne
      obtain rfl : t = t' := congrArg Prod.snd h
      rw [migrate_of_select hselect, List.map_eq_nil_iff.1 hms]
      exact ⟨rfl, rfl⟩
    · have ho := opened_of_select ht hselect hne
      have hrun : Adds d (t.start d.root) t (migrateEach d options r t ms).2
          (written options r (trace d options r t ms)) ∧
            Opened d (t.start d.root) (migrateEach d options r t ms).2 := adds_migrateEach ho
      have hend : Tree.Keeps (migrateEach d options r t ms).2 t' := by
        rw [h]
        exact .refl t'
      rw [h] at hrun
      have hsame := (hrun.1.alike ho hrun.2.closed).select_eq r
      rw [migrate_of_select (hsame.trans hselect), account_of_select hselect]
      exact ⟨hsame, migrateEach_again ho hwet hreport hend⟩
  refine ⟨_, hagain.2, hagain.1.trans hselect, rfl, rfl, ?_⟩
  rw [Report.ofSteps_again]
  exact ⟨rfl, rfl, rfl, rfl⟩

/-- The middleware is there when it is migrated a second time. -/
theorem migrate_again_misplaced :
    misplacedTree.Closed ∧ misplacedRequest.dryRun = false ∧
    migrate exampleStore {} misplacedRequest misplacedTree =
      (.ok { created := ["default/strip"] }, misplacedResult) ∧
    migrate exampleStore {} misplacedRequest misplacedResult =
      (.ok { alreadyExists := ["default/strip"] }, misplacedResult) := by
  refine ⟨closed_misplacedTree, rfl, migrate_misplaced, ?_⟩
  obtain ⟨report, hrun, -, hmade, -, hcreated, hthere, hskipped, hfailures⟩ :=
    migrate_again closed_misplacedTree rfl migrate_misplaced
  have hreport := (migrate_report (congrArg Prod.fst migrate_misplaced)).2
  have hsize := congrArg Report.size hreport
  rw [Report.size_ofSteps] at hsize
  obtain ⟨⟨m, step⟩, haccount⟩ := List.length_eq_one_iff.1 hsize.symm
  rw [haccount] at hmade hthere
  cases step with
  | created =>
    have hthere : report.alreadyExists = ["default/strip"] := hthere.trans hmade.symm
    rw [hrun, Prod.mk.injEq, Except.ok.injEq, Report.mk.injEq]
    exact ⟨⟨hcreated, hthere, hskipped, hfailures⟩, rfl⟩
  | _ => cases hmade

end TraefikUpgrade.Store
