/-
# Middlewares that are left out

A migration can leave out the middlewares that set a removed option. Those are the ones that the
conversion would take an option from that is neither off nor the empty text (`skipped_iff_losesOption`).
So no file that such a migration adds is that of a middleware that lost one, and no middleware is left out
that would not have.

Key theorems: `setsRemovedOption_eq`, `skipped_iff_losesOption`, `exists_convert_lostOptions`,
`migrate_leaves_out`, `migrate_skips_losses`.
-/
import TraefikUpgrade.Proofs.Conversion.Losses
import TraefikUpgrade.Proofs.Store.Additions

namespace TraefikUpgrade.Store

open Conversion (Tells convert hasRemovedOptions isOnOrFilled lostOptions lostOptions_eq losesOption
  removedOptions tells_isOnOrFilled)
open FileSystem
open Resource (GroupKind Manifest Registry V2.Middleware encodeOne?)

variable {d : Directory} {options : Conversion.Options} {r : Request} {t t' : Tree} {m : Manifest}
  {step : Step}

/-- What is selected was read from a file, so its specification can be written and read back. -/
theorem fits_of_select {ms : List Manifest} (hs : t.Sound) (h : select d t r = .ok ms) (hm : m ∈ ms) :
    m.SpecFits := by
  obtain ⟨ns, file, -, hread⟩ := exists_read_of_select hs h hm
  obtain ⟨l, text, rest, -, -, hdecode⟩ := read_eq_ok hread
  exact (Manifest.fits_of_decodeFrom hdecode m (List.mem_cons_self ..)).spec

/-- A removed option is set if and only if the conversion loses an option. -/
theorem setsRemovedOption_eq [Regex.Limits] (h : m.SpecFits) (options : Conversion.Options) :
    setsRemovedOption m = losesOption options m := by
  cases m with
  | middlewareV2 o => exact (Conversion.losesOption_middleware h options).symm
  | _ => rfl

theorem skipped_iff_losesOption [Regex.Limits] (hs : t.Sound) (hskip : r.skipDeprecated = true)
    (h : (m, step) ∈ account d options r t) : step = .skipped ↔ losesOption options m = true := by
  obtain ⟨⟨ms, hselect, hm⟩, t₁, t₂, htaken⟩ := of_mem_account h
  rw [← setsRemovedOption_eq (fits_of_select hs hselect hm) options]
  cases htaken with
  | skipped hout => simpa [hskip] using hout
  | failed hin hconvert => simpa [hskip] using hin
  | alreadyExists hin hconvert hm' hthere => simpa [hskip] using hin
  | planned hin hconvert hm' hnew hdry => simpa [hskip] using hin
  | written hin hconvert hm' hnew hdry hencode hwrite => simpa [hskip] using hin

/-- The resources of an account that are named in the list of those left out. -/
theorem listed_skipped [Regex.Limits] (hs : t.Sound) (hskip : r.skipDeprecated = true) :
    listed (· == .skipped) (account d options r t) =
      (((account d options r t).map Prod.fst).filter (losesOption options)).map identity := by
  have hsame : ∀ entry ∈ account d options r t,
      (entry.2 == Step.skipped) = losesOption options entry.1 := by
    intro entry he
    rw [Bool.eq_iff_iff, beq_iff_eq]
    exact skipped_iff_losesOption hs hskip he
  rw [listed, List.filter_congr hsame, List.filter_map, List.map_map]
  rfl

/-- The removed options that a middleware sets are the options of its blocks that are on, or a text that is
not empty, and that the converted middleware does not have. -/
theorem exists_convert_lostOptions [Regex.Limits] (options : Conversion.Options) {document : Yaml.Value}
    {registry : Registry} {number : Nat} {m : V2.Middleware}
    (h : Manifest.ofValue document registry number = .ok (.middlewareV2 m)) :
    ∃ m', convert options (.middlewareV2 m) = .ok m' ∧
      ((removedOptions m.spec).map fun o => (o.block, o.name)) =
        lostOptions isOnOrFilled (Manifest.middlewareV2 m).toValue m'.toValue ∧
      (hasRemovedOptions m.spec = true ↔
        lostOptions isOnOrFilled (Manifest.middlewareV2 m).toValue m'.toValue ≠ []) := by
  have hlost := lostOptions_eq (Manifest.fits_of_ofValue h).spec tells_isOnOrFilled
    options.skipAnnotations
  refine ⟨_, rfl, hlost.symm, ?_⟩
  rw [hlost, Conversion.hasRemovedOptions_iff, ne_eq, ne_eq, List.map_eq_nil_iff]

/-- A migration that leaves out middlewares with removed options adds no file of one that lost an option,
and its report names all that would have. -/
theorem migrate_leaves_out [Regex.Limits] {result : Except Fault Report} (ht : t.Closed)
    (hskip : r.skipDeprecated = true) (h : migrate d options r t = (result, t')) :
    (∀ m step, (m, step) ∈ account d options r t →
      (step = .skipped ↔ losesOption options m = true)) ∧
    (∀ x content, IsNew t t' x content → ∃ m m' text, (m, .created) ∈ account d options r t ∧
      losesOption options m = false ∧ convert options m = .ok m' ∧
      d.place? (t.start d.root) m' = some x ∧ encodeOne? m' = some text ∧ content = .text text) ∧
    ∀ report, result = .ok report → ∃ ms, select d t r = .ok ms ∧
      report.skipped = (ms.filter (losesOption options)).map identity := by
  have hadds : Adds d (t.start d.root) t (migrate d options r t).2
      (written options r (account d options r t)) := migrate_adds ht
  have hreport : ∀ report, (migrate d options r t).1 = .ok report →
      select d t r = .ok ((account d options r t).map Prod.fst) ∧
        report = Report.ofSteps (account d options r t) := fun _ => migrate_report
  have hskipped : ∀ m step, (m, step) ∈ account d options r t →
      (step = .skipped ↔ losesOption options m = true) :=
    fun m step => skipped_iff_losesOption ht.toSound hskip
  rw [h] at hadds hreport
  refine ⟨hskipped, fun x content hnew => ?_, fun report hresult => ?_⟩
  · obtain ⟨m', hm', text, hplace, hencode, hcontent⟩ := hadds.isNew_iff.1 hnew
    obtain ⟨m, hm, hconvert⟩ := mem_made_iff.1 (mem_made_of_mem_written hm')
    have hkeeps : losesOption options m = false := by
      rw [← Bool.not_eq_true, ← hskipped m _ hm]
      nofun
    exact ⟨m, m', text, hm, hkeeps, hconvert, hplace, hencode, hcontent⟩
  · obtain ⟨hselect, rfl⟩ := hreport report hresult
    exact ⟨_, hselect, listed_skipped ht.toSound hskip⟩

/-- The removed options that a middleware sets, as they are named in the list of them, are the options of
its blocks that are on, or a text that is not empty, and that the converted middleware does not have; it
sets one if and only if there is such an option. A migration that leaves out middlewares with removed
options leaves out exactly those that would lose an option that is neither off nor the empty text: the
report names them, and each new file is that of another resource. -/
theorem migrate_skips_losses [Regex.Limits] (d : Directory) (options : Conversion.Options) :
    (∀ document registry number (m : V2.Middleware),
      Manifest.ofValue document registry number = .ok (.middlewareV2 m) →
      ∃ m', convert options (.middlewareV2 m) = .ok m' ∧
        ((removedOptions m.spec).map fun o => (o.block, o.name)) =
          lostOptions isOnOrFilled (Manifest.middlewareV2 m).toValue m'.toValue ∧
        (hasRemovedOptions m.spec = true ↔
          lostOptions isOnOrFilled (Manifest.middlewareV2 m).toValue m'.toValue ≠ [])) ∧
    ∀ (r : Request) (t t' : Tree) (result : Except Fault Report), t.Closed →
      r.skipDeprecated = true → migrate d options r t = (result, t') →
      (∀ m step, (m, step) ∈ account d options r t →
        (step = .skipped ↔ losesOption options m = true)) ∧
      (∀ x content, IsNew t t' x content → ∃ m m' text, (m, .created) ∈ account d options r t ∧
        losesOption options m = false ∧ convert options m = .ok m' ∧
        d.place? (t.start d.root) m' = some x ∧ encodeOne? m' = some text ∧ content = .text text) ∧
      ∀ report, result = .ok report → ∃ ms, select d t r = .ok ms ∧
        report.skipped = (ms.filter (losesOption options)).map identity :=
  ⟨fun _ _ _ _ h => exists_convert_lostOptions options h,
    fun _ _ _ _ ht hskip h => migrate_leaves_out ht hskip h⟩

/-- A tree in which a middleware is stored that sets a removed option. -/
def slashTree : Tree where
  entries := [(["store"], .directory), (["store", "traefik.containo.us"], .directory),
    (["store", "traefik.containo.us", "Middleware"], .directory),
    (["store", "traefik.containo.us", "Middleware", "apps"], .directory),
    (["store", "traefik.containo.us", "Middleware", "apps", "strip.yaml"], .file (.text
      "apiVersion: traefik.containo.us/v1alpha1\nkind: Middleware\nspec:\n  stripPrefix:\n    forceSlash: true\n"))]

/-- A request for the middlewares that set no removed option. -/
def slashRequest : Request := { type := .middleware, skipDeprecated := true }

theorem closed_slashTree : slashTree.Closed := .of_entries (by decide) (by decide)

/-- The middleware would lose the option, so it is left out. -/
theorem migrate_skips_losses_forceSlash :
    slashTree.Closed ∧ slashRequest.skipDeprecated = true ∧
    (account exampleStore {} slashRequest slashTree).map Prod.snd = [.skipped] ∧
    (∀ m step, (m, step) ∈ account exampleStore {} slashRequest slashTree →
      losesOption {} m = true) ∧
    ∀ x content, ¬ IsNew slashTree (migrate exampleStore {} slashRequest slashTree).2 x content := by
  have hsteps : (account exampleStore {} slashRequest slashTree).map Prod.snd = [.skipped] := by
    decide +kernel
  have hskipped : ∀ m step, (m, step) ∈ account exampleStore {} slashRequest slashTree →
      step = .skipped := by
    intro m step hm
    have hstep := List.mem_map_of_mem (f := Prod.snd) hm
    rw [hsteps] at hstep
    exact List.mem_singleton.1 hstep
  obtain ⟨-, hmigrate⟩ := migrate_skips_losses exampleStore {}
  obtain ⟨hiff, hnew, -⟩ := hmigrate slashRequest slashTree _ _ closed_slashTree rfl (Prod.eta _).symm
  refine ⟨closed_slashTree, rfl, hsteps, fun m step hm => (hiff m step hm).1 (hskipped m step hm), ?_⟩
  intro x content hx
  obtain ⟨m, m', text, hm, -⟩ := hnew x content hx
  cases hskipped m _ hm

end TraefikUpgrade.Store
