/-
# What a conversion leaves behind

A conversion loads the settings, reads and decodes the manifests, converts and encodes them, and finds out
where to write before it writes anything. So an error on the way leaves everything as it was
(`Unfit`), while a manifest that cannot be converted is only left out. Otherwise one target receives the
converted manifests, all else stays as it is, and the code tells whether a manifest was left out
(`convert_all_or_nothing`).

Key definitions: `Provides`, `Loaded`, `Unfit`, `Prepared`, `Target`, `GoesTo`, `Received`.
Key theorems: `convert_of_unfit`, `exists_prepared`, `convert_of_prepared`, `convert_all_or_nothing`.
-/
import TraefikUpgrade.CommandLine.Run
import TraefikUpgrade.Proofs.Conversion.Batches
import TraefikUpgrade.Proofs.FileSystem.Files

namespace TraefikUpgrade.CommandLine

open FileSystem (Location Path Tree)
open Config (Effective)
open Conversion (Options converted?)
open Resource (Manifest)

variable {w : World} {file output : Path} {keepSyntax : Bool} {options : Options}
  {manifests : List Manifest} {encoded text : String}

/-! ### Before anything is written -/

/-- The text of the manifests is that of the standard input for a hyphen, and else that of the file. -/
def Provides (w : World) (file : Path) (text : String) : Prop :=
  if file = stdio then w.input = .text text else w.tree.readText file = .ok text

/-- The options of a conversion are those of the settings that count, but rules are also kept if the
command says so. -/
def Loaded (w : World) (keepSyntax : Bool) (options : Options) : Prop :=
  ∃ layers, Config.layers w.tree w.environment (workingPath w.tree) = .ok layers ∧
    options = ⟨(Effective.ofLayers layers).keepSyntax || keepSyntax,
      (Effective.ofLayers layers).skipAnnotations⟩

/-- What makes a conversion end before it writes anything. -/
inductive Unfit [Regex.Limits] (w : World) (file output : Path) (keepSyntax : Bool) : Prop
  | settings (h : ∀ options, ¬ Loaded w keepSyntax options)
  | unreadable (h : ∀ text, ¬ Provides w file text)
  | undecodable {text : String} {fault : Manifest.Fault} (hp : Provides w file text)
    (h : Resource.decode Resource.GroupKind.all text = .error fault)
  | unwritable {options : Options} {text : String} {manifests : List Manifest}
    (hl : Loaded w keepSyntax options) (hp : Provides w file text)
    (hd : Resource.decode Resource.GroupKind.all text = .ok manifests)
    (h : Resource.encode? (manifests.filterMap (converted? options)) = none)
  | directory (ho : output ≠ stdio) (hd : w.tree.isDirectory output = true) (hf : file = stdio)

/-- The options and the manifests of a conversion, and the stream of what the manifests are converted to:
those that can be, in their order. -/
structure Prepared [Regex.Limits] (w : World) (file : Path) (keepSyntax : Bool) (options : Options)
    (manifests : List Manifest) (encoded : String) : Prop where
  loaded : Loaded w keepSyntax options
  decoded : ∃ text, Provides w file text ∧
    Resource.decode Resource.GroupKind.all text = .ok manifests
  encoded : Resource.encode? (manifests.filterMap (converted? options)) = some encoded

theorem settings_eq_ok_iff : (∃ s, settings w = .ok s ∧ options = conversionOptions s keepSyntax) ↔
    Loaded w keepSyntax options := by
  unfold settings Loaded
  cases Config.layers w.tree w.environment (workingPath w.tree) with
  | error fault => simp
  | ok layers => simp [conversionOptions]

theorem readManifests_eq_ok_iff : readManifests w file = .ok text ↔ Provides w file text := by
  unfold readManifests Provides
  split
  · cases w.input <;> simp
  · cases w.tree.readText file <;> simp

/-- What a conversion leaves when a text and a tree were delivered. -/
def delivered [Regex.Limits] (options : Options) (manifests : List Manifest)
    (result : String × Tree) : Outcome :=
  let report := Conversion.convertAll options manifests
  let summary := toString report.failures.length ++ " of " ++ toString manifests.length ++
    " resources failed to convert\n"
  { code := exitCode report.isSuccess
    output := result.1
    errors := if report.isSuccess then "" else summary
    tree := result.2 }

theorem convert_of_prepared [Regex.Limits] (output : Path)
    (h : Prepared w file keepSyntax options manifests encoded) :
    convert w file output keepSyntax =
      (deliver w.tree file output encoded).map (delivered options manifests) := by
  obtain ⟨s, hsettings, rfl⟩ := settings_eq_ok_iff.2 h.loaded
  obtain ⟨text, hprovides, hdecode⟩ := h.decoded
  have hencode := h.encoded
  have hreport : (Conversion.convertAll (conversionOptions s keepSyntax) manifests).converted =
      manifests.filterMap (converted? (conversionOptions s keepSyntax)) := by
    rw [Conversion.convertAll_eq]
  rw [← hreport] at hencode
  simp only [convert, hsettings, readManifests_eq_ok_iff.2 hprovides, hdecode, hencode, bind,
    Except.bind, pure, Except.pure]
  cases deliver w.tree file output encoded <;> rfl

/-- A conversion that is not ended by an error got as far as to deliver. -/
theorem exists_prepared_of_convert [Regex.Limits] {o : Outcome}
    (h : convert w file output keepSyntax = .ok o) :
    ∃ options manifests encoded result, Prepared w file keepSyntax options manifests encoded ∧
      deliver w.tree file output encoded = .ok result := by
  obtain ⟨s, hsettings, h⟩ := bind_eq_ok h
  obtain ⟨text, hread, h⟩ := bind_eq_ok h
  cases hdecode : Resource.decode Resource.GroupKind.all text with
  | error fault => rw [hdecode] at h; cases h
  | ok manifests =>
    rw [hdecode] at h
    dsimp only at h
    rw [Conversion.convertAll_eq] at h
    dsimp only at h
    cases hencode : Resource.encode?
        (manifests.filterMap (converted? (conversionOptions s keepSyntax))) with
    | none => rw [hencode] at h; cases h
    | some encoded =>
      rw [hencode] at h
      obtain ⟨result, hdeliver, -⟩ := bind_eq_ok h
      exact ⟨_, manifests, encoded, result,
        ⟨settings_eq_ok_iff.1 ⟨s, hsettings, rfl⟩, ⟨text, readManifests_eq_ok_iff.1 hread, hdecode⟩,
          hencode⟩, hdeliver⟩

theorem Loaded.unique {options' : Options} (h : Loaded w keepSyntax options)
    (h' : Loaded w keepSyntax options') : options' = options := by
  obtain ⟨layers, hl, rfl⟩ := h
  obtain ⟨layers', hl', rfl⟩ := h'
  rw [hl] at hl'
  cases hl'
  rfl

theorem Provides.unique {text' : String} (h : Provides w file text) (h' : Provides w file text') :
    text' = text := by
  rw [← readManifests_eq_ok_iff] at h h'
  rw [h] at h'
  cases h'
  rfl

/-! ### Where the result goes -/

/-- What can receive the result of a conversion. -/
inductive Target where
  | stdout
  | file (p : Path)

/-- The target is the standard output for a hyphen, else the output file, or in an output directory the
file with the name of the input. -/
inductive GoesTo (t : Tree) (file output : Path) : Target → Prop
  | stdout (ho : output = stdio) : GoesTo t file output .stdout
  | file (ho : output ≠ stdio) (hd : t.isDirectory output = false) :
    GoesTo t file output (.file output)
  | inDirectory {name : String} (ho : output ≠ stdio) (hd : t.isDirectory output = true)
    (hf : file ≠ stdio) (hn : file.fileName? = some name) :
    GoesTo t file output (.file (output.join name))

theorem GoesTo.unique {t : Tree} {target target' : Target} (h : GoesTo t file output target)
    (h' : GoesTo t file output target') : target' = target := by
  cases h with
  | stdout ho =>
    cases h' with
    | stdout => rfl
    | file ho' | inDirectory ho' => exact absurd ho ho'
  | file ho hd =>
    cases h' with
    | stdout ho' => exact absurd ho' ho
    | file => rfl
    | inDirectory ho' hd' => rw [hd] at hd'; cases hd'
  | inDirectory ho hd hf hn =>
    cases h' with
    | stdout ho' => exact absurd ho' ho
    | file ho' hd' => rw [hd] at hd'; cases hd'
    | inDirectory ho' hd' hf' hn' => rw [hn] at hn'; cases hn'; rfl

/-- Whether a text can be written to a target. -/
def Target.Writable (t : Tree) (encoded : String) : Target → Prop
  | .stdout => True
  | .file p => ∃ t', t.write p (.text encoded) = .ok t'

/-- A text was delivered to a target, and nothing else was changed or printed. -/
inductive Received (w : World) (encoded : String) (o : Outcome) : Target → Prop
  | stdout (ho : o.output = encoded) (ht : o.tree = w.tree) : Received w encoded o .stdout
  | file {p : Path} {l : Location} (hp : o.tree.readText p = .ok encoded)
    (hl : w.tree.resolve p = .ok l) (hrest : ∀ l', l' ≠ l → o.tree.lookup l' = w.tree.lookup l')
    (ho : o.output = "") : Received w encoded o (.file p)

theorem deliver_stdout (t : Tree) (file : Path) :
    deliver t file stdio encoded = .ok (encoded, t) := if_pos rfl

theorem target_of_goesTo {t : Tree} {p : Path} (h : GoesTo t file output (.file p)) :
    output ≠ stdio ∧ target t file output = .ok p := by
  cases h with
  | file ho hd => exact ⟨ho, by rw [target, if_neg (by simp [hd])]⟩
  | inDirectory ho hd hf hn => exact ⟨ho, by rw [target, if_pos hd, hn]; exact if_neg hf⟩

theorem deliver_of_write {t t' : Tree} {p : Path} (h : GoesTo t file output (.file p))
    (hw : t.write p (.text encoded) = .ok t') : deliver t file output encoded = .ok ("", t') := by
  obtain ⟨ho, htarget⟩ := target_of_goesTo h
  rw [deliver, if_neg ho, htarget]
  simp [bind, Except.bind, hw, pure, Except.pure]

/-- What can be written is received. -/
theorem received_of_writable [Regex.Limits] {goal : Target} (h : GoesTo w.tree file output goal)
    (hw : goal.Writable w.tree encoded) (options : Options) (manifests : List Manifest) :
    ∃ result, deliver w.tree file output encoded = .ok result ∧
      Received w encoded (delivered options manifests result) goal := by
  cases goal with
  | stdout =>
    cases h with
    | stdout ho => exact ⟨_, ho ▸ deliver_stdout w.tree file, .stdout rfl rfl⟩
  | file p =>
    obtain ⟨t', hwrite⟩ := hw
    obtain ⟨hread, l, hl, hrest⟩ := Tree.readText_of_write hwrite
    exact ⟨_, deliver_of_write h hwrite, .file hread hl hrest rfl⟩

theorem deliver_of_not_writable {t : Tree} {goal : Target} (h : GoesTo t file output goal)
    (hw : ¬ goal.Writable t encoded) : ∃ fatal, deliver t file output encoded = .error fatal := by
  cases goal with
  | stdout => exact absurd trivial hw
  | file p =>
    obtain ⟨ho, htarget⟩ := target_of_goesTo h
    cases hwrite : t.write p (.text encoded) with
    | ok t' => exact absurd ⟨t', hwrite⟩ hw
    | error refusal =>
      rw [deliver, if_neg ho, htarget]
      exact ⟨_, by simp [bind, Except.bind, hwrite]; rfl⟩

/-- A stream without a name cannot be delivered to a directory. -/
theorem deliver_of_directory {t : Tree} (encoded : String) (ho : output ≠ stdio)
    (hd : t.isDirectory output = true) : ∃ fatal, deliver t stdio output encoded = .error fatal := by
  have htarget : target t stdio output = .error (target.isDirectory output) := by
    rw [target, if_pos hd]
    cases Path.fileName? stdio with
    | none => rfl
    | some name => exact if_pos rfl
  rw [deliver, if_neg ho, htarget]
  exact ⟨_, rfl⟩

/-- Manifests that were read from a file have its name in an output directory. -/
theorem exists_goesTo (hw : w.tree.Closed) (hp : Provides w file text)
    (hd : ¬ (output ≠ stdio ∧ w.tree.isDirectory output = true ∧ file = stdio)) :
    ∃ goal, GoesTo w.tree file output goal := by
  by_cases ho : output = stdio
  · exact ⟨_, .stdout ho⟩
  · cases hdir : w.tree.isDirectory output with
    | false => exact ⟨_, .file ho hdir⟩
    | true =>
      have hf : file ≠ stdio := fun hf => hd ⟨ho, hdir, hf⟩
      rw [Provides, if_neg hf] at hp
      obtain ⟨l, hl, hlookup⟩ := Tree.readText_eq_ok_iff.1 hp
      obtain ⟨name, hn⟩ := hw.exists_fileName? hl (by simp [hlookup])
      exact ⟨_, .inDirectory ho hdir hf hn⟩

/-! ### Runs -/

/-- What an error leaves behind. -/
def LeavesAll (w : World) (o : Outcome) : Prop := o.code = 1 ∧ o.output = "" ∧ o.tree = w.tree

theorem leavesAll_of_fatal [Regex.Limits] {fatal : Fatal}
    (h : convert w file output keepSyntax = .error fatal) :
    LeavesAll w (run w (.convert file output keepSyntax)) := by
  have hrun : run w (.convert file output keepSyntax) = conclude w (.error fatal) :=
    congrArg (conclude w) h
  rw [hrun]
  exact ⟨rfl, rfl, rfl⟩

theorem convert_of_unfit [Regex.Limits] (h : Unfit w file output keepSyntax) :
    ∃ fatal, convert w file output keepSyntax = .error fatal := by
  cases hconvert : convert w file output keepSyntax with
  | error fatal => exact ⟨fatal, rfl⟩
  | ok o =>
    obtain ⟨options, manifests, encoded, result, hprepared, hdeliver⟩ :=
      exists_prepared_of_convert hconvert
    obtain ⟨text, hprovides, hdecode⟩ := hprepared.decoded
    cases h with
    | settings h => exact absurd hprepared.loaded (h options)
    | unreadable h => exact absurd hprovides (h text)
    | undecodable hp h =>
      rw [hprovides.unique hp, hdecode] at h
      cases h
    | unwritable hl hp hd h =>
      rw [hprovides.unique hp, hdecode] at hd
      cases hd
      rw [hprepared.loaded.unique hl, hprepared.encoded] at h
      cases h
    | directory ho hd hf =>
      subst hf
      obtain ⟨fatal, hfatal⟩ := deliver_of_directory encoded ho hd
      rw [hdeliver] at hfatal
      cases hfatal

theorem exists_prepared [Regex.Limits] (h : ¬ Unfit w file output keepSyntax) :
    ∃ options manifests encoded, Prepared w file keepSyntax options manifests encoded := by
  obtain ⟨options, hl⟩ : ∃ options, Loaded w keepSyntax options :=
    not_forall_not.1 fun hn => h (.settings hn)
  obtain ⟨text, hp⟩ : ∃ text, Provides w file text := not_forall_not.1 fun hn => h (.unreadable hn)
  cases hd : Resource.decode Resource.GroupKind.all text with
  | error fault => exact absurd (.undecodable hp hd) h
  | ok manifests =>
    cases he : Resource.encode? (manifests.filterMap (converted? options)) with
    | none => exact absurd (.unwritable hl hp hd he) h
    | some encoded => exact ⟨options, manifests, encoded, hl, ⟨text, hp, hd⟩, he⟩

/-- The code tells whether all manifests were converted. -/
theorem code_delivered [Regex.Limits] (options : Options) (manifests : List Manifest)
    (result : String × Tree) :
    ((delivered options manifests result).code = 0 ↔
      ∀ m ∈ manifests, ∃ m', Conversion.convert options m = .ok m') ∧
    ((delivered options manifests result).code = 1 ↔
      ∃ m ∈ manifests, ∃ failure, Conversion.convert options m = .error failure) := by
  have hcode : (delivered options manifests result).code =
      exitCode (Conversion.convertAll options manifests).isSuccess := rfl
  have hsuccess : (Conversion.convertAll options manifests).isSuccess = true ↔
      ∀ m ∈ manifests, ∃ m', Conversion.convert options m = .ok m' := by
    rw [Conversion.Report.isSuccess, Conversion.convertAll_eq, List.isEmpty_iff,
      List.filterMap_eq_nil_iff]
    exact forall₂_congr fun m _ => Conversion.failure?_eq_none_iff
  have hfailing : (∃ m ∈ manifests, ∃ failure, Conversion.convert options m = .error failure) ↔
      ¬ ∀ m ∈ manifests, ∃ m', Conversion.convert options m = .ok m' := by
    simp only [not_forall, exists_prop]
    refine exists_congr fun m => and_congr_right fun _ => ?_
    cases Conversion.convert options m <;> simp
  rw [hfailing, ← hsuccess, hcode, exitCode]
  cases (Conversion.convertAll options manifests).isSuccess <;> simp

/-- If the settings cannot be loaded, the manifests cannot be read, decoded or encoded, or a stream
without a name would have to go to a directory, the code is 1, nothing is printed and no file is changed.
Otherwise there is exactly one target. It receives the stream of the manifests that can be converted, in
their order; all else stays as it is; and the code is 0 if and only if every manifest can be converted.
That is so if the target can be written. If it cannot, all stays as it is. -/
theorem convert_all_or_nothing [Regex.Limits] {w : World} (hw : w.tree.Closed) (file output : Path)
    (keepSyntax : Bool) :
    (Unfit w file output keepSyntax → LeavesAll w (run w (.convert file output keepSyntax))) ∧
    (¬ Unfit w file output keepSyntax → ∃ options manifests encoded goal,
      Prepared w file keepSyntax options manifests encoded ∧
      (∀ goal', GoesTo w.tree file output goal' ↔ goal' = goal) ∧
      (goal.Writable w.tree encoded →
        Received w encoded (run w (.convert file output keepSyntax)) goal ∧
        ((run w (.convert file output keepSyntax)).code = 0 ↔
          ∀ m ∈ manifests, ∃ m', Conversion.convert options m = .ok m') ∧
        ((run w (.convert file output keepSyntax)).code = 1 ↔
          ∃ m ∈ manifests, ∃ failure, Conversion.convert options m = .error failure)) ∧
      (¬ goal.Writable w.tree encoded →
        LeavesAll w (run w (.convert file output keepSyntax)))) := by
  constructor
  · intro hunfit
    obtain ⟨fatal, hfatal⟩ := convert_of_unfit hunfit
    exact leavesAll_of_fatal hfatal
  · intro hfit
    obtain ⟨options, manifests, encoded, hprepared⟩ := exists_prepared hfit
    obtain ⟨text, hprovides, -⟩ := hprepared.decoded
    obtain ⟨goal, hgoal⟩ := exists_goesTo hw hprovides
      fun ⟨ho, hd, hf⟩ => hfit (.directory ho hd hf)
    have hconvert := convert_of_prepared output hprepared
    refine ⟨options, manifests, encoded, goal, hprepared,
      fun goal' => ⟨hgoal.unique, fun he => he ▸ hgoal⟩, fun hwritable => ?_, fun hwritable => ?_⟩
    · obtain ⟨result, hdeliver, hreceived⟩ :=
        received_of_writable hgoal hwritable options manifests
      have hrun : run w (.convert file output keepSyntax) = delivered options manifests result := by
        rw [hdeliver] at hconvert
        exact congrArg (conclude w) hconvert
      rw [hrun]
      exact ⟨hreceived, code_delivered options manifests result⟩
    · obtain ⟨fatal, hfatal⟩ := deliver_of_not_writable hgoal hwritable
      rw [hfatal] at hconvert
      exact leavesAll_of_fatal hconvert

/-- A middleware of which only its name is left. -/
def exampleText : String :=
  "apiVersion: traefik.containo.us/v1alpha1\nkind: Middleware\n" ++
    "spec:\n  stripPrefix:\n    forceSlash: true\n"

/-- The middleware in a file, next to a directory, and on the standard input. -/
def exampleWorld : World where
  tree :=
    { entries := [(["work"], .directory), (["work", "in.yaml"], .file (.text exampleText)),
        (["work", "out"], .directory)]
      workingDirectory := ["work"] }
  environment := { home := some ⟨"/home"⟩ }
  input := .text exampleText

theorem convert_all_or_nothing_two_runs : exampleWorld.tree.Closed ∧
    LeavesAll exampleWorld (run exampleWorld (.convert stdio ⟨"out"⟩ false)) ∧
    ∃ encoded, Received exampleWorld encoded (run exampleWorld (.convert ⟨"in.yaml"⟩ ⟨"out"⟩ false))
      (.file ⟨"out/in.yaml"⟩) := by
  have hclosed : exampleWorld.tree.Closed := .of_entries (by decide) (by decide)
  have hout : exampleWorld.tree.isDirectory ⟨"out"⟩ = true := by decide
  have hfit : ¬ Unfit exampleWorld ⟨"in.yaml"⟩ ⟨"out"⟩ false := by
    intro h
    obtain ⟨fatal, hfatal⟩ := convert_of_unfit h
    have hok : (convert exampleWorld ⟨"in.yaml"⟩ ⟨"out"⟩ false).toOption.isSome = true := by
      decide +kernel
    rw [hfatal] at hok
    cases hok
  refine ⟨hclosed, (convert_all_or_nothing hclosed _ _ _).1 (.directory (by decide) hout rfl), ?_⟩
  obtain ⟨options, manifests, encoded, goal, -, hgoal, hwritten, -⟩ :=
    (convert_all_or_nothing hclosed ⟨"in.yaml"⟩ ⟨"out"⟩ false).2 hfit
  have hname : (⟨"in.yaml"⟩ : Path).fileName? = some "in.yaml" := by decide
  obtain rfl : .file ⟨"out/in.yaml"⟩ = goal :=
    (hgoal _).1 (.inDirectory (by decide) hout (by decide) hname)
  exact ⟨encoded, (hwritten ⟨_, rfl⟩).1⟩

end TraefikUpgrade.CommandLine
