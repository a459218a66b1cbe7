/-
# Rules that are their own upgrade

A rule of version 3 may hold matchers that have the same name in version 2, and its upgrade reads them
as those of version 2. So not every upgraded rule is its own upgrade: an expression for a host is taken
for a template and escaped again (`upgrade_not_idempotent`), and the key and the value of a query become
two queries. A call is settled if it is no matcher of version 2, or has one value that is no template
and is written just as its upgrade would be. These calls, and no others, stay as they are
(`upgradeFragment_eq_self_iff`), and no changes of several calls make up for each other, so a rule is its
own upgrade exactly if all calls in it are settled.

Key definitions: `Settled`.
Key theorems: `callAt?_text`, `forms_eq_self_iff`, `upgradeText_eq_self_iff`, `upgrade_again_iff`.
-/
import TraefikUpgrade.Proofs.Rule.Refinement

namespace TraefikUpgrade.Rule

/-! ### The text of a call is found as the call -/

theorem readArgs_text (rest : List Char) : ∀ {args : List String} {blanks : List Char}, args ≠ [] →
    (∀ arg ∈ args, '\x60' ∉ arg.toList) → (∀ b ∈ blanks, Unicode.isWhiteSpace b = true) →
    readArgs (blanks ++
        ((String.intercalate ", " (args.map fun arg => "`" ++ arg ++ "`") ++ ")").toList ++ rest)) =
      some (args.map String.toList, rest)
  | [], _, h, _, _ => absurd rfl h
  | [value], blanks, _, h, hb => by
    have hv := Text.cutAt_append (h value (List.mem_singleton_self value)) (')' :: rest)
    have hs : (String.intercalate ", " ([value].map fun arg => "`" ++ arg ++ "`") ++ ")").toList ++
        rest = '\x60' :: (value.toList ++ '\x60' :: ')' :: rest) := by simp
    rw [hs]
    exact readArgs_last (afterBlanks_append hb rfl) hv
      (afterBlanks_append (List.forall_mem_nil _) rfl)
  | value :: value' :: values, blanks, _, h, hb => by
    rw [List.forall_mem_cons] at h
    have hv := Text.cutAt_append h.1 (',' :: ([' '] ++ ((String.intercalate ", "
      ((value' :: values).map fun arg => "`" ++ arg ++ "`") ++ ")").toList ++ rest)))
    have ih := readArgs_text rest (List.cons_ne_nil value' values) h.2
      (List.forall_mem_singleton.2 rfl : ∀ b ∈ [' '], Unicode.isWhiteSpace b = true)
    have hs : (String.intercalate ", " ((value :: value' :: values).map fun arg => "`" ++ arg ++ "`") ++
        ")").toList ++ rest = '\x60' :: (value.toList ++ '\x60' :: ',' :: ([' '] ++
          ((String.intercalate ", " ((value' :: values).map fun arg => "`" ++ arg ++ "`") ++
            ")").toList ++ rest))) := by
      simp [String.intercalate_cons_cons]
    rw [hs, readArgs_more (afterBlanks_append hb rfl) hv
      (afterBlanks_append (List.forall_mem_nil _) rfl), ih]
    rfl

/-- Whether a call has arguments, and can be found and written with them in backticks. -/
def Call.Written (c : Call) : Prop := c.Findable ∧ c.name ≠ "" ∧ ∀ arg ∈ c.args, '\x60' ∉ arg.toList

theorem callAt?_text {c : Call} (h : c.Written) (rest : List Char) :
    callAt? (c.text.toList ++ rest) = some (⟨c.name.toList, c.args.map String.toList⟩, rest) := by
  obtain ⟨⟨hargs, hword⟩, hname, hticks⟩ := h
  have hs : c.text.toList ++ rest = c.name.toList ++ '(' :: ((String.intercalate ", "
      (c.args.map fun arg => "`" ++ arg ++ "`") ++ ")").toList ++ rest) := by
    simp [Call.text, callText]
  rw [hs]
  exact callAt?_append (by simpa using hname) hword
    (readArgs_text rest hargs hticks (List.forall_mem_nil _))

/-- A call is found with its text only once. -/
theorem text_eq_of_callAt? {c : Call} {site : CallSite} {source after rest : List Char}
    (hc : c.Written) (h : callAt? (source ++ rest) = some (site, rest))
    (he : c.text.toList ++ after = source ++ rest) :
    site = ⟨c.name.toList, c.args.map String.toList⟩ ∧ after = rest := by
  rw [← he, callAt?_text hc] at h
  cases h
  exact ⟨rfl, rfl⟩

/-! ### The forms of a call that is found -/

/-- The names of the matchers that calls are upgraded to. -/
def formNames : List String :=
  ["Path", "PathPrefix", "PathRegexp", "Host", "HostRegexp", "ClientIP", "Method", "Header",
    "HeaderRegexp", "Query", "QueryRegexp"]

theorem name_of_templatedForm [Regex.Limits] {name regexpName : String} {kind : MatchKind} {offset : Nat}
    {arg : String} {f : Call} (h : templatedForm name regexpName kind offset arg = .ok f) :
    (f.name = name ∨ f.name = regexpName) ∧ f.args ≠ [] ∧ f.offset = offset := by
  unfold templatedForm at h
  split at h
  · cases hp : compile arg kind with
    | error fault => rw [hp] at h; cases h
    | ok p =>
      rw [hp] at h
      cases h
      exact ⟨.inr rfl, List.cons_ne_nil _ _, rfl⟩
  · cases h
    exact ⟨.inl rfl, List.cons_ne_nil _ _, rfl⟩

theorem name_of_queryForm [Regex.Limits] {offset : Nat} {arg : String} {f : Call}
    (h : queryForm offset arg = .ok f) :
    (f.name = "Query" ∨ f.name = "QueryRegexp") ∧ f.args ≠ [] ∧ f.offset = offset := by
  unfold queryForm at h
  split at h
  · cases h
    exact ⟨.inl rfl, List.cons_ne_nil _ _, rfl⟩
  · cases h
    exact ⟨.inl rfl, List.cons_ne_nil _ _, rfl⟩
  · next key value _ _ =>
    cases hp : compile (String.ofList value) .query with
    | error fault => rw [hp] at h; cases h
    | ok p =>
      rw [hp] at h
      cases h
      split
      · exact ⟨.inr rfl, List.cons_ne_nil _ _, rfl⟩
      · exact ⟨.inl rfl, List.cons_ne_nil _ _, rfl⟩

/-- A form of a call is the call itself or a call of one of a few matchers. -/
theorem name_of_forms [Regex.Limits] {c : Call} {fs : List Call} (h : c.forms = .ok fs) :
    ∀ f ∈ fs, f = c ∨ f.name ∈ formNames ∧ f.args ≠ [] ∧ f.offset = c.offset := by
  have htemplated : ∀ {name regexpName : String} {kind : MatchKind}, name ∈ formNames →
      regexpName ∈ formNames → c.args.mapM (templatedForm name regexpName kind c.offset) = .ok fs →
      ∀ f ∈ fs, f = c ∨ f.name ∈ formNames ∧ f.args ≠ [] ∧ f.offset = c.offset := by
    intro name regexpName kind hn hr hm f hf
    obtain ⟨arg, -, he⟩ := (mem_of_mapM hm).1 f hf
    obtain ⟨hname, hrest⟩ := name_of_templatedForm he
    exact .inr ⟨by rcases hname with hname | hname <;> rw [hname] <;> assumption, hrest⟩
  have hsingle : ∀ {name : String}, name ∈ formNames →
      ∀ f ∈ c.args.map fun arg => Call.mk name [arg] c.offset,
        f = c ∨ f.name ∈ formNames ∧ f.args ≠ [] ∧ f.offset = c.offset := by
    intro name hn f hf
    obtain ⟨arg, -, rfl⟩ := List.mem_map.1 hf
    exact .inr ⟨hn, List.cons_ne_nil _ _, rfl⟩
  have hheader : ∀ {name : String}, name ∈ formNames → ∀ f ∈ [headerForm name c],
      f = c ∨ f.name ∈ formNames ∧ f.args ≠ [] ∧ f.offset = c.offset := by
    intro name hn f hf
    rw [List.mem_singleton.1 hf, headerForm]
    split
    · exact .inr ⟨hn, List.cons_ne_nil _ _, rfl⟩
    · exact .inl rfl
  unfold Call.forms at h
  split at h
  · cases h
    exact fun f hf => .inl (List.mem_singleton.1 hf)
  split at h
  · exact htemplated (by decide) (by decide) h
  · exact htemplated (by decide) (by decide) h
  · exact htemplated (by decide) (by decide) h
  · cases h
    exact hsingle (by decide)
  · cases h
    exact hsingle (by decide)
  · cases h
    exact hheader (by decide)
  · cases h
    exact hheader (by decide)
  · intro f hf
    obtain ⟨arg, -, he⟩ := (mem_of_mapM h).1 f hf
    obtain ⟨hname, hrest⟩ := name_of_queryForm he
    exact .inr ⟨by rcases hname with hname | hname <;> rw [hname] <;> decide, hrest⟩
  · cases h
    exact fun f hf => .inl (List.mem_singleton.1 hf)

/-- The names of a matcher. -/
theorem name_of_ofName {name : String} {m : Matcher} (h : Matcher.ofName name = m) :
    match m with
    | .path => name = "Path"
    | .pathPrefix => name = "PathPrefix"
    | .host => name = "Host" ∨ name = "HostHeader" ∨ name = "HostRegexp"
    | .clientIP => name = "ClientIP"
    | .method => name = "Method"
    | .headers => name = "Headers"
    | .headersRegexp => name = "HeadersRegexp"
    | .query => name = "Query"
    | .opaqueCall => True := by
  unfold Matcher.ofName at h
  split at h <;> subst h <;> simp

theorem formNames_word : ∀ name ∈ formNames, name ≠ "" ∧ isName name = true ∧
    ∀ d ∈ name.toList, Unicode.isWord d = true := by
  have hall : ∀ name ∈ formNames, name ≠ "" ∧ isName name = true ∧
      name.toList.all Unicode.isWord = true := by decide
  intro name hname
  obtain ⟨hne, hn, hw⟩ := hall name hname
  exact ⟨hne, hn, List.all_eq_true.1 hw⟩

theorem isName_of_ofName {name : String} (h : Matcher.ofName name ≠ .opaqueCall) :
    isName name = true := by
  unfold Matcher.ofName at h
  split at h
  iterate 10 decide
  exact absurd rfl h

theorem written_of_forms [Regex.Limits] {c : Call} {fs : List Call} (hc : c.Written)
    (h : c.forms = .ok fs) :
    ∀ f ∈ fs, f.Written := by
  intro f hf
  rcases name_of_forms h f hf with rfl | ⟨hname, hargs, -⟩
  · exact hc
  obtain ⟨hne, -, hword⟩ := formNames_word f.name hname
  refine ⟨⟨hargs, hword⟩, hne, ?_⟩
  by_cases hm : Matcher.ofName c.name = .opaqueCall
  · unfold Call.forms at h
    rw [hm, ite_self] at h
    cases h
    rw [List.mem_singleton.1 hf]
    exact hc.2.2
  · exact (plain_of_forms h ⟨isName_of_ofName hm, hc.2.2⟩ f hf).2

/-! ### A call that is the only form of itself -/

/-- Whether a call with arguments is the only form of itself. -/
def Call.Stable (c : Call) : Prop :=
  match Matcher.ofName c.name with
  | .path | .pathPrefix => ∃ arg, c.args = [arg] ∧ hasMetacharacter arg = false
  | .host => c.name = "Host" ∧ ∃ arg, c.args = [arg] ∧ hasMetacharacter arg = false
  | .clientIP | .method => ∃ arg, c.args = [arg]
  | .headers | .headersRegexp => c.args.length < 2
  | .query => ∃ arg, c.args = [arg] ∧ '=' ∉ arg.toList
  | .opaqueCall => True

theorem mapM_eq_singleton_iff {α β ε : Type} {f : α → Except ε β} {l : List α} {b : β} :
    l.mapM f = .ok [b] ↔ ∃ a, l = [a] ∧ f a = .ok b := by
  constructor
  · intro h
    match l with
    | [] => cases h
    | [a] =>
      rw [List.mapM_cons, List.mapM_nil] at h
      obtain ⟨b', hb, h⟩ := bind_eq_ok h
      cases h
      exact ⟨a, rfl, hb⟩
    | a :: a' :: l =>
      rw [List.mapM_cons, List.mapM_cons] at h
      obtain ⟨b', -, h⟩ := bind_eq_ok h
      obtain ⟨bs, hbs, h⟩ := bind_eq_ok h
      obtain ⟨b'', -, hbs⟩ := bind_eq_ok hbs
      obtain ⟨bs', -, hbs⟩ := bind_eq_ok hbs
      cases hbs
      cases h
  · rintro ⟨a, rfl, h⟩
    rw [List.mapM_cons, h]
    rfl

/-- A template is never its own expression. -/
theorem templatedForm_eq_self_iff [Regex.Limits] {name regexpName arg : String} {kind : MatchKind}
    {c : Call} (hargs : c.args = [arg]) : templatedForm name regexpName kind c.offset arg = .ok c ↔
      c.name = name ∧ hasMetacharacter arg = false := by
  obtain ⟨cname, cargs, offset⟩ := c
  obtain rfl : cargs = [arg] := hargs
  unfold templatedForm
  by_cases hm : hasMetacharacter arg = true
  · refine iff_of_false (fun h => ?_) fun h => by rw [h.2] at hm; cases hm
    rw [if_pos hm] at h
    cases hp : compile arg kind with
    | error fault => rw [hp] at h; cases h
    | ok p =>
      have hlt := length_lt_of_compile hp
      rw [hp] at h
      cases h
      exact Nat.lt_irrefl _ hlt
  · rw [if_neg hm]
    simp [hm, eq_comm]

theorem queryForm_eq_self_iff [Regex.Limits] {arg : String} {c : Call} (hargs : c.args = [arg])
    (hname : c.name = "Query") : queryForm c.offset arg = .ok c ↔ '=' ∉ arg.toList := by
  obtain ⟨cname, cargs, offset⟩ := c
  obtain rfl : cargs = [arg] := hargs
  obtain rfl : cname = "Query" := hname
  rw [← Text.cutAt_eq_none_iff]
  unfold queryForm
  rcases hc : Text.cutAt '=' arg.toList with _ | ⟨key, _ | ⟨d, ds⟩⟩
  · simp
  · have hlen := congrArg List.length (Text.eq_append_of_cutAt hc)
    refine iff_of_false (fun h => ?_) (by simp)
    cases h
    simp at hlen
  · refine iff_of_false (fun h => ?_) (by simp)
    dsimp only at h
    cases hp : compile (String.ofList (d :: ds)) .query with
    | error fault => rw [hp] at h; cases h
    | ok p =>
      rw [hp] at h
      simp only [Except.map, Except.ok.injEq] at h
      split at h <;> simp at h

theorem headerForm_eq_self_iff {name : String} {c : Call} (hname : c.name ≠ name) :
    headerForm name c = c ↔ c.args.length < 2 := by
  unfold headerForm
  split
  · next key value rest hc =>
    refine iff_of_false (fun h => hname ?_) (by simp [hc])
    rw [← h]
  · next hc =>
    refine iff_of_true rfl ?_
    rcases hargs : c.args with _ | ⟨key, _ | ⟨value, rest⟩⟩
    · simp
    · simp
    · exact absurd hargs (hc key value rest)

theorem map_call_eq_self_iff {name : String} {c : Call} (hname : c.name = name) :
    (c.args.map fun arg => Call.mk name [arg] c.offset) = [c] ↔ ∃ arg, c.args = [arg] := by
  obtain ⟨cname, args, offset⟩ := c
  obtain rfl : cname = name := hname
  rcases args with _ | ⟨arg, _ | ⟨arg', args⟩⟩ <;> simp

theorem forms_eq_self_iff [Regex.Limits] {c : Call} (hargs : c.args ≠ []) :
    c.forms = .ok [c] ↔ c.Stable := by
  have htemplated : ∀ {name regexpName : String} {kind : MatchKind},
      c.args.mapM (templatedForm name regexpName kind c.offset) = .ok [c] ↔
        c.name = name ∧ ∃ arg, c.args = [arg] ∧ hasMetacharacter arg = false := by
    intro name regexpName kind
    rw [mapM_eq_singleton_iff]
    constructor
    · rintro ⟨arg, ha, h⟩
      obtain ⟨hn, hm⟩ := (templatedForm_eq_self_iff ha).1 h
      exact ⟨hn, arg, ha, hm⟩
    · rintro ⟨hn, arg, ha, hm⟩
      exact ⟨arg, ha, (templatedForm_eq_self_iff ha).2 ⟨hn, hm⟩⟩
  have hsingle : ∀ {name : String}, c.name = name →
      ((.ok (c.args.map fun arg => Call.mk name [arg] c.offset) : Except Pattern.Fault (List Call)) =
        .ok [c] ↔ ∃ arg, c.args = [arg]) := by
    intro name hn
    rw [Except.ok.injEq, map_call_eq_self_iff hn]
  have hempty : c.args.isEmpty = false := by simpa using hargs
  unfold Call.forms Call.Stable
  rw [hempty]
  cases hm : Matcher.ofName c.name with
  | path => exact htemplated.trans (and_iff_right (name_of_ofName hm))
  | pathPrefix => exact htemplated.trans (and_iff_right (name_of_ofName hm))
  | host => exact htemplated
  | clientIP => exact hsingle (name_of_ofName hm)
  | method => exact hsingle (name_of_ofName hm)
  | headers =>
    have hname : c.name ≠ "Header" := (name_of_ofName hm : c.name = "Headers") ▸ by decide
    simpa using headerForm_eq_self_iff hname
  | headersRegexp =>
    have hname : c.name ≠ "HeaderRegexp" :=
      (name_of_ofName hm : c.name = "HeadersRegexp") ▸ by decide
    simpa using headerForm_eq_self_iff hname
  | query =>
    show c.args.mapM (queryForm c.offset) = .ok [c] ↔ _
    rw [mapM_eq_singleton_iff]
    exact exists_congr fun arg => and_congr_right fun ha =>
      queryForm_eq_self_iff ha (name_of_ofName hm)
  | opaqueCall => simp

/-! ### A call that is its own upgrade -/

/-- Whether a call without another form is copied as it is written. -/
def Matcher.copies : Matcher → Bool
  | .headers | .headersRegexp | .opaqueCall => true
  | _ => false

theorem upgrade_eq_none_iff [Regex.Limits] {c : Call} (hargs : c.args ≠ []) :
    (Matcher.ofName c.name).upgrade c.args = .ok none ↔
      (Matcher.ofName c.name).copies = true ∧ c.Stable := by
  have hempty : c.args.isEmpty = false := by simpa using hargs
  have hsome : ∀ {α : Type} {x : Except Pattern.Fault α} {f : α → String},
      (x >>= fun a => pure (some (f a))) ≠ .ok none := by
    intro α x f h
    obtain ⟨a, -, h⟩ := bind_eq_ok h
    cases h
  have hheader : ∀ {name : String}, headerCall? name c.args = none ↔ c.args.length < 2 := by
    intro name
    rcases c.args with _ | ⟨key, _ | ⟨value, rest⟩⟩ <;> simp [headerCall?]
  unfold Matcher.upgrade Call.Stable
  rw [hempty]
  cases Matcher.ofName c.name with
  | path => exact iff_of_false hsome (by simp [Matcher.copies])
  | pathPrefix => exact iff_of_false hsome (by simp [Matcher.copies])
  | host => exact iff_of_false hsome (by simp [Matcher.copies])
  | clientIP => simp [Matcher.copies]
  | method => simp [Matcher.copies]
  | headers => simp [Matcher.copies, hheader]
  | headersRegexp => simp [Matcher.copies, hheader]
  | query => exact iff_of_false hsome (by simp [Matcher.copies])
  | opaqueCall => simp [Matcher.copies]

/-- Whether a call with its text is its own upgrade: it has no other form, and is copied or written just
as its form is. -/
def Settled (site : CallSite) (source : List Char) : Prop :=
  (site.call 0).Stable ∧
    ((Matcher.ofName (site.call 0).name).copies = true ∨ (site.call 0).text.toList = source)

section
variable {site : CallSite} {source rest : List Char}

theorem written_of_callAt? (h : callAt? (source ++ rest) = some (site, rest)) :
    (site.call 0).Written := by
  obtain ⟨hname, hne, tail, -, hr⟩ := callAt?_eq_some h
  obtain ⟨hargs, hticks, -⟩ := spells_of_readArgs tail hr
  refine ⟨⟨by simpa [CallSite.call] using hargs, fun d hd => ?_⟩, fun he => hne ?_, fun arg ha => ?_⟩
  · rw [CallSite.call, String.toList_ofList, hname] at hd
    exact List.all_eq_true.1 List.all_takeWhile d hd
  · rw [← String.toList_ofList (l := site.name)]
    exact congrArg String.toList he
  · obtain ⟨arg', ha', rfl⟩ := List.mem_map.1 ha
    rw [String.toList_ofList]
    exact hticks arg' ha'

/-- Alternatives that are not one call begin with a parenthesis, and so are no call. -/
theorem eq_singleton_of_anyOf {fs : List Call} {after : List Char} (hne : fs ≠ [])
    (h : callAt? (source ++ rest) = some (site, rest))
    (he : (anyOf (fs.map Call.text)).toList ++ after = source ++ rest) : ∃ f, fs = [f] := by
  match fs with
  | [] => exact absurd rfl hne
  | [f] => exact ⟨f, rfl⟩
  | f :: f' :: fs =>
    rw [← he] at h
    simp [anyOf, callAt?_of_isWord (rfl : Unicode.isWord '(' = false)] at h

/-- A call whose new text still begins the text that the call begins is its own upgrade. -/
theorem settled_of_append [Regex.Limits] {piece after : List Char}
    (h : callAt? (source ++ rest) = some (site, rest))
    (hu : upgradeFragment (.call site source) = .ok piece) (he : piece ++ after = source ++ rest) :
    Settled site source ∧ after = rest := by
  have hw := written_of_callAt? h
  rw [upgradeFragment_call 0] at hu
  rcases upgrade_cases (site.call 0) with ⟨fault, -, hf⟩ | ⟨fs, hne, hf, hs | ⟨hs, rfl⟩⟩
  · rw [hf] at hu
    cases hu
  · rw [hs] at hu
    obtain rfl : (anyOf (fs.map Call.text)).toList = piece := Except.ok.inj hu
    obtain ⟨f, rfl⟩ := eq_singleton_of_anyOf hne h he
    have hf' := written_of_forms hw hf f (List.mem_singleton_self f)
    obtain ⟨hsite, rfl⟩ := text_eq_of_callAt? hf' h he
    have hoffset : f.offset = 0 := by
      rcases name_of_forms hf f (List.mem_singleton_self f) with rfl | ⟨-, -, ho⟩
      · rfl
      · exact ho
    obtain rfl : f = site.call 0 := by
      rw [hsite, CallSite.call, ← hoffset]
      simp
    exact ⟨⟨(forms_eq_self_iff hw.1.1).1 hf, .inr (List.append_cancel_right he)⟩, rfl⟩
  · rw [hs] at hu
    obtain rfl : source = piece := Except.ok.inj hu
    obtain ⟨hc, hstable⟩ := (upgrade_eq_none_iff hw.1.1).1 hs
    exact ⟨⟨hstable, .inl hc⟩, List.append_cancel_left he⟩

/-- The calls that stay as they are. -/
theorem upgradeFragment_eq_self_iff [Regex.Limits] (h : callAt? (source ++ rest) = some (site, rest)) :
    upgradeFragment (.call site source) = .ok source ↔ Settled site source := by
  refine ⟨fun hu => (settled_of_append h hu rfl).1, fun ⟨hstable, hs⟩ => ?_⟩
  have hargs := (written_of_callAt? h).1.1
  have hforms := (forms_eq_self_iff hargs).2 hstable
  rw [upgradeFragment_call 0]
  rcases upgrade_cases (site.call 0) with ⟨fault, hf, -⟩ | ⟨fs, -, hf, hu | ⟨hu, -⟩⟩
  · rw [hforms] at hf
    cases hf
  · rw [hforms] at hf
    cases hf
    rcases hs with hc | hs
    · rw [(upgrade_eq_none_iff hargs).2 ⟨hc, hstable⟩] at hu
      cases hu
    · rw [hu, ← hs]
      rfl
  · rw [hu]
    rfl

end

/-! ### A text that is its own upgrade -/

/-- Whether the pieces of a text have new texts that make up the text again. -/
def Unchanged [Regex.Limits] (cs : List Char) : Prop :=
  ∃ pieces, (fragments cs).mapM upgradeFragment = .ok pieces ∧ pieces.flatten = cs

theorem unchanged_other [Regex.Limits] {c : Char} {tail : List Char} (h : callAt? (c :: tail) = none) :
    Unchanged (c :: tail) ↔ Unchanged tail := by
  unfold Unchanged
  rw [fragments_other h, List.mapM_cons]
  constructor
  · rintro ⟨pieces, hm, hf⟩
    obtain ⟨piece, hp, hm⟩ := bind_eq_ok hm
    obtain ⟨pieces', hm', hm⟩ := bind_eq_ok hm
    cases hp
    cases hm
    exact ⟨pieces', hm', List.tail_eq_of_cons_eq hf⟩
  · rintro ⟨pieces, hm, hf⟩
    exact ⟨[c] :: pieces, by rw [hm]; rfl, congrArg (c :: ·) hf⟩

/-- Texts that do not stay as they are cannot make up for each other. -/
theorem unchanged_call [Regex.Limits] {site : CallSite} {source rest : List Char}
    (h : callAt? (source ++ rest) = some (site, rest)) :
    Unchanged (source ++ rest) ↔ Settled site source ∧ Unchanged rest := by
  unfold Unchanged
  rw [fragments_of_callAt? h, List.mapM_cons]
  constructor
  · rintro ⟨pieces, hm, hf⟩
    obtain ⟨piece, hp, hm⟩ := bind_eq_ok hm
    obtain ⟨pieces', hm', hm⟩ := bind_eq_ok hm
    cases hm
    obtain ⟨hs, hrest⟩ := settled_of_append h hp hf
    exact ⟨hs, pieces', hm', hrest⟩
  · rintro ⟨hs, pieces, hm, hf⟩
    refine ⟨source :: pieces, ?_, by rw [List.flatten_cons, hf]⟩
    rw [(upgradeFragment_eq_self_iff h).2 hs, hm]
    rfl

theorem unchanged_iff [Regex.Limits] (cs : List Char) :
    Unchanged cs ↔ ∀ site source, .call site source ∈ fragments cs → Settled site source := by
  match cs with
  | [] => simp [Unchanged, pure, Except.pure]
  | c :: tail =>
    cases h : callAt? (c :: tail) with
    | none =>
      rw [unchanged_other h, unchanged_iff tail, fragments_other h]
      simp
    | some found =>
      obtain ⟨site, rest⟩ := found
      have hlt := length_lt_of_callAt? h
      obtain ⟨source, hs⟩ := suffix_of_callAt? h
      rw [← hs] at h ⊢
      rw [unchanged_call h, unchanged_iff rest, fragments_of_callAt? h]
      simp only [List.mem_cons, Fragment.call.injEq]
      exact ⟨fun ⟨hs, hr⟩ _ _ hm => hm.elim (fun he => he.1 ▸ he.2 ▸ hs) (hr _ _),
        fun hall => ⟨hall _ _ (.inl ⟨rfl, rfl⟩), fun _ _ hm => hall _ _ (.inr hm)⟩⟩
termination_by cs.length
decreasing_by
  · exact Nat.lt_succ_self _
  · exact hlt

/-- The rules whose calls all stay as they are. -/
theorem upgradeText_eq_self_iff [Regex.Limits] {rule : String} : upgradeText rule = .ok rule ↔
    ∀ site source, .call site source ∈ fragments rule.toList → Settled site source := by
  rw [← unchanged_iff]
  unfold upgradeText Unchanged
  constructor
  · intro h
    obtain ⟨pieces, hm, h⟩ := bind_eq_ok h
    refine ⟨pieces, hm, ?_⟩
    rw [← String.toList_ofList (l := pieces.flatten)]
    exact congrArg String.toList (Except.ok.inj h)
  · rintro ⟨pieces, hm, hf⟩
    rw [hm]
    exact congrArg Except.ok ((congrArg String.ofList hf).trans String.ofList_toList)

/-- An upgraded rule is its own upgrade exactly if all calls in it are settled. -/
theorem upgrade_again_iff [Regex.Limits] {rule rule' : String} {priority : Int}
    (h : upgrade rule priority = .ok rule') : upgrade rule' priority = .ok rule' ↔
      ∀ site source, .call site source ∈ fragments rule'.toList → Settled site source := by
  obtain ⟨-, hvalid⟩ := upgrade_eq_ok_iff.1 h
  rw [upgrade_eq_ok_iff, and_iff_left hvalid, upgradeText_eq_self_iff]

theorem upgrade_again_header_and_host :
    upgrade "Headers(`X`, `y`) && HostHeader(`a.b`)" 0 = .ok "Header(`X`, `y`) && Host(`a.b`)" ∧
      upgrade "Header(`X`, `y`) && Host(`a.b`)" 0 = .ok "Header(`X`, `y`) && Host(`a.b`)" := by
  have ht : tokenize "Header(`X`, `y`) && Host(`a.b`)" = .ok [⟨0, .identifier "Header"⟩,
      ⟨6, .openParen⟩, ⟨7, .text "X"⟩, ⟨10, .comma⟩, ⟨12, .text "y"⟩, ⟨15, .closeParen⟩,
      ⟨17, .conjunction⟩, ⟨20, .identifier "Host"⟩, ⟨24, .openParen⟩, ⟨25, .text "a.b"⟩,
      ⟨30, .closeParen⟩] := eq_ok_of_toOption (by decide +kernel)
  have hp := parse_of_derives ht (.conjunction (.and _
    (.operand (.call _ _ (.some _ (.more _ _ _ (.last _ _ _ _)))))
    (.call _ _ (.some _ (.last _ _ _ _)))))
  have hvalid : ∃ route, validate "Header(`X`, `y`) && Host(`a.b`)" .v3 0 = .ok route := by
    refine (exists_validate_iff (by decide) hp).2 ?_
    have h1 : Accepts .v3 ⟨"Header", ["X", "y"], 0⟩ := eq_ok_of_toOption (by decide +kernel)
    have h2 : Accepts .v3 ⟨"Host", ["a.b"], 20⟩ := eq_ok_of_toOption (by decide +kernel)
    simp [Expr.calls, h1, h2]
  have hu : upgrade "Headers(`X`, `y`) && HostHeader(`a.b`)" 0 =
      .ok "Header(`X`, `y`) && Host(`a.b`)" :=
    upgrade_eq_ok_iff.2 ⟨eq_ok_of_toOption (by decide +kernel), hvalid⟩
  refine ⟨hu, (upgrade_again_iff hu).2 ?_⟩
  have hf : fragments "Header(`X`, `y`) && Host(`a.b`)".toList =
      .call ⟨"Header".toList, [['X'], ['y']]⟩ "Header(`X`, `y`)".toList ::
        " && ".toList.map .other ++ [.call ⟨"Host".toList, [['a', '.', 'b']]⟩ "Host(`a.b`)".toList] := by
    decide +kernel
  have hheader : Settled ⟨"Header".toList, [['X'], ['y']]⟩ "Header(`X`, `y`)".toList :=
    ⟨trivial, .inl rfl⟩
  have hhost : Settled ⟨"Host".toList, [['a', '.', 'b']]⟩ "Host(`a.b`)".toList :=
    ⟨⟨rfl, "a.b", rfl, by decide⟩, .inr (by decide)⟩
  intro site source hm
  rw [hf, List.mem_append, List.mem_cons, List.mem_singleton] at hm
  rcases hm with (hm | hm) | hm
  · cases hm
    exact hheader
  · simp at hm
  · cases hm
    exact hhost

/-- The expression for a host is taken for a template, and its dots are escaped again. -/
theorem upgrade_not_idempotent : ¬ ∀ (rule rule' : String) (priority : Int),
    upgrade rule priority = .ok rule' → upgrade rule' priority = .ok rule' := by
  intro h
  have ht : tokenize "HostRegexp(`^(?P<s>[a-z]+)\\.b$`)" = .ok [⟨0, .identifier "HostRegexp"⟩,
      ⟨10, .openParen⟩, ⟨11, .text "^(?P<s>[a-z]+)\\.b$"⟩, ⟨31, .closeParen⟩] :=
    eq_ok_of_toOption (by decide +kernel)
  have ha : Accepts .v3 ⟨"HostRegexp", ["^(?P<s>[a-z]+)\\.b$"], 0⟩ :=
    eq_ok_of_toOption (by decide +kernel)
  have hu : upgrade "Host(`\x7bs:[a-z]+\x7d.b`)" 0 = .ok "HostRegexp(`^(?P<s>[a-z]+)\\.b$`)" :=
    upgrade_eq_ok_iff.2 ⟨eq_ok_of_toOption (by decide +kernel), _,
      validate_of_call (parse_of_single ht) ha⟩
  have hnot : ¬ Settled ⟨"HostRegexp".toList, ["^(?P<s>[a-z]+)\\.b$".toList]⟩
      "HostRegexp(`^(?P<s>[a-z]+)\\.b$`)".toList :=
    fun hs => absurd hs.1.1 (by decide)
  refine hnot (upgradeText_eq_self_iff.1 (upgrade_eq_ok_iff.1 (h _ _ 0 hu)).1 _ _ ?_)
  decide +kernel

end TraefikUpgrade.Rule
