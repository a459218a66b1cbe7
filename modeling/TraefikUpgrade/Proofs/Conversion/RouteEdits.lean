/-
# What the conversion changes in an ingress route

A converted ingress route is written like the one it comes from, after a few changes: it has the API
version of version 3, each route has its new rule, the annotations that are not taken over are gone, and
what sets nothing is taken out of the services and of the encryption (`editIngressRoute`). Lists are
changed item by item, so they keep their length and their order. As for middlewares, each part is a record
and keeps its form under the changes.

Key definitions: `mapItems`, `insertBefore`, `editService`, `editRoute`, `editTls`, `editMetadata`,
`editIngressRoute`.
Key theorems: `insertBefore_record`, `toValue_service`, `toValue_route`, `toValue_tls`,
`toValue_keepMetadata`, `toValue_ingressRoute`, `convert_ingressRoute_edits`.
-/
import TraefikUpgrade.Proofs.Conversion.Edits
import TraefikUpgrade.Proofs.Rule.Validation
import TraefikUpgrade.Proofs.Traversal

namespace TraefikUpgrade.Conversion

open Resource Text Yaml
open Resource.Manifest (mapEntries mapKey)

/-! ### Changes of the parts -/

/-- Changes the items of a list. -/
def mapItems (f : List Value → List Value) : Value → Value
  | .sequence items => .sequence (f items)
  | v => v

/-- Puts entries before the first one with one of the names, or else at the end. -/
def insertBefore (names : List String) (new entries : Entries) : Entries :=
  entries.takeWhile (fun entry => !isKeyOf names entry.1) ++ new ++
    entries.dropWhile (fun entry => !isKeyOf names entry.1)

/-- Whether a way to pass on responses has no interval. -/
def hasNoInterval (forwarding : Value) : Bool := (forwarding.get? "flushInterval").isNone

/-- Whether a tie to a server has no cookie, or one that sets nothing. -/
def tiesNothing (tie : Value) : Bool := (tie.get? "cookie").all isEmptyBlock

/-- Whether a value is the empty text. -/
def isEmptyText (v : Value) : Bool := v.same (.text "")

/-- Takes out of a service how responses are passed on and the tie to a server, where they set nothing. -/
def editService : Value → Value :=
  mapEntries fun entries => removeIf ["sticky"] tiesNothing
    (removeIf ["responseForwarding"] hasNoInterval entries)

/-- Gives a route a rule, and the name of its dialect if there is one. -/
def setRule (rule : String × Option String) (entries : Entries) : Entries :=
  insertBefore ["services", "middlewares"] (optionField "syntax" .text rule.2)
    (mapKey "match" (fun _ => .text rule.1) entries)

/-- Gives a route its new rule, and changes its services. -/
def editRoute (rule : String × Option String) : Value → Value :=
  mapEntries fun entries => mapKey "services" (mapItems (List.map editService)) (setRule rule entries)

/-- Takes empty texts out of the encryption. -/
def editTls : Value → Value := mapEntries (removeIf ["secretName", "certResolver"] isEmptyText)

/-- Changes the routes, each with the rule in its place, and the encryption. The latter is taken out if no
entry is left in it. -/
def editRouting (rules : List (String × Option String)) : Value → Value :=
  mapEntries fun entries => removeIf ["tls"] isEmptyBlock <| mapKey "tls" editTls <|
    mapKey "routes" (mapItems (List.zipWith editRoute rules)) entries

/-- Takes out the annotation with the last applied form and those that are named, and the annotations as a
whole if none is left. -/
def editMetadata (skipAnnotations : List String) : Value → Value :=
  mapEntries fun entries => removeIf ["annotations"] isEmptyBlock <|
    mapKey "annotations" (mapEntries (remove (lastApplied :: skipAnnotations))) entries

/-- All changes of an ingress route, with the new rule of each of its routes. -/
def editIngressRoute (skipAnnotations : List String) (rules : List (String × Option String)) :
    Value → Value :=
  mapEntries fun entries => mapKey "spec" (editRouting rules) <|
    mapKey "metadata" (editMetadata skipAnnotations) <|
    mapKey "apiVersion" (fun _ => .text "traefik.io/v1alpha1") entries

/-! ### Records without further entries -/

section
variable {slots : List Slot} {names : List String} {name : String}

theorem mapKey_fields (f : Value → Value) :
    mapKey name f (textKeys (recordFields slots .empty)) = textKeys (recordFields
      (slots.map fun slot => if slot.1 = name then (name, slot.2.map f) else slot) .empty) :=
  mapKey_record f fun _ he => absurd he List.not_mem_nil

theorem removeIf_fields (test : Value → Bool) :
    removeIf names test (textKeys (recordFields slots .empty)) = textKeys (recordFields
      (slots.map fun slot => if slot.1 ∈ names then (slot.1, slot.2.filter (!test ·)) else slot)
      .empty) :=
  removeIf_record test fun _ he => absurd he List.not_mem_nil

theorem isKeyOf_of_mem_slotFields (names : List String) {entry : Value × Value}
    (h : entry ∈ textKeys (slotFields slots)) : ∃ slot ∈ slots, isKeyOf names entry.1 = names.contains slot.1 := by
  obtain ⟨field, hfield, rfl⟩ := List.mem_map.1 h
  obtain ⟨slot, hslot, hfield⟩ := List.mem_flatMap.1 hfield
  obtain ⟨v, -, rfl⟩ := List.mem_map.1 hfield
  exact ⟨slot, hslot, rfl⟩

/-- A field is put before those with the names. -/
theorem insertBefore_record (before : List Slot) (new : Slot) (after : List Slot)
    (hbefore : ∀ slot ∈ before, slot.1 ∉ names)
    (hafter : ∀ slot ∈ after, slot.1 ∈ names) :
    insertBefore names (textKeys (slotFields [new])) (textKeys (recordFields (before ++ after) .empty)) =
      textKeys (recordFields (before ++ new :: after) .empty) := by
  have hfields : ∀ slots : List Slot, recordFields slots .empty = slotFields slots :=
    fun _ => List.append_nil _
  have hkeep : ∀ entry ∈ textKeys (slotFields before), (!isKeyOf names entry.1) = true := by
    intro entry he
    obtain ⟨slot, hslot, hkey⟩ := isKeyOf_of_mem_slotFields names he
    simpa [hkey] using hbefore slot hslot
  have hstop : ∀ entry ∈ textKeys (slotFields after), ¬ (!isKeyOf names entry.1) = true := by
    intro entry he
    obtain ⟨slot, hslot, hkey⟩ := isKeyOf_of_mem_slotFields names he
    simpa [hkey] using hafter slot hslot
  have htake : (textKeys (slotFields after)).takeWhile (fun e => !isKeyOf names e.1) = [] := by
    rw [List.takeWhile_eq_nil_iff]
    exact fun hpos => hstop _ (List.getElem_mem hpos)
  have hdrop : (textKeys (slotFields after)).dropWhile (fun e => !isKeyOf names e.1) =
      textKeys (slotFields after) := by
    rw [List.dropWhile_eq_self_iff]
    exact fun hpos => hstop _ (List.getElem_mem hpos)
  rw [hfields, hfields, ← slotFields_append, ← textKeys_append, insertBefore,
    List.takeWhile_append_of_pos hkeep, List.dropWhile_append_of_pos hkeep, htake, hdrop,
    List.append_nil, List.append_assoc, textKeys_append, textKeys_append, slotFields_append,
    slotFields_append, List.singleton_append]

end

/-! ### Services -/

/-- A cookie is written as it was. -/
theorem toValue_cookie (c : V2.Cookie) : (cookie c).toValue = c.toValue := by
  rw [V2.Cookie.toValue_eq, V3.Cookie.toValue_eq, record, record]
  simp [V2.Cookie.slots, V3.Cookie.slots, cookie, recordFields, slotFields]

/-- A cookie sets nothing if no entry is written of it. -/
theorem cookie_eq_empty_iff (c : V2.Cookie) : cookie c = {} ↔ isEmptyBlock c.toValue = true := by
  obtain ⟨name, secure, httpOnly, sameSite⟩ := c
  rw [V2.Cookie.toValue, isEmptyBlock_mapping]
  cases name <;> cases secure <;> cases httpOnly <;> cases sameSite <;>
    simp [cookie, optionField, field]

theorem tiesNothing_toValue (s : Sticky V2.Cookie) :
    tiesNothing (s.toValue V2.Cookie.toValue) = (sticky s).cookie.isNone := by
  obtain ⟨cookie?⟩ := s
  cases cookie? with
  | none => rfl
  | some c =>
    have hget : (Sticky.toValue V2.Cookie.toValue ⟨some c⟩).get? "cookie" = some c.toValue := rfl
    rw [tiesNothing, hget]
    by_cases hempty : cookie c = {}
    · simp [sticky, hempty, (cookie_eq_empty_iff c).1 hempty]
    · simp [sticky, Option.filter, hempty, mt (cookie_eq_empty_iff c).2 hempty]

/-- A tie to a server that is kept is written as it was. -/
theorem toValue_sticky {s : Sticky V2.Cookie} (h : (sticky s).cookie.isSome = true) :
    (sticky s).toValue V3.Cookie.toValue = s.toValue V2.Cookie.toValue := by
  obtain ⟨cookie?⟩ := s
  cases cookie? with
  | none => cases h
  | some c =>
    by_cases hempty : cookie c = {}
    · simp [sticky, hempty] at h
    · have hkept : sticky ⟨some c⟩ = ⟨some (cookie c)⟩ := by simp [sticky, Option.filter, hempty]
      rw [hkept]
      exact congrArg (fun v => Value.mapping (field "cookie" v)) (toValue_cookie c)

theorem hasNoInterval_toValue (r : ResponseForwarding) :
    hasNoInterval r.toValue = r.flushInterval.isNone := by
  obtain ⟨flushInterval⟩ := r
  cases flushInterval <;> rfl

/-- What is kept of a part, if a test of it is the test of what is written of it. -/
theorem map_filter_of_test {α β : Type} {write : α → Value} {write' : β → Value} {f : α → β}
    {test : Value → Bool} {keep : β → Bool} (htest : ∀ x, keep (f x) = !test (write x))
    (hwrite : ∀ x, keep (f x) = true → write' (f x) = write x) (o : Option α) :
    ((o.map f).filter keep).map write' = (o.map write).filter (!test ·) := by
  cases o with
  | none => rfl
  | some x =>
    cases hkeep : keep (f x) with
    | true => simp [Option.filter, hkeep, ← htest, hwrite x hkeep]
    | false => simp [Option.filter, hkeep, ← htest]

theorem toValue_service (s : Service V2.Cookie) :
    (service s).toValue V3.Cookie.toValue = editService (s.toValue V2.Cookie.toValue) := by
  have hforwarding : ((s.responseForwarding.map id).filter (·.flushInterval.isSome)).map
      ResponseForwarding.toValue =
      (s.responseForwarding.map ResponseForwarding.toValue).filter (!hasNoInterval ·) :=
    map_filter_of_test (fun r => by simp [hasNoInterval_toValue]) (fun _ _ => rfl) _
  have hsticky : ((s.sticky.map sticky).filter (·.cookie.isSome)).map
      (Sticky.toValue V3.Cookie.toValue) =
      (s.sticky.map (Sticky.toValue V2.Cookie.toValue)).filter (!tiesNothing ·) :=
    map_filter_of_test (fun t => by simp [tiesNothing_toValue]) (fun _ => toValue_sticky) _
  rw [Option.map_id_fun, id_eq] at hforwarding
  rw [Service.toValue_eq, Service.toValue_eq, record, record, editService, mapEntries, removeIf_fields,
    removeIf_fields]
  simp [Service.slots, service, hforwarding, hsticky]

/-! ### Routes -/

/-- A list of parts of which each is changed. -/
theorem listSlot_map {α β : Type} {write : α → Value} {write' : β → Value} {f : α → β}
    {change : Value → Value} (h : ∀ x, write' (f x) = change (write x)) (xs : List α) :
    listSlot write' (xs.map f) = (listSlot write xs).map (mapItems (List.map change)) := by
  cases xs with
  | nil => rfl
  | cons x xs => simp [listSlot, mapItems, h]

theorem toValue_route [Regex.Limits] {keepSyntax : Bool} {r : V2.Route} {r' : V3.Route}
    (h : route keepSyntax r = .ok r') :
    ∃ new, rule keepSyntax r = .ok new ∧ r'.toValue = editRoute new r.toValue := by
  obtain ⟨new, hnew, h⟩ := bind_eq_ok h
  cases h
  refine ⟨new, hnew, ?_⟩
  have hsyntax : optionField "syntax" .text new.2 = textKeys (slotFields [("syntax", new.2.map .text)]) :=
    optionField_eq _ _ _
  have hset : setRule new (textKeys (recordFields r.slots .empty)) = textKeys (recordFields
      [("match", some (.text new.1)), ("kind", some (.text r.kind)),
        ("priority", if r.priority = 0 then none else some (.int r.priority)),
        ("syntax", new.2.map .text), ("services", listSlot (Service.toValue V2.Cookie.toValue) r.services),
        ("middlewares", listSlot Reference.toValue r.middlewares)] .empty) := by
    rw [setRule, mapKey_fields, hsyntax]
    exact insertBefore_record [_, _, _] _ [_, _] (by simp) (by simp)
  rw [V2.Route.toValue_eq, V3.Route.toValue_eq, record, record, editRoute, mapEntries, hset,
    mapKey_fields]
  simp [V3.Route.slots, listSlot_map toValue_service]

/-! ### Encryption -/

/-- How connections are encrypted, without empty texts. -/
def keepTls (t : Tls) : Tls :=
  { t with secretName := nonEmpty? t.secretName, certResolver := nonEmpty? t.certResolver }

theorem map_nonEmpty? (text : Option String) :
    (nonEmpty? text).map Value.text = (text.map Value.text).filter (!isEmptyText ·) := by
  cases text with
  | none => rfl
  | some s =>
    by_cases hs : s = "" <;> simp [nonEmpty?, Option.filter, isEmptyText, Value.same, hs]

theorem toValue_keepTls (t : Tls) : (keepTls t).toValue = editTls t.toValue := by
  rw [Tls.toValue_eq, Tls.toValue_eq, record, record, editTls, mapEntries, removeIf_fields]
  simp [Tls.slots, keepTls, map_nonEmpty?]

theorem isEmptyBlock_tls (t : Tls) : isEmptyBlock t.toValue = decide (t = {}) := by
  obtain ⟨secretName, options, store, certResolver, domains⟩ := t
  rw [Tls.toValue, isEmptyBlock_mapping]
  cases secretName <;> cases options <;> cases store <;> cases certResolver <;> cases domains <;>
    simp [optionField, listField, field]

theorem tls?_eq (t : Tls) :
    tls? t = if isEmptyBlock (keepTls t).toValue then none else some (keepTls t) := by
  simp only [isEmptyBlock_tls, decide_eq_true_eq]
  rfl

/-- The encryption that is kept, as it is written. -/
theorem toValue_tls (t : Option Tls) : (t.bind tls?).map Tls.toValue =
    ((t.map Tls.toValue).map editTls).filter (!isEmptyBlock ·) := by
  rw [map_bind_block tls?_eq, Option.map_map]
  exact congrArg (Option.filter _) (Option.map_congr fun t _ => toValue_keepTls t)

/-! ### Metadata -/

theorem remove_annotations (skipAnnotations : List String) (d : Dictionary String) :
    remove (lastApplied :: skipAnnotations) (dictionaryEntries .text d) =
      dictionaryEntries .text (keepAnnotations skipAnnotations d) := by
  rw [remove, removeIf, dictionaryEntries, List.filter_map, dictionaryEntries]
  refine congrArg (List.map _) (List.filter_congr fun entry _ => congrArg not ?_)
  exact (Bool.and_true _).trans List.contains_cons

/-- A dictionary of which entries are taken out, and that is not written if none is left. -/
theorem dictionarySlot_keepAnnotations (skipAnnotations : List String) (d : Dictionary String) :
    dictionarySlot .text (keepAnnotations skipAnnotations d) =
      ((dictionarySlot .text d).map (mapEntries (remove (lastApplied :: skipAnnotations)))).filter
        (!isEmptyBlock ·) := by
  have hempty : isEmptyBlock (.mapping (dictionaryEntries .text (keepAnnotations skipAnnotations d))) =
      (keepAnnotations skipAnnotations d).isEmpty := by
    rw [isEmptyBlock_mapping, dictionaryEntries, List.isEmpty_map]
    rfl
  unfold dictionarySlot
  by_cases hd : d.isEmpty = true
  · have hkept : (keepAnnotations skipAnnotations d).isEmpty = true := by
      show (d.entries.filter _).isEmpty = true
      rw [List.isEmpty_iff.1 hd]
      rfl
    simp [hd, hkept]
  · simp only [hd, Bool.false_eq_true, reduceIte, Option.map_some, mapEntries, remove_annotations,
      Option.filter, hempty]
    cases (keepAnnotations skipAnnotations d).isEmpty <;> rfl

theorem toValue_keepMetadata (skipAnnotations : List String) (m : Metadata) :
    (keepMetadata skipAnnotations m).toValue = editMetadata skipAnnotations m.toValue := by
  rw [Metadata.toValue_eq, Metadata.toValue_eq, record, record, editMetadata, mapEntries, mapKey_fields,
    removeIf_fields]
  simp [Metadata.slots, keepMetadata, dictionarySlot_keepAnnotations]

/-! ### Ingress routes -/

theorem toValue_routes [Regex.Limits] {keepSyntax : Bool} {routes : List V2.Route}
    {routes' : List V3.Route}
    (h : List.Forall₂ (fun r r' => route keepSyntax r = .ok r') routes routes') :
    ∃ rules, List.Forall₂ (fun r new => rule keepSyntax r = .ok new) routes rules ∧
      routes'.map V3.Route.toValue = List.zipWith editRoute rules (routes.map V2.Route.toValue) := by
  induction h with
  | nil => exact ⟨[], .nil, rfl⟩
  | cons hr _ ih =>
    obtain ⟨new, hnew, heq⟩ := toValue_route hr
    obtain ⟨rules, hrules, hrest⟩ := ih
    exact ⟨new :: rules, .cons hnew hrules, by simp [heq, hrest]⟩

/-- What is written of a converted ingress route is what the changes make of what is written of the one it
comes from. -/
theorem toValue_ingressRoute [Regex.Limits] {options : Options} {r : V2.IngressRoute}
    {r' : V3.IngressRoute} (h : ingressRoute options r = .ok r') :
    ∃ rules, List.Forall₂ (fun route new => rule options.keepSyntax route = .ok new) r.spec.routes rules ∧
      (Manifest.ingressRouteV3 r').toValue =
        editIngressRoute options.skipAnnotations rules (Manifest.ingressRouteV2 r).toValue := by
  obtain ⟨routes, hroutes, h⟩ := bind_eq_ok h
  cases h
  obtain ⟨rules, hrules, heq⟩ := toValue_routes (mapM_eq_ok_iff.1 hroutes)
  refine ⟨rules, hrules, ?_⟩
  have hspec : Routing.toValue V3.Route.toValue ⟨routes, r.spec.entryPoints, r.spec.tls.bind tls?⟩ =
      editRouting rules (r.spec.toValue V2.Route.toValue) := by
    rw [Routing.toValue_eq, Routing.toValue_eq, record, record, editRouting, mapEntries, mapKey_fields,
      mapKey_fields, removeIf_fields]
    simp only [Routing.slots, toValue_tls, heq]
    simp [mapItems]
  rw [Manifest.toValue, Manifest.toValue, Object.toValue_eq, Object.toValue_eq, record, record,
    editIngressRoute, mapEntries, mapKey_fields, mapKey_fields, mapKey_fields]
  have hversion : GroupKind.apiVersion ⟨.v3, .ingressRoute⟩ = "traefik.io/v1alpha1" := by decide
  simp [Object.slots, hspec, hversion, toValue_keepMetadata]

/-- An ingress route is converted to one that is written like it, after the changes of `editIngressRoute`
with the new rule of each of its routes, and no others. -/
theorem convert_ingressRoute_edits [Regex.Limits] {options : Options} {r : V2.IngressRoute}
    {m : Manifest} (h : convert options (.ingressRouteV2 r) = .ok m) :
    ∃ r' rules, m = .ingressRouteV3 r' ∧
      List.Forall₂ (fun route new => rule options.keepSyntax route = .ok new) r.spec.routes rules ∧
      m.toValue =
        editIngressRoute options.skipAnnotations rules (Manifest.ingressRouteV2 r).toValue := by
  rw [convert] at h
  cases hr : ingressRoute options r with
  | error failure => rw [hr] at h; cases h
  | ok r' =>
    rw [hr] at h
    cases h
    obtain ⟨rules, hrules, heq⟩ := toValue_ingressRoute hr
    exact ⟨r', rules, rfl, hrules, heq⟩

/-- A route with a service of which two parts set nothing, and one with a cookie. -/
def exampleRoute : V2.Route where
  rule := "Path(`/c`)"
  kind := "Rule"
  services := [
    { name := "s", responseForwarding := some {}, weight := some 2
      sticky := some { cookie := some {} } },
    { name := "t", sticky := some { cookie := some { name := some "id" } } }]
  middlewares := [{ name := "auth" }]

/-- An ingress route with annotations, of which one is taken over, and with an empty text. -/
def exampleIngressRoute : V2.IngressRoute where
  apiVersion := "traefik.containo.us/v1alpha1"
  kind := "IngressRoute"
  metadata :=
    { name := "web"
      annotations := .ofEntries [(lastApplied, "{}"), ("owner", "a"), ("team", "b")] }
  spec :=
    { routes := [exampleRoute]
      entryPoints := ["websecure"]
      tls := some { secretName := some "", certResolver := some "le" } }

theorem rule_exampleRoute : rule true exampleRoute = .ok ("Path(`/c`)", some "v2") := by
  have htokens : Rule.tokenize "Path(`/c`)" = .ok [⟨0, .identifier "Path"⟩, ⟨4, .openParen⟩,
      ⟨5, .text "/c"⟩, ⟨9, .closeParen⟩] := Rule.eq_ok_of_toOption (by decide +kernel)
  have haccepts : Rule.Accepts .v2 ⟨"Path", ["/c"], 0⟩ := Rule.eq_ok_of_toOption (by decide +kernel)
  have hvalid : Rule.validate exampleRoute.rule .v2 exampleRoute.priority = .ok _ :=
    Rule.validate_of_call (Rule.parse_of_single htokens) haccepts
  rw [rule, hvalid]
  rfl

theorem convert_ingressRoute_edits_two_services :
    ∃ m, convert ⟨true, ["team"]⟩ (.ingressRouteV2 exampleIngressRoute) = .ok m ∧
      m.toValue = .mapping [(.text "apiVersion", .text "traefik.io/v1alpha1"),
        (.text "kind", .text "IngressRoute"),
        (.text "metadata", .mapping [(.text "name", .text "web"),
          (.text "annotations", .mapping [(.text "owner", .text "a")])]),
        (.text "spec", .mapping [
          (.text "routes", .sequence [.mapping [(.text "match", .text "Path(`/c`)"),
            (.text "kind", .text "Rule"), (.text "syntax", .text "v2"),
            (.text "services", .sequence [
              .mapping [(.text "name", .text "s"), (.text "weight", .int 2)],
              .mapping [(.text "name", .text "t"), (.text "sticky", .mapping [
                (.text "cookie", .mapping [(.text "name", .text "id")])])]]),
            (.text "middlewares", .sequence [.mapping [(.text "name", .text "auth")]])]]),
          (.text "entryPoints", .sequence [.text "websecure"]),
          (.text "tls", .mapping [(.text "certResolver", .text "le")])])] := by
  have hroute : ∃ route', route true exampleRoute = .ok route' := by
    rw [route, rule_exampleRoute]
    exact ⟨_, rfl⟩
  obtain ⟨route', hroute⟩ := hroute
  have hroutes : exampleIngressRoute.spec.routes.mapM (route true) = .ok [route'] :=
    mapM_eq_ok_iff.2 (.cons hroute .nil)
  have hconvert : ∃ m, convert ⟨true, ["team"]⟩ (.ingressRouteV2 exampleIngressRoute) = .ok m := by
    rw [convert, ingressRoute, hroutes]
    exact ⟨_, rfl⟩
  obtain ⟨m, hm⟩ := hconvert
  obtain ⟨r', rules, -, hrules, heq⟩ := convert_ingressRoute_edits hm
  have hone : rules = [("Path(`/c`)", some "v2")] := by
    obtain ⟨new, rest, hnew, hrest, rfl⟩ := List.forall₂_cons_left_iff.1 hrules
    cases rule_exampleRoute.symm.trans hnew
    rw [List.forall₂_nil_left_iff.1 hrest]
  refine ⟨m, hm, heq.trans ?_⟩
  rw [hone]
  rfl

end TraefikUpgrade.Conversion
