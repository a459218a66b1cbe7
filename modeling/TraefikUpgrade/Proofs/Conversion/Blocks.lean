/-
# Parts that set nothing

Where a part of a converted resource may be left out, it is left out if nothing is set in it
(`optionalParts`). The changes of the conversion take such parts out from the inside to the outside, so a
block goes with the last of its entries. There is one exception: the list of addresses of a middleware
stays. It is empty in the converted middleware if and only if the list that counts has no addresses and no
strategy that says something (`letsNothing`).

Key definitions: `reach`, `Holds`, `optionalParts`, `countingList`, `letsNothing`.
Key theorems: `mem_reach_key`, `Holds.of_removeIf`, `Holds.of_mapKey`,
`set_of_reach_editIngressRoute`, `set_of_reach_middleware`, `convert_omits_unset_parts`.
-/
import TraefikUpgrade.Proofs.Conversion.RouteEdits

namespace TraefikUpgrade.Conversion

open Resource Text Yaml
open Resource.Manifest (mapEntries mapKey)

/-! ### Ways into a value -/

/-- A step into a value: to the value of a key, or to each item of a list. -/
inductive Access where
  | key (name : String)
  | each
deriving DecidableEq, Repr

/-- The values to which a step leads. -/
def Access.step : Access → Value → List Value
  | .key name, v => (v.get? name).toList
  | .each, .sequence items => items
  | .each, _ => []

/-- The values at the end of a way. -/
def reach : List Access → Value → List Value
  | [], v => [v]
  | access :: way, v => (access.step v).flatMap (reach way)

/-- Whether a value is that of an entry with a name. -/
def Holds (name : String) (v : Value) (entries : Entries) : Prop :=
  ∃ entry ∈ entries, entry.1.isKey name = true ∧ entry.2 = v

section
variable {name other : String} {names : List String} {test : Value → Bool} {v x b : Value}
  {entries : Entries} {way : List Access}

theorem holds_of_lookup (h : Value.lookup name entries = some x) : Holds name x entries := by
  obtain ⟨entry, hfind, hx⟩ := Option.map_eq_some_iff.1 h
  have hkey : entry.1.isKey name = true := by simpa using List.find?_some hfind
  exact ⟨entry, List.mem_of_find?_eq_some hfind, hkey, hx⟩

/-- A way that begins with a key of a changed mapping goes on from an entry with the key. -/
theorem mem_reach_key {f : Entries → Entries} (h : b ∈ reach (.key name :: way) (mapEntries f v)) :
    ∃ entries x, Holds name x (f entries) ∧ b ∈ reach way x := by
  obtain ⟨x, hx, hb⟩ := List.mem_flatMap.1 h
  have hget : (mapEntries f v).get? name = some x := Option.mem_toList.1 hx
  rw [Value.get?, Manifest.entries?_mapEntries] at hget
  obtain ⟨entries', hentries, hlookup⟩ := Option.bind_eq_some_iff.1 hget
  obtain ⟨entries, -, rfl⟩ := Option.map_eq_some_iff.1 hentries
  exact ⟨entries, x, holds_of_lookup hlookup, hb⟩

/-- A way through the items of a changed list goes on from one of them. -/
theorem mem_reach_each {f : List Value → List Value} (h : b ∈ reach (.each :: way) (mapItems f v)) :
    ∃ items, ∃ x ∈ f items, b ∈ reach way x := by
  obtain ⟨x, hx, hb⟩ := List.mem_flatMap.1 h
  cases v with
  | sequence items => exact ⟨items, x, hx, hb⟩
  | _ => cases hx

namespace Holds

theorem of_removeIf (h : Holds name x (removeIf names test entries)) :
    Holds name x entries ∧ (name ∈ names → test x = false) := by
  obtain ⟨entry, he, hkey, rfl⟩ := h
  obtain ⟨hmem, hkept⟩ := List.mem_filter.1 he
  refine ⟨⟨entry, hmem, hkey, rfl⟩, fun hname => ?_⟩
  have hnames : isKeyOf names entry.1 = true := by
    obtain ⟨key, value⟩ := entry
    cases key with
    | text s => simpa [isKeyOf, beq_iff_eq.1 hkey] using hname
    | _ => cases hkey
  simpa [hnames] using hkept

theorem of_mapKey {f : Value → Value} (h : Holds name x (mapKey name f entries)) :
    ∃ y, Holds name y entries ∧ x = f y := by
  obtain ⟨entry', he, hkey, rfl⟩ := h
  obtain ⟨entry, hmem, rfl⟩ := List.mem_map.1 he
  by_cases hname : entry.1.isKey name = true
  · exact ⟨entry.2, ⟨entry, hmem, hname, rfl⟩, by rw [if_pos hname]⟩
  · rw [if_neg hname] at hkey
    exact absurd hkey hname

theorem of_mapKey_ne {f : Value → Value} (hne : name ≠ other)
    (h : Holds name x (mapKey other f entries)) : Holds name x entries := by
  obtain ⟨entry', he, hkey, rfl⟩ := h
  obtain ⟨entry, hmem, rfl⟩ := List.mem_map.1 he
  by_cases hother : entry.1.isKey other = true
  · rw [if_pos hother] at hkey
    rw [Manifest.isKey_of_ne hne hother] at hkey
    cases hkey
  · rw [if_neg hother] at hkey ⊢
    exact ⟨entry, hmem, hkey, rfl⟩

end Holds

end

theorem isEmptyBlock_iff {v : Value} : isEmptyBlock v = true ↔ v = .mapping [] := by
  cases v with
  | mapping entries => simp [isEmptyBlock_mapping]
  | _ => simp [isEmptyBlock, Value.same]

/-! ### Optional parts -/

/-- The services of an ingress route. -/
def servicesWay : List Access := [.key "spec", .key "routes", .each, .key "services", .each]

/-- The parts of a resource that are left out if nothing is set in them, each with the test of that. -/
def optionalParts : ResourceType → List (List Access × (Value → Bool))
  | .ingressRoute =>
    [([.key "spec", .key "tls"], isEmptyBlock),
      ([.key "spec", .key "tls", .key "secretName"], isEmptyText),
      ([.key "spec", .key "tls", .key "certResolver"], isEmptyText),
      (servicesWay ++ [.key "responseForwarding"], isEmptyBlock),
      (servicesWay ++ [.key "sticky"], isEmptyBlock),
      (servicesWay ++ [.key "sticky", .key "cookie"], isEmptyBlock)]
  | .middleware =>
    [([.key "spec", .key "headers"], isEmptyBlock),
      ([.key "spec", .key "stripPrefix"], isEmptyBlock),
      ([.key "spec", .key "contentType"], isEmptyBlock),
      ([.key "spec", .key "ipAllowList", .key "ipStrategy"], saysNothing)]

/-- The list of addresses that counts in a middleware of version 2. -/
def countingList (document : Value) : Option Value :=
  (document.get? "spec").bind fun spec => (spec.get? "ipAllowList").or (spec.get? "ipWhiteList")

/-- Whether a list of addresses has no addresses, and no strategy that says something. -/
def letsNothing (list : Value) : Bool :=
  (list.get? "sourceRange").isNone && (list.get? "ipStrategy").all saysNothing

/-! ### Ingress routes -/

section
variable {v b : Value} {way : List Access}

theorem set_of_reach_tls {name : String} (hname : name ∈ ["secretName", "certResolver"])
    (h : b ∈ reach [.key name] (editTls v)) : isEmptyText b = false := by
  obtain ⟨_, x, hx, hb⟩ := mem_reach_key h
  obtain rfl := List.mem_singleton.1 hb
  exact hx.of_removeIf.2 hname

theorem set_of_reach_forwarding (h : b ∈ reach [.key "responseForwarding"] (editService v)) :
    isEmptyBlock b = false := by
  obtain ⟨_, x, hx, hb⟩ := mem_reach_key h
  obtain rfl := List.mem_singleton.1 hb
  have hinterval : hasNoInterval b = false := hx.of_removeIf.1.of_removeIf.2 (List.mem_singleton.2 rfl)
  rw [← Bool.not_eq_true, isEmptyBlock_iff]
  rintro rfl
  cases hinterval

/-- A tie to a server that is left has a cookie that sets something. -/
theorem ties_of_reach_sticky (h : b ∈ reach (.key "sticky" :: way) (editService v)) :
    ∃ tie, tiesNothing tie = false ∧ b ∈ reach way tie := by
  obtain ⟨_, x, hx, hb⟩ := mem_reach_key h
  exact ⟨x, hx.of_removeIf.2 (List.mem_singleton.2 rfl), hb⟩

theorem set_of_reach_sticky (h : b ∈ reach [.key "sticky"] (editService v)) :
    isEmptyBlock b = false := by
  obtain ⟨tie, htie, hb⟩ := ties_of_reach_sticky h
  obtain rfl := List.mem_singleton.1 hb
  rw [← Bool.not_eq_true, isEmptyBlock_iff]
  rintro rfl
  cases htie

theorem set_of_reach_cookie (h : b ∈ reach [.key "sticky", .key "cookie"] (editService v)) :
    isEmptyBlock b = false := by
  obtain ⟨tie, htie, hb⟩ := ties_of_reach_sticky h
  obtain ⟨x, hx, hb⟩ := List.mem_flatMap.1 hb
  obtain rfl := List.mem_singleton.1 hb
  have hget : tie.get? "cookie" = some b := Option.mem_toList.1 hx
  rwa [tiesNothing, hget] at htie

/-- A way to the services of a changed ingress route goes on from a changed service. -/
theorem mem_reach_services {skip : List String} {rules : List (String × Option String)}
    (h : b ∈ reach (servicesWay ++ way) (editIngressRoute skip rules v)) :
    ∃ s, b ∈ reach way (editService s) := by
  obtain ⟨_, spec, hspec, h⟩ := mem_reach_key h
  obtain ⟨spec, -, rfl⟩ := hspec.of_mapKey
  obtain ⟨_, routes, hroutes, h⟩ := mem_reach_key h
  obtain ⟨routes, -, rfl⟩ := (hroutes.of_removeIf.1.of_mapKey_ne (by decide)).of_mapKey
  obtain ⟨items, route, hroute, h⟩ := mem_reach_each h
  obtain ⟨i, hi, rfl⟩ := List.mem_iff_getElem.1 hroute
  rw [List.getElem_zipWith] at h
  obtain ⟨_, services, hservices, h⟩ := mem_reach_key h
  obtain ⟨services, -, rfl⟩ := hservices.of_mapKey
  obtain ⟨items, s, hs, h⟩ := mem_reach_each h
  obtain ⟨s, -, rfl⟩ := List.mem_map.1 hs
  exact ⟨s, h⟩

/-- A way to the encryption of a changed ingress route goes on from a block that is left and was changed. -/
theorem mem_reach_routing_tls {skip : List String} {rules : List (String × Option String)}
    (h : b ∈ reach (.key "spec" :: .key "tls" :: way) (editIngressRoute skip rules v)) :
    ∃ t, isEmptyBlock (editTls t) = false ∧ b ∈ reach way (editTls t) := by
  obtain ⟨_, spec, hspec, h⟩ := mem_reach_key h
  obtain ⟨spec, -, rfl⟩ := hspec.of_mapKey
  obtain ⟨_, tls, htls, h⟩ := mem_reach_key h
  obtain ⟨hholds, htest⟩ := htls.of_removeIf
  obtain ⟨t, -, rfl⟩ := hholds.of_mapKey
  exact ⟨t, htest (List.mem_singleton.2 rfl), h⟩

/-- No optional part of a changed ingress route sets nothing. -/
theorem set_of_reach_editIngressRoute {skip : List String} {rules : List (String × Option String)} :
    ∀ part ∈ optionalParts .ingressRoute, ∀ b ∈ reach part.1 (editIngressRoute skip rules v),
      part.2 b = false := by
  simp only [optionalParts, List.forall_mem_cons]
  refine ⟨fun b h => ?_, fun b h => ?_, fun b h => ?_, fun b h => ?_, fun b h => ?_, fun b h => ?_, nofun⟩
  · obtain ⟨t, ht, hb⟩ := mem_reach_routing_tls h
    rwa [List.mem_singleton.1 hb]
  · obtain ⟨t, -, hb⟩ := mem_reach_routing_tls h
    exact set_of_reach_tls (by simp) hb
  · obtain ⟨t, -, hb⟩ := mem_reach_routing_tls h
    exact set_of_reach_tls (by simp) hb
  · obtain ⟨s, hb⟩ := mem_reach_services h
    exact set_of_reach_forwarding hb
  · obtain ⟨s, hb⟩ := mem_reach_services h
    exact set_of_reach_sticky hb
  · obtain ⟨s, hb⟩ := mem_reach_services h
    exact set_of_reach_cookie hb

/-! ### Middlewares -/

theorem reach_spec {σ : Type} (writeSpec : σ → Value) (o : Object σ) :
    reach (.key "spec" :: way) (o.toValue writeSpec) = reach way (writeSpec o.spec) :=
  List.append_nil _

theorem set_of_reach_block {name : String} (hname : name ∈ ["headers", "stripPrefix", "contentType"])
    (h : b ∈ reach [.key name] (editSpec v)) : isEmptyBlock b = false := by
  obtain ⟨_, x, hx, hb⟩ := mem_reach_key h
  obtain rfl := List.mem_singleton.1 hb
  exact hx.of_removeIf.2 hname

theorem set_of_reach_strategy (h : b ∈ reach [.key "ipAllowList", .key "ipStrategy"] (editSpec v)) :
    saysNothing b = false := by
  obtain ⟨_, list, hlist, h⟩ := mem_reach_key h
  obtain ⟨list, -, rfl⟩ := hlist.of_removeIf.1.of_mapKey
  obtain ⟨_, x, hx, hb⟩ := mem_reach_key h
  obtain rfl := List.mem_singleton.1 hb
  exact hx.of_removeIf.2 (List.mem_singleton.2 rfl)

/-- No optional part of a changed middleware sets nothing. -/
theorem set_of_reach_middleware {o : Object V3.MiddlewareSpec} {spec : Value}
    (hspec : o.spec.toValue = editSpec spec) :
    ∀ part ∈ optionalParts .middleware, ∀ b ∈ reach part.1 (o.toValue V3.MiddlewareSpec.toValue),
      part.2 b = false := by
  simp only [optionalParts, List.forall_mem_cons, reach_spec, hspec]
  refine ⟨fun b h => ?_, fun b h => ?_, fun b h => ?_, fun b h => ?_, nofun⟩
  · exact set_of_reach_block (by simp) h
  · exact set_of_reach_block (by simp) h
  · exact set_of_reach_block (by simp) h
  · exact set_of_reach_strategy h

end

/-- A list of addresses is empty after the conversion if and only if it let nothing before. -/
theorem isEmptyBlock_allowList (l : V2.IpWhiteList) :
    isEmptyBlock (allowList l).toValue = letsNothing l.toValue := by
  have hd : Distinct l.slots .empty := .of_nodup (by simp [V2.IpWhiteList.slots])
  rw [letsNothing, V2.IpWhiteList.toValue_eq, get?_record hd 0 rfl, get?_record hd 1 rfl]
  obtain ⟨sourceRange, ipStrategy⟩ := l
  rw [V3.IpAllowList.toValue, isEmptyBlock_mapping]
  cases sourceRange with
  | cons s ss => simp [allowList, listField, field, listSlot]
  | nil =>
    cases ipStrategy with
    | none => rfl
    | some s =>
      cases hs : s.isUnset <;>
        simp [allowList, listField, optionField, field, listSlot, Option.filter, hs, saysNothing_toValue]

/-- The list of addresses of a converted middleware is the changed one that counts. -/
theorem reach_allowList {m : V2.Middleware} (h : m.spec.Fits) (skip : List String) :
    (reach [.key "spec", .key "ipAllowList"] (Manifest.middlewareV3 (middleware skip m)).toValue).map
      isEmptyBlock =
      (countingList (Manifest.middlewareV2 m).toValue).toList.map letsNothing := by
  have hget : (middlewareSpec m.spec).toValue.get? "ipAllowList" =
      ((m.spec.ipAllowList.or m.spec.ipWhiteList).map allowList).map V3.IpAllowList.toValue := by
    rw [V3.MiddlewareSpec.toValue_eq]
    exact get?_record (distinct_middlewareSpec h) 3 rfl
  have hcounts : countingList (Manifest.middlewareV2 m).toValue =
      (m.spec.ipAllowList.or m.spec.ipWhiteList).map V2.IpWhiteList.toValue := by
    show (m.spec.toValue.get? "ipAllowList").or (m.spec.toValue.get? "ipWhiteList") = _
    rw [V2.MiddlewareSpec.toValue_eq, get?_record (distinct_spec h) 4 rfl,
      get?_record (distinct_spec h) 3 rfl, Option.map_or]
  have hreach : reach [.key "spec", .key "ipAllowList"]
      (Manifest.middlewareV3 (middleware skip m)).toValue =
      ((middlewareSpec m.spec).toValue.get? "ipAllowList").toList :=
    (reach_spec _ _).trans (List.flatMap_singleton' _)
  rw [hreach, hcounts, hget]
  cases m.spec.ipAllowList.or m.spec.ipWhiteList with
  | none => rfl
  | some l => exact congrArg (fun b => [b]) (isEmptyBlock_allowList l)

/-! ### Converted resources -/

/-- A converted resource has no optional part that sets nothing. The list of addresses of a middleware is
there if the one it comes from has one, and is empty if and only if the list that counts has no addresses
and no strategy that says something. -/
theorem convert_omits_unset_parts [Regex.Limits] {document : Value} {registry : Registry} {number : Nat}
    {options : Options} {m m' : Manifest} {type : ResourceType}
    (h : Manifest.ofValue document registry number = .ok m) (hkind : m.groupKind? = some ⟨.v2, type⟩)
    (hm : convert options m = .ok m') :
    (∀ part ∈ optionalParts type, ∀ v ∈ reach part.1 m'.toValue, part.2 v = false) ∧
    (type = .middleware →
      (reach [.key "spec", .key "ipAllowList"] m'.toValue).map isEmptyBlock =
        (countingList m.toValue).toList.map letsNothing) := by
  have hfits := (Manifest.fits_of_ofValue h).spec
  cases m with
  | ingressRouteV2 r =>
    cases hkind
    rw [convert] at hm
    cases hr : ingressRoute options r with
    | error failure => rw [hr] at hm; cases hm
    | ok r' =>
      rw [hr] at hm
      cases hm
      obtain ⟨rules, -, heq⟩ := toValue_ingressRoute hr
      rw [heq]
      exact ⟨set_of_reach_editIngressRoute, fun htype => by cases htype⟩
  | middlewareV2 o =>
    cases hkind
    cases hm
    exact ⟨set_of_reach_middleware (toValue_middlewareSpec hfits), fun _ => reach_allowList hfits _⟩
  | ingressRouteV3 r => cases hkind
  | middlewareV3 o => cases hkind
  | untyped v => cases hkind

/-- A middleware with a block of removed options and a list of addresses that lets nothing. -/
def emptyListDocument : Value :=
  .mapping [(.text "apiVersion", .text "traefik.containo.us/v1alpha1"), (.text "kind", .text "Middleware"),
    (.text "metadata", .mapping [(.text "name", .text "open")]),
    (.text "spec", .mapping [
      (.text "stripPrefix", .mapping [(.text "forceSlash", .bool true)]),
      (.text "ipWhiteList", .mapping [(.text "ipStrategy", .mapping [(.text "depth", .int 0)])])])]

theorem convert_omits_unset_parts_empty_list :
    ∃ m m', Manifest.ofValue emptyListDocument GroupKind.all 0 = .ok m ∧
      m.groupKind? = some ⟨.v2, .middleware⟩ ∧ convert {} m = .ok m' ∧
      (∀ v ∈ reach [.key "spec", .key "stripPrefix"] m'.toValue, isEmptyBlock v = false) ∧
      (reach [.key "spec", .key "ipAllowList"] m'.toValue).map isEmptyBlock = [true] := by
  have hread : ∃ m, Manifest.ofValue emptyListDocument GroupKind.all 0 = .ok (.middlewareV2 m) := ⟨_, rfl⟩
  obtain ⟨m, h⟩ := hread
  have hconvert : convert {} (.middlewareV2 m) = .ok (.middlewareV3 (middleware [] m)) := rfl
  obtain ⟨hparts, hlist⟩ := convert_omits_unset_parts h rfl hconvert
  have hstripPrefix : ([.key "spec", .key "stripPrefix"], isEmptyBlock) ∈ optionalParts .middleware := by
    simp [optionalParts]
  refine ⟨_, _, h, rfl, hconvert, hparts _ hstripPrefix, (hlist rfl).trans ?_⟩
  cases h
  rfl

/-- The list of addresses of a converted middleware may be an empty block. -/
theorem convert_keeps_empty_list :
    ∃ m m' : Manifest, Manifest.ofValue (.mapping [
        (.text "apiVersion", .text "traefik.containo.us/v1alpha1"), (.text "kind", .text "Middleware"),
        (.text "spec", .mapping [(.text "ipWhiteList", .mapping [])])]) GroupKind.all 0 = .ok m ∧
      convert {} m = .ok m' ∧
      m'.toValue.get? "spec" = some (.mapping [(.text "ipAllowList", .mapping [])]) :=
  ⟨_, _, rfl, rfl, rfl⟩

end TraefikUpgrade.Conversion
