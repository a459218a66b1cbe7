/-
# Specifications that are read back

The routes and middlewares of both versions are records, too. What they keep as it is given must have no
tags and none of the names that they know, else it would be read as something else or not at all. What
was read is always such that it can be written and read back.

Key definitions: `V2.Route.Fits`, `V2.MiddlewareSpec.Fits`, `V3.Route.Fits`, `V3.MiddlewareSpec.Fits`.
Key theorems: `V2.Route.restores`, `V2.MiddlewareSpec.restores`, `V3.Route.restores`,
`V3.MiddlewareSpec.restores`, and `fits_of_read?` for each of them.
-/
import TraefikUpgrade.Proofs.Resource.Parts
import TraefikUpgrade.Resource.V2
import TraefikUpgrade.Resource.V3

namespace TraefikUpgrade.Resource

open Yaml Text

attribute [local simp] field_eq optionField_eq listField_eq dictionaryField_eq omittedField_eq
  dictionaryEntries_id textKeys_append slotFields_append mapping_slotFields mapping_recordFields

/-! ### Version 2 -/

namespace V2

namespace Cookie

def slots (c : Cookie) : List Slot :=
  [("name", c.name.map .text), ("secure", c.secure.map .bool), ("httpOnly", c.httpOnly.map .bool),
    ("sameSite", c.sameSite.map .text)]

theorem toValue_eq (c : Cookie) : c.toValue = record c.slots .empty := by simp [toValue, slots]

theorem restores (c : Cookie) : Restores read? toValue c := by
  refine .of_eq c.toValue_eq ?_ (record_ne_null _ _)
  have hd : Distinct c.slots .empty := .of_nodup (by simp [slots])
  rw [read?, fields?_record]
  simp only [↓Option.bind_eq_bind, ↓Option.bind_some]
  rw [option?_slot hd 0 (fun s _ => restores_text s) rfl,
    option?_slot hd 1 (fun b _ => restores_bool b) rfl,
    option?_slot hd 2 (fun b _ => restores_bool b) rfl,
    option?_slot hd 3 (fun s _ => restores_text s) rfl]
  rfl

end Cookie

namespace Route

def slots (r : Route) : List Slot :=
  [("match", some (.text r.rule)), ("kind", some (.text r.kind)),
    ("priority", if r.priority = 0 then none else some (.int r.priority)),
    ("services", listSlot (Service.toValue Cookie.toValue) r.services),
    ("middlewares", listSlot Reference.toValue r.middlewares)]

theorem toValue_eq (r : Route) : r.toValue = record r.slots .empty := by simp [toValue, slots]

/-- Whether the numbers of a route can be read. -/
structure Fits (r : Route) : Prop where
  priority : isInt64 r.priority = true
  services : ∀ s ∈ r.services, s.Fits fun _ => True

theorem restores {r : Route} (h : r.Fits) : Restores read? toValue r := by
  refine .of_eq r.toValue_eq ?_ (record_ne_null _ _)
  have hd : Distinct r.slots .empty := .of_nodup (by simp [slots])
  have hs : ∀ s ∈ r.services, Restores (Service.read? Cookie.read?) (Service.toValue Cookie.toValue) s :=
    fun s hs => Service.restores ((h.services s hs).imp fun c _ => c.restores)
  rw [read?, fields?_record]
  simp only [↓Option.bind_eq_bind, ↓Option.bind_some]
  rw [required?_slot hd 0 _ rfl, orDefault?_slot hd 1 _ _ rfl,
    orDefault?_slot_of_omitted hd 2 (restores_int h.priority) rfl, list?_slot hd 3 hs rfl,
    list?_slot hd 4 (fun r _ => r.restores) rfl]
  rfl

theorem fits_of_read? {v : Value} {r : Route} (h : read? v = some r) : r.Fits := by
  simp only [read?, ↓Option.bind_eq_bind, ↓Option.bind_eq_some_iff] at h
  obtain ⟨f, -, rule, -, kind, -, priority, hpriority, services, hservices, middlewares, -, h⟩ := h
  cases h
  constructor
  · rcases orDefault?_eq_some hpriority with rfl | ⟨v, hv⟩
    · rfl
    · exact isInt64_of_readInt? hv
  · intro s hs
    obtain ⟨v, hv⟩ := list?_eq_some hservices s hs
    exact (Service.fits_of_read? hv).imp fun _ _ => trivial

end Route

namespace Headers

/-- The options that were removed. -/
abbrev known : List String :=
  ["sslRedirect", "sslTemporaryRedirect", "sslHost", "sslForceHost", "featurePolicy"]

def slots (h : Headers) : List Slot :=
  [("sslRedirect", h.sslRedirect.map .bool), ("sslTemporaryRedirect", h.sslTemporaryRedirect.map .bool),
    ("sslHost", h.sslHost.map .text), ("sslForceHost", h.sslForceHost.map .bool),
    ("featurePolicy", h.featurePolicy.map .text)]

theorem toValue_eq (h : Headers) : h.toValue = record h.slots h.settings := by simp [toValue, slots]

theorem restores {x : Headers} (h : Leftover known x.settings) : Restores read? toValue x := by
  refine .of_eq x.toValue_eq ?_ (record_ne_null _ _)
  have hd : Distinct x.slots x.settings := .of_leftover (by simp [slots]) h
  rw [read?, fields?_record]
  simp only [↓Option.bind_eq_bind, ↓Option.bind_some]
  rw [option?_slot hd 0 (fun b _ => restores_bool b) rfl,
    option?_slot hd 1 (fun b _ => restores_bool b) rfl,
    option?_slot hd 2 (fun s _ => restores_text s) rfl,
    option?_slot hd 3 (fun b _ => restores_bool b) rfl,
    option?_slot hd 4 (fun s _ => restores_text s) rfl, others?_record hd h rfl]
  rfl

theorem leftover_of_read? {v : Value} {x : Headers} (h : read? v = some x) :
    Leftover known x.settings := by
  simp only [read?, ↓Option.bind_eq_bind, ↓Option.bind_eq_some_iff] at h
  obtain ⟨f, -, a, -, b, -, c, -, d, -, e, -, settings, hsettings, h⟩ := h
  cases h
  exact others?_eq_some hsettings

end Headers

namespace StripPrefix

def slots (s : StripPrefix) : List Slot :=
  [("prefixes", listSlot .text s.prefixes), ("forceSlash", s.forceSlash.map .bool)]

theorem toValue_eq (s : StripPrefix) : s.toValue = record s.slots .empty := by simp [toValue, slots]

theorem restores (s : StripPrefix) : Restores read? toValue s := by
  refine .of_eq s.toValue_eq ?_ (record_ne_null _ _)
  have hd : Distinct s.slots .empty := .of_nodup (by simp [slots])
  rw [read?, fields?_record]
  simp only [↓Option.bind_eq_bind, ↓Option.bind_some]
  rw [list?_slot hd 0 (fun s _ => restores_text s) rfl,
    option?_slot hd 1 (fun b _ => restores_bool b) rfl]
  rfl

end StripPrefix

namespace ContentType

abbrev known : List String := ["autoDetect"]

def slots (c : ContentType) : List Slot := [("autoDetect", c.autoDetect.map .bool)]

theorem toValue_eq (c : ContentType) : c.toValue = record c.slots c.settings := by
  simp [toValue, slots]

theorem restores {x : ContentType} (h : Leftover known x.settings) : Restores read? toValue x := by
  refine .of_eq x.toValue_eq ?_ (record_ne_null _ _)
  have hd : Distinct x.slots x.settings := .of_leftover (by simp [slots]) h
  rw [read?, fields?_record]
  simp only [↓Option.bind_eq_bind, ↓Option.bind_some]
  rw [option?_slot hd 0 (fun b _ => restores_bool b) rfl, others?_record hd h rfl]
  rfl

theorem leftover_of_read? {v : Value} {x : ContentType} (h : read? v = some x) :
    Leftover known x.settings := by
  simp only [read?, ↓Option.bind_eq_bind, ↓Option.bind_eq_some_iff] at h
  obtain ⟨f, -, a, -, settings, hsettings, h⟩ := h
  cases h
  exact others?_eq_some hsettings

end ContentType

namespace IpWhiteList

def slots (l : IpWhiteList) : List Slot :=
  [("sourceRange", listSlot .text l.sourceRange), ("ipStrategy", l.ipStrategy.map IpStrategy.toValue)]

theorem toValue_eq (l : IpWhiteList) : l.toValue = record l.slots .empty := by simp [toValue, slots]

/-- Whether the number of the strategy can be read. -/
def Fits (l : IpWhiteList) : Prop := ∀ s ∈ l.ipStrategy, s.Fits

theorem restores {l : IpWhiteList} (h : l.Fits) : Restores read? toValue l := by
  refine .of_eq l.toValue_eq ?_ (record_ne_null _ _)
  have hd : Distinct l.slots .empty := .of_nodup (by simp [slots])
  rw [read?, fields?_record]
  simp only [↓Option.bind_eq_bind, ↓Option.bind_some]
  rw [list?_slot hd 0 (fun s _ => restores_text s) rfl,
    option?_slot hd 1 (fun s hs => IpStrategy.restores (h s hs)) rfl]
  rfl

theorem fits_of_read? {v : Value} {l : IpWhiteList} (h : read? v = some l) : l.Fits := by
  simp only [read?, ↓Option.bind_eq_bind, ↓Option.bind_eq_some_iff] at h
  obtain ⟨f, -, sourceRange, -, ipStrategy, hstrategy, h⟩ := h
  cases h
  intro s hs
  obtain ⟨v, hv⟩ := option?_eq_some hstrategy s hs
  exact IpStrategy.fits_of_read? hv

end IpWhiteList

namespace MiddlewareSpec

abbrev known : List String := ["headers", "stripPrefix", "contentType", "ipWhiteList", "ipAllowList"]

def slots (s : MiddlewareSpec) : List Slot :=
  [("headers", s.headers.map Headers.toValue), ("stripPrefix", s.stripPrefix.map StripPrefix.toValue),
    ("contentType", s.contentType.map ContentType.toValue),
    ("ipWhiteList", s.ipWhiteList.map IpWhiteList.toValue),
    ("ipAllowList", s.ipAllowList.map IpWhiteList.toValue)]

theorem toValue_eq (s : MiddlewareSpec) : s.toValue = record s.slots s.other := by
  simp [toValue, slots]

/-- Whether the blocks of a middleware can be read back. -/
structure Fits (s : MiddlewareSpec) : Prop where
  headers : ∀ x ∈ s.headers, Leftover Headers.known x.settings
  contentType : ∀ x ∈ s.contentType, Leftover ContentType.known x.settings
  ipWhiteList : ∀ l ∈ s.ipWhiteList, l.Fits
  ipAllowList : ∀ l ∈ s.ipAllowList, l.Fits
  other : Leftover known s.other

theorem restores {s : MiddlewareSpec} (h : s.Fits) : Restores read? toValue s := by
  refine .of_eq s.toValue_eq ?_ (record_ne_null _ _)
  have hd : Distinct s.slots s.other := .of_leftover (by simp [slots]) h.other
  rw [read?, fields?_record]
  simp only [↓Option.bind_eq_bind, ↓Option.bind_some]
  rw [option?_slot hd 0 (fun x hx => Headers.restores (h.headers x hx)) rfl,
    option?_slot hd 1 (fun x _ => x.restores) rfl,
    option?_slot hd 2 (fun x hx => ContentType.restores (h.contentType x hx)) rfl,
    option?_slot hd 3 (fun l hl => IpWhiteList.restores (h.ipWhiteList l hl)) rfl,
    option?_slot hd 4 (fun l hl => IpWhiteList.restores (h.ipAllowList l hl)) rfl,
    others?_record hd h.other rfl]
  rfl

theorem fits_of_read? {v : Value} {s : MiddlewareSpec} (h : read? v = some s) : s.Fits := by
  simp only [read?, ↓Option.bind_eq_bind, ↓Option.bind_eq_some_iff] at h
  obtain ⟨f, -, headers, hheaders, stripPrefix, -, contentType, hcontentType, white, hwhite, allow,
    hallow, other, hother, h⟩ := h
  cases h
  refine ⟨fun x hx => ?_, fun x hx => ?_, fun l hl => ?_, fun l hl => ?_, others?_eq_some hother⟩
  · obtain ⟨v, hv⟩ := option?_eq_some hheaders x hx
    exact Headers.leftover_of_read? hv
  · obtain ⟨v, hv⟩ := option?_eq_some hcontentType x hx
    exact ContentType.leftover_of_read? hv
  · obtain ⟨v, hv⟩ := option?_eq_some hwhite l hl
    exact IpWhiteList.fits_of_read? hv
  · obtain ⟨v, hv⟩ := option?_eq_some hallow l hl
    exact IpWhiteList.fits_of_read? hv

end MiddlewareSpec

end V2

/-! ### Version 3 -/

namespace V3

namespace Cookie

def slots (c : Cookie) : List Slot :=
  [("name", c.name.map .text), ("secure", c.secure.map .bool), ("httpOnly", c.httpOnly.map .bool),
    ("sameSite", c.sameSite.map .text), ("maxAge", c.maxAge.map .int), ("path", c.path.map .text)]

theorem toValue_eq (c : Cookie) : c.toValue = record c.slots .empty := by simp [toValue, slots]

/-- Whether the number of a cookie can be read. -/
def Fits (c : Cookie) : Prop := ∀ n ∈ c.maxAge, isInt64 n = true

theorem restores {c : Cookie} (h : c.Fits) : Restores read? toValue c := by
  refine .of_eq c.toValue_eq ?_ (record_ne_null _ _)
  have hd : Distinct c.slots .empty := .of_nodup (by simp [slots])
  rw [read?, fields?_record]
  simp only [↓Option.bind_eq_bind, ↓Option.bind_some]
  rw [option?_slot hd 0 (fun s _ => restores_text s) rfl,
    option?_slot hd 1 (fun b _ => restores_bool b) rfl,
    option?_slot hd 2 (fun b _ => restores_bool b) rfl,
    option?_slot hd 3 (fun s _ => restores_text s) rfl,
    option?_slot hd 4 (fun n hn => restores_int (h n hn)) rfl,
    option?_slot hd 5 (fun s _ => restores_text s) rfl]
  rfl

theorem fits_of_read? {v : Value} {c : Cookie} (h : read? v = some c) : c.Fits := by
  simp only [read?, ↓Option.bind_eq_bind, ↓Option.bind_eq_some_iff] at h
  obtain ⟨f, -, name, -, secure, -, httpOnly, -, sameSite, -, maxAge, hmaxAge, path, -, h⟩ := h
  cases h
  intro n hn
  obtain ⟨v, hv⟩ := option?_eq_some hmaxAge n hn
  exact isInt64_of_readInt? hv

end Cookie

namespace Route

def slots (r : Route) : List Slot :=
  [("match", some (.text r.rule)), ("kind", some (.text r.kind)),
    ("priority", if r.priority = 0 then none else some (.int r.priority)),
    ("syntax", r.ruleSyntax.map .text),
    ("services", listSlot (Service.toValue Cookie.toValue) r.services),
    ("middlewares", listSlot Reference.toValue r.middlewares)]

theorem toValue_eq (r : Route) : r.toValue = record r.slots .empty := by simp [toValue, slots]

/-- Whether the numbers of a route can be read. -/
structure Fits (r : Route) : Prop where
  priority : isInt64 r.priority = true
  services : ∀ s ∈ r.services, s.Fits Cookie.Fits

theorem restores {r : Route} (h : r.Fits) : Restores read? toValue r := by
  refine .of_eq r.toValue_eq ?_ (record_ne_null _ _)
  have hd : Distinct r.slots .empty := .of_nodup (by simp [slots])
  have hs : ∀ s ∈ r.services, Restores (Service.read? Cookie.read?) (Service.toValue Cookie.toValue) s :=
    fun s hs => Service.restores ((h.services s hs).imp fun _ => Cookie.restores)
  rw [read?, fields?_record]
  simp only [↓Option.bind_eq_bind, ↓Option.bind_some]
  rw [required?_slot hd 0 _ rfl, orDefault?_slot hd 1 _ _ rfl,
    orDefault?_slot_of_omitted hd 2 (restores_int h.priority) rfl,
    option?_slot hd 3 (fun s _ => restores_text s) rfl, list?_slot hd 4 hs rfl,
    list?_slot hd 5 (fun r _ => r.restores) rfl]
  rfl

theorem fits_of_read? {v : Value} {r : Route} (h : read? v = some r) : r.Fits := by
  simp only [read?, ↓Option.bind_eq_bind, ↓Option.bind_eq_some_iff] at h
  obtain ⟨f, -, rule, -, kind, -, priority, hpriority, ruleSyntax, -, services, hservices,
    middlewares, -, h⟩ := h
  cases h
  constructor
  · rcases orDefault?_eq_some hpriority with rfl | ⟨v, hv⟩
    · rfl
    · exact isInt64_of_readInt? hv
  · intro s hs
    obtain ⟨v, hv⟩ := list?_eq_some hservices s hs
    exact (Service.fits_of_read? hv).imp fun _ ⟨_, hc⟩ => Cookie.fits_of_read? hc

end Route

namespace Settings

theorem toValue_eq (s : Settings) : s.toValue = record [] s.settings := rfl

theorem restores {x : Settings} (h : Leftover [] x.settings) : Restores read? toValue x := by
  refine .of_eq x.toValue_eq ?_ (record_ne_null _ _)
  have hd : Distinct [] x.settings := .of_leftover .nil h
  rw [read?, fields?_record]
  simp only [↓Option.bind_eq_bind, ↓Option.bind_some]
  rw [others?_record hd h rfl]
  rfl

theorem leftover_of_read? {v : Value} {x : Settings} (h : read? v = some x) :
    Leftover [] x.settings := by
  simp only [read?, ↓Option.bind_eq_bind, ↓Option.bind_eq_some_iff] at h
  obtain ⟨f, -, settings, hsettings, h⟩ := h
  cases h
  exact others?_eq_some hsettings

end Settings

namespace StripPrefix

def slots (s : StripPrefix) : List Slot := [("prefixes", listSlot .text s.prefixes)]

theorem toValue_eq (s : StripPrefix) : s.toValue = record s.slots .empty := by simp [toValue, slots]

theorem restores (s : StripPrefix) : Restores read? toValue s := by
  refine .of_eq s.toValue_eq ?_ (record_ne_null _ _)
  have hd : Distinct s.slots .empty := .of_nodup (by simp [slots])
  rw [read?, fields?_record]
  simp only [↓Option.bind_eq_bind, ↓Option.bind_some]
  rw [list?_slot hd 0 (fun s _ => restores_text s) rfl]
  rfl

end StripPrefix

namespace IpAllowList

def slots (l : IpAllowList) : List Slot :=
  [("sourceRange", listSlot .text l.sourceRange), ("ipStrategy", l.ipStrategy.map IpStrategy.toValue),
    ("rejectStatusCode", l.rejectStatusCode.map .int)]

theorem toValue_eq (l : IpAllowList) : l.toValue = record l.slots .empty := by simp [toValue, slots]

/-- Whether the numbers of a list can be read. -/
structure Fits (l : IpAllowList) : Prop where
  ipStrategy : ∀ s ∈ l.ipStrategy, s.Fits
  rejectStatusCode : ∀ n ∈ l.rejectStatusCode, isInt64 n = true

theorem restores {l : IpAllowList} (h : l.Fits) : Restores read? toValue l := by
  refine .of_eq l.toValue_eq ?_ (record_ne_null _ _)
  have hd : Distinct l.slots .empty := .of_nodup (by simp [slots])
  rw [read?, fields?_record]
  simp only [↓Option.bind_eq_bind, ↓Option.bind_some]
  rw [list?_slot hd 0 (fun s _ => restores_text s) rfl,
    option?_slot hd 1 (fun s hs => IpStrategy.restores (h.ipStrategy s hs)) rfl,
    option?_slot hd 2 (fun n hn => restores_int (h.rejectStatusCode n hn)) rfl]
  rfl

theorem fits_of_read? {v : Value} {l : IpAllowList} (h : read? v = some l) : l.Fits := by
  simp only [read?, ↓Option.bind_eq_bind, ↓Option.bind_eq_some_iff] at h
  obtain ⟨f, -, sourceRange, -, ipStrategy, hstrategy, code, hcode, h⟩ := h
  cases h
  constructor
  · intro s hs
    obtain ⟨v, hv⟩ := option?_eq_some hstrategy s hs
    exact IpStrategy.fits_of_read? hv
  · intro n hn
    obtain ⟨v, hv⟩ := option?_eq_some hcode n hn
    exact isInt64_of_readInt? hv

end IpAllowList

namespace MiddlewareSpec

abbrev known : List String := ["headers", "stripPrefix", "contentType", "ipAllowList"]

def slots (s : MiddlewareSpec) : List Slot :=
  [("headers", s.headers.map Settings.toValue), ("stripPrefix", s.stripPrefix.map StripPrefix.toValue),
    ("contentType", s.contentType.map Settings.toValue),
    ("ipAllowList", s.ipAllowList.map IpAllowList.toValue)]

theorem toValue_eq (s : MiddlewareSpec) : s.toValue = record s.slots s.other := by
  simp [toValue, slots]

/-- Whether the blocks of a middleware can be read back. -/
structure Fits (s : MiddlewareSpec) : Prop where
  headers : ∀ x ∈ s.headers, Leftover [] x.settings
  contentType : ∀ x ∈ s.contentType, Leftover [] x.settings
  ipAllowList : ∀ l ∈ s.ipAllowList, l.Fits
  other : Leftover known s.other

theorem restores {s : MiddlewareSpec} (h : s.Fits) : Restores read? toValue s := by
  refine .of_eq s.toValue_eq ?_ (record_ne_null _ _)
  have hd : Distinct s.slots s.other := .of_leftover (by simp [slots]) h.other
  rw [read?, fields?_record]
  simp only [↓Option.bind_eq_bind, ↓Option.bind_some]
  rw [option?_slot hd 0 (fun x hx => Settings.restores (h.headers x hx)) rfl,
    option?_slot hd 1 (fun x _ => x.restores) rfl,
    option?_slot hd 2 (fun x hx => Settings.restores (h.contentType x hx)) rfl,
    option?_slot hd 3 (fun l hl => IpAllowList.restores (h.ipAllowList l hl)) rfl,
    others?_record hd h.other rfl]
  rfl

theorem fits_of_read? {v : Value} {s : MiddlewareSpec} (h : read? v = some s) : s.Fits := by
  simp only [read?, ↓Option.bind_eq_bind, ↓Option.bind_eq_some_iff] at h
  obtain ⟨f, -, headers, hheaders, stripPrefix, -, contentType, hcontentType, allow, hallow, other,
    hother, h⟩ := h
  cases h
  refine ⟨fun x hx => ?_, fun x hx => ?_, fun l hl => ?_, others?_eq_some hother⟩
  · obtain ⟨v, hv⟩ := option?_eq_some hheaders x hx
    exact Settings.leftover_of_read? hv
  · obtain ⟨v, hv⟩ := option?_eq_some hcontentType x hx
    exact Settings.leftover_of_read? hv
  · obtain ⟨v, hv⟩ := option?_eq_some hallow l hl
    exact IpAllowList.fits_of_read? hv

end MiddlewareSpec

end V3

end TraefikUpgrade.Resource
