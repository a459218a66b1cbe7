/-
# Parts of resources that are read back

Every part of a resource is a record, and what is written of it is read as the part again. Where a part
holds a number, the number must have 64 bits, as every number has that was read (`Service.Fits`).

Key definitions: `Port.Fits`, `Service.Fits`.
Key theorems: `Routing.restores`, `Service.restores`, `Service.fits_of_read?`, `IpStrategy.restores`.
-/
import TraefikUpgrade.Proofs.Yaml.Records
import TraefikUpgrade.Resource.Filtering
import TraefikUpgrade.Resource.Metadata
import TraefikUpgrade.Resource.Routing
import TraefikUpgrade.Resource.Service

namespace TraefikUpgrade.Resource

open Yaml Text

attribute [local simp] field_eq optionField_eq listField_eq dictionaryField_eq omittedField_eq
  dictionaryEntries_id textKeys_append slotFields_append mapping_slotFields mapping_recordFields

/-! ### Routing -/

namespace Reference

def slots (r : Reference) : List Slot :=
  [("name", some (.text r.name)), ("namespace", r.namespace.map .text)]

theorem toValue_eq (r : Reference) : r.toValue = record r.slots .empty := by simp [toValue, slots]

theorem restores (r : Reference) : Restores read? toValue r := by
  refine .of_eq r.toValue_eq ?_ (record_ne_null _ _)
  have hd : Distinct r.slots .empty := .of_nodup (by simp [slots])
  rw [read?, fields?_record]
  simp only [↓Option.bind_eq_bind, ↓Option.bind_some]
  rw [required?_slot hd 0 _ rfl, option?_slot hd 1 (fun s _ => restores_text s) rfl]
  rfl

end Reference

namespace Domain

def slots (d : Domain) : List Slot := [("main", d.main.map .text), ("sans", listSlot .text d.sans)]

theorem toValue_eq (d : Domain) : d.toValue = record d.slots .empty := by simp [toValue, slots]

theorem restores (d : Domain) : Restores read? toValue d := by
  refine .of_eq d.toValue_eq ?_ (record_ne_null _ _)
  have hd : Distinct d.slots .empty := .of_nodup (by simp [slots])
  rw [read?, fields?_record]
  simp only [↓Option.bind_eq_bind, ↓Option.bind_some]
  rw [option?_slot hd 0 (fun s _ => restores_text s) rfl,
    list?_slot hd 1 (fun s _ => restores_text s) rfl]
  rfl

end Domain

namespace Tls

def slots (t : Tls) : List Slot :=
  [("secretName", t.secretName.map .text), ("options", t.options.map Reference.toValue),
    ("store", t.store.map Reference.toValue), ("certResolver", t.certResolver.map .text),
    ("domains", listSlot Domain.toValue t.domains)]

theorem toValue_eq (t : Tls) : t.toValue = record t.slots .empty := by simp [toValue, slots]

theorem restores (t : Tls) : Restores read? toValue t := by
  refine .of_eq t.toValue_eq ?_ (record_ne_null _ _)
  have hd : Distinct t.slots .empty := .of_nodup (by simp [slots])
  rw [read?, fields?_record]
  simp only [↓Option.bind_eq_bind, ↓Option.bind_some]
  rw [option?_slot hd 0 (fun s _ => restores_text s) rfl,
    option?_slot hd 1 (fun r _ => r.restores) rfl, option?_slot hd 2 (fun r _ => r.restores) rfl,
    option?_slot hd 3 (fun s _ => restores_text s) rfl, list?_slot hd 4 (fun d _ => d.restores) rfl]
  rfl

end Tls

namespace Routing

variable {ρ : Type}

def slots (writeRoute : ρ → Value) (r : Routing ρ) : List Slot :=
  [("routes", some (.sequence (r.routes.map writeRoute))),
    ("entryPoints", listSlot .text r.entryPoints), ("tls", r.tls.map Tls.toValue)]

theorem toValue_eq (writeRoute : ρ → Value) (r : Routing ρ) :
    r.toValue writeRoute = record (r.slots writeRoute) .empty := by
  simp [toValue, slots]

theorem restores {readRoute : Value → Option ρ} {writeRoute : ρ → Value} {r : Routing ρ}
    (h : ∀ route ∈ r.routes, Restores readRoute writeRoute route) :
    Restores (read? readRoute) (toValue writeRoute) r := by
  refine .of_eq (r.toValue_eq writeRoute) ?_ (record_ne_null _ _)
  have hd : Distinct (r.slots writeRoute) .empty := .of_nodup (by simp [slots])
  rw [read?, fields?_record]
  simp only [↓Option.bind_eq_bind, ↓Option.bind_some]
  rw [list?_slot_of_sequence hd 0 h rfl, list?_slot hd 1 (fun s _ => restores_text s) rfl,
    option?_slot hd 2 (fun t _ => t.restores) rfl]
  rfl

theorem routes_of_read? {readRoute : Value → Option ρ} {v : Value} {r : Routing ρ}
    (h : read? readRoute v = some r) : ∀ route ∈ r.routes, ∃ v, readRoute v = some route := by
  simp only [read?, ↓Option.bind_eq_bind, ↓Option.bind_eq_some_iff] at h
  obtain ⟨f, -, routes, hroutes, entryPoints, -, tls, -, h⟩ := h
  cases h
  exact list?_eq_some hroutes

end Routing

/-! ### Services -/

namespace Port

/-- Whether the number of a port can be read. -/
def Fits : Port → Prop
  | .number n => isInt64 n = true
  | .name _ => True

theorem restores {p : Port} (h : p.Fits) : Restores read? toValue p := by
  cases p with
  | number n => exact ⟨congrArg (Option.map Port.number) (restores_int h).read_write, nofun⟩
  | name s => exact ⟨rfl, nofun⟩

theorem fits_of_read? {v : Value} {p : Port} (h : read? v = some p) : p.Fits := by
  unfold read? at h
  split at h
  · cases h
    trivial
  · obtain ⟨n, hn, rfl⟩ := Option.map_eq_some_iff.1 h
    exact isInt64_of_readInt? hn
  · cases h

end Port

namespace ResponseForwarding

def slots (r : ResponseForwarding) : List Slot := [("flushInterval", r.flushInterval.map .text)]

theorem toValue_eq (r : ResponseForwarding) : r.toValue = record r.slots .empty := by
  simp [toValue, slots]

theorem restores (r : ResponseForwarding) : Restores read? toValue r := by
  refine .of_eq r.toValue_eq ?_ (record_ne_null _ _)
  have hd : Distinct r.slots .empty := .of_nodup (by simp [slots])
  rw [read?, fields?_record]
  simp only [↓Option.bind_eq_bind, ↓Option.bind_some]
  rw [option?_slot hd 0 (fun s _ => restores_text s) rfl]
  rfl

end ResponseForwarding

namespace Sticky

variable {κ : Type}

def slots (writeCookie : κ → Value) (s : Sticky κ) : List Slot := [("cookie", s.cookie.map writeCookie)]

theorem toValue_eq (writeCookie : κ → Value) (s : Sticky κ) :
    s.toValue writeCookie = record (s.slots writeCookie) .empty := by
  simp [toValue, slots]

theorem restores {readCookie : Value → Option κ} {writeCookie : κ → Value} {s : Sticky κ}
    (h : ∀ c ∈ s.cookie, Restores readCookie writeCookie c) :
    Restores (read? readCookie) (toValue writeCookie) s := by
  refine .of_eq (s.toValue_eq writeCookie) ?_ (record_ne_null _ _)
  have hd : Distinct (s.slots writeCookie) .empty := .of_nodup (by simp [slots])
  rw [read?, fields?_record]
  simp only [↓Option.bind_eq_bind, ↓Option.bind_some]
  rw [option?_slot hd 0 h rfl]
  rfl

theorem cookie_of_read? {readCookie : Value → Option κ} {v : Value} {s : Sticky κ}
    (h : read? readCookie v = some s) : ∀ c ∈ s.cookie, ∃ v, readCookie v = some c := by
  simp only [read?, ↓Option.bind_eq_bind, ↓Option.bind_eq_some_iff] at h
  obtain ⟨f, -, cookie, hcookie, h⟩ := h
  cases h
  exact option?_eq_some hcookie

end Sticky

namespace Service

variable {κ : Type}

def slots (writeCookie : κ → Value) (s : Service κ) : List Slot :=
  [("name", some (.text s.name)), ("namespace", s.namespace.map .text), ("kind", s.kind.map .text),
    ("port", s.port.map Port.toValue), ("scheme", s.scheme.map .text),
    ("strategy", s.strategy.map .text), ("passHostHeader", s.passHostHeader.map .bool),
    ("responseForwarding", s.responseForwarding.map ResponseForwarding.toValue),
    ("serversTransport", s.serversTransport.map .text), ("weight", s.weight.map .int),
    ("nativeLB", s.nativeLB.map .bool), ("sticky", s.sticky.map (Sticky.toValue writeCookie))]

theorem toValue_eq (writeCookie : κ → Value) (s : Service κ) :
    s.toValue writeCookie = record (s.slots writeCookie) .empty := by
  simp [toValue, slots]

/-- Whether the numbers of a service can be read, and its cookie is one of `P`. -/
structure Fits (P : κ → Prop) (s : Service κ) : Prop where
  port : ∀ p ∈ s.port, p.Fits
  weight : ∀ n ∈ s.weight, isInt64 n = true
  cookie : ∀ t ∈ s.sticky, ∀ c ∈ t.cookie, P c

theorem restores {readCookie : Value → Option κ} {writeCookie : κ → Value} {s : Service κ}
    (h : s.Fits (Restores readCookie writeCookie)) :
    Restores (read? readCookie) (toValue writeCookie) s := by
  refine .of_eq (s.toValue_eq writeCookie) ?_ (record_ne_null _ _)
  have hd : Distinct (s.slots writeCookie) .empty := .of_nodup (by simp [slots])
  rw [read?, fields?_record]
  simp only [↓Option.bind_eq_bind, ↓Option.bind_some]
  rw [required?_slot hd 0 _ rfl, option?_slot hd 1 (fun s _ => restores_text s) rfl,
    option?_slot hd 2 (fun s _ => restores_text s) rfl,
    option?_slot hd 3 (fun p hp => Port.restores (h.port p hp)) rfl,
    option?_slot hd 4 (fun s _ => restores_text s) rfl,
    option?_slot hd 5 (fun s _ => restores_text s) rfl,
    option?_slot hd 6 (fun b _ => restores_bool b) rfl,
    option?_slot hd 7 (fun r _ => r.restores) rfl,
    option?_slot hd 8 (fun s _ => restores_text s) rfl,
    option?_slot hd 9 (fun n hn => restores_int (h.weight n hn)) rfl,
    option?_slot hd 10 (fun b _ => restores_bool b) rfl,
    option?_slot hd 11 (fun t ht => Sticky.restores (h.cookie t ht)) rfl]
  rfl

theorem fits_of_read? {readCookie : Value → Option κ} {v : Value} {s : Service κ}
    (h : read? readCookie v = some s) : s.Fits fun c => ∃ v, readCookie v = some c := by
  simp only [read?, ↓Option.bind_eq_bind, ↓Option.bind_eq_some_iff] at h
  obtain ⟨f, -, name, -, ns, -, kind, -, port, hport, scheme, -, strategy, -, passHostHeader, -,
    responseForwarding, -, serversTransport, -, weight, hweight, nativeLB, -, sticky, hsticky, h⟩ := h
  cases h
  refine ⟨fun p hp => ?_, fun n hn => ?_, fun t ht => ?_⟩
  · obtain ⟨v, hv⟩ := option?_eq_some hport p hp
    exact Port.fits_of_read? hv
  · obtain ⟨v, hv⟩ := option?_eq_some hweight n hn
    exact isInt64_of_readInt? hv
  · obtain ⟨v, hv⟩ := option?_eq_some hsticky t ht
    exact Sticky.cookie_of_read? hv

theorem Fits.imp {P Q : κ → Prop} {s : Service κ} (h : s.Fits P) (hPQ : ∀ c, P c → Q c) : s.Fits Q :=
  ⟨h.port, h.weight, fun t ht c hc => hPQ c (h.cookie t ht c hc)⟩

end Service

/-! ### Strategies and metadata -/

namespace IpStrategy

def slots (s : IpStrategy) : List Slot :=
  [("depth", s.depth.map .int), ("excludedIPs", listSlot .text s.excludedIPs)]

theorem toValue_eq (s : IpStrategy) : s.toValue = record s.slots .empty := by simp [toValue, slots]

/-- Whether the number of a strategy can be read. -/
def Fits (s : IpStrategy) : Prop := ∀ n ∈ s.depth, isInt64 n = true

theorem restores {s : IpStrategy} (h : s.Fits) : Restores read? toValue s := by
  refine .of_eq s.toValue_eq ?_ (record_ne_null _ _)
  have hd : Distinct s.slots .empty := .of_nodup (by simp [slots])
  rw [read?, fields?_record]
  simp only [↓Option.bind_eq_bind, ↓Option.bind_some]
  rw [option?_slot hd 0 (fun n hn => restores_int (h n hn)) rfl,
    list?_slot hd 1 (fun s _ => restores_text s) rfl]
  rfl

theorem fits_of_read? {v : Value} {s : IpStrategy} (h : read? v = some s) : s.Fits := by
  simp only [read?, ↓Option.bind_eq_bind, ↓Option.bind_eq_some_iff] at h
  obtain ⟨f, -, depth, hdepth, excludedIPs, -, h⟩ := h
  cases h
  intro n hn
  obtain ⟨v, hv⟩ := option?_eq_some hdepth n hn
  exact isInt64_of_readInt? hv

end IpStrategy

namespace Metadata

def slots (m : Metadata) : List Slot :=
  [("name", some (.text m.name)), ("namespace", m.namespace.map .text),
    ("labels", dictionarySlot .text m.labels), ("annotations", dictionarySlot .text m.annotations)]

theorem toValue_eq (m : Metadata) : m.toValue = record m.slots .empty := by simp [toValue, slots]

theorem restores (m : Metadata) : Restores read? toValue m := by
  refine .of_eq m.toValue_eq ?_ (record_ne_null _ _)
  have hd : Distinct m.slots .empty := .of_nodup (by simp [slots])
  rw [read?, fields?_record]
  simp only [↓Option.bind_eq_bind, ↓Option.bind_some]
  rw [orDefault?_slot hd 0 _ _ rfl, option?_slot hd 1 (fun s _ => restores_text s) rfl,
    dictionary?_slot hd 2 (fun e _ => restores_text e.2) rfl,
    dictionary?_slot hd 3 (fun e _ => restores_text e.2) rfl]
  rfl

end Metadata

namespace Object

variable {σ : Type}

def slots (writeSpec : σ → Value) (o : Object σ) : List Slot :=
  [("apiVersion", some (.text o.apiVersion)), ("kind", some (.text o.kind)),
    ("metadata", some o.metadata.toValue), ("spec", some (writeSpec o.spec))]

theorem toValue_eq (writeSpec : σ → Value) (o : Object σ) :
    o.toValue writeSpec = record (o.slots writeSpec) .empty := by
  simp [toValue, slots]

theorem restores {readSpec : Value → Option σ} {writeSpec : σ → Value} {o : Object σ}
    (h : Restores readSpec writeSpec o.spec) : Restores (read? readSpec) (toValue writeSpec) o := by
  refine .of_eq (o.toValue_eq writeSpec) ?_ (record_ne_null _ _)
  have hd : Distinct (o.slots writeSpec) .empty := .of_nodup (by simp [slots])
  rw [read?, fields?_record]
  simp only [↓Option.bind_eq_bind, ↓Option.bind_some]
  rw [required?_slot hd 0 _ rfl, required?_slot hd 1 _ rfl, orDefault?_slot hd 2 _ _ rfl,
    o.metadata.restores.read_write, find?_recordFields hd 3 rfl]
  show (readSpec (writeSpec o.spec)).bind _ = _
  rw [h.read_write]
  rfl

end Object

end TraefikUpgrade.Resource
