/-
# The arguments of ClientIP

`ClientIP` takes addresses and networks, at least one of them in version 2 and exactly one in version 3.
Both versions share the check of an argument, which accepts the texts of addresses and networks and the
texts of networks with a plus sign before the number of bits (`checkAddress_eq_ok_iff`). The sign is one
that no network is written with, so there are accepted rules whose argument is neither an address nor a
network (`clientIP_accepts_signed_bits`).

Key definitions: `IsClient`.
Key theorems: `checkAddress_eq_ok_iff`, `accepts_clientIP_iff`, `clients_of_validate`.
-/
import TraefikUpgrade.Proofs.Net.Addresses
import TraefikUpgrade.Proofs.Rule.Rejection

namespace TraefikUpgrade.Rule

open Net

/-- An address, or a network with the number of its bits in nothing but decimal digits. -/
def IsClient (arg : String) : Prop := IsAddressText arg.toList ∨ IsNetworkText [] arg.toList

theorem checkAddress_eq_ok_iff {arg : String} :
    checkAddress arg = .ok () ↔ IsClient arg ∨ IsNetworkText ['+'] arg.toList := by
  have hcheck : checkAddress arg = .ok () ↔ isAddressOrNetwork arg = true := by
    unfold checkAddress
    cases isAddressOrNetwork arg <;> simp
  rw [hcheck, isAddressOrNetwork_iff, IsClient, or_assoc]

/-- Version 2 takes any number of arguments but none, version 3 takes one. -/
theorem accepts_clientIP_iff [Regex.Limits] {dialect : Dialect} {args : List String} {offset : Nat} :
    Accepts dialect ⟨"ClientIP", args, offset⟩ ↔
      args ≠ [] ∧ (dialect = .v3 → args.length = 1) ∧ ∀ arg ∈ args, checkAddress arg = .ok () := by
  cases dialect with
  | v2 =>
    have hcheck : Dialect.v2.check? "ClientIP" = some (checkEach checkAddress) := rfl
    rw [accepts_iff_of_check? hcheck, checkEach_eq_ok_iff]
    simp
  | v3 =>
    have hcheck : Dialect.v3.check? "ClientIP" = some (checkOne checkAddress) := rfl
    rw [accepts_iff_of_check? hcheck, checkOne_eq_ok_iff_forall]
    constructor
    · rintro ⟨hlen, hargs⟩
      exact ⟨List.ne_nil_of_length_eq_add_one hlen, fun _ => hlen, hargs⟩
    · rintro ⟨-, hlen, hargs⟩
      exact ⟨hlen rfl, hargs⟩

/-- The clients of a rule that is accepted are addresses and networks. -/
theorem clients_of_validate [Regex.Limits] {rule : String} {dialect : Dialect} {priority : Int}
    {route : Route}
    {args : List String} {offset : Nat} (h : validate rule dialect priority = .ok route)
    (hcall : ⟨"ClientIP", args, offset⟩ ∈ route.expr.calls) {arg : String} (harg : arg ∈ args) :
    IsClient arg ∨ IsNetworkText ['+'] arg.toList := by
  obtain ⟨-, -, hcalls, -, -⟩ := validate_eq_ok_iff.1 h
  obtain ⟨-, -, hargs⟩ := accepts_clientIP_iff.1 (hcalls _ hcall)
  exact checkAddress_eq_ok_iff.1 (hargs arg harg)

theorem not_isClient_of_signed {arg : String} (h : IsNetworkText ['+'] arg.toList) :
    ¬ IsClient arg := fun hclient => hclient.elim h.not_isAddressText h.not_unsigned

/-- **The arguments of `ClientIP` are the addresses and networks**, the number of bits with or without a
plus sign, in both versions. So the check accepts a text just if it is an address or a network, unless it is
a network with a plus sign. -/
theorem clientIP_arguments [Regex.Limits] (dialect : Dialect) (args : List String) (offset : Nat)
    (arg : String) :
    (checkAddress arg = .ok () ↔ IsClient arg ∨ IsNetworkText ['+'] arg.toList) ∧
    (Accepts dialect ⟨"ClientIP", args, offset⟩ ↔ args ≠ [] ∧ (dialect = .v3 → args.length = 1) ∧
      ∀ arg ∈ args, IsClient arg ∨ IsNetworkText ['+'] arg.toList) ∧
    ((checkAddress arg = .ok () ↔ IsClient arg) ↔ ¬ IsNetworkText ['+'] arg.toList) := by
  refine ⟨checkAddress_eq_ok_iff, ?_, ?_⟩
  · simp only [accepts_clientIP_iff, checkAddress_eq_ok_iff]
  · rw [checkAddress_eq_ok_iff]
    constructor
    · exact fun h hsigned => not_isClient_of_signed hsigned (h.1 (.inr hsigned))
    · exact fun h => or_iff_left h

/-- A plus sign before the number of bits is accepted by both versions. -/
theorem clientIP_accepts_signed_bits :
    validate "ClientIP(`10.0.0.0/+8`)" .v2 0 =
      .ok ⟨.call ⟨"ClientIP", ["10.0.0.0/+8"], 0⟩, .v2, 23⟩ ∧
    validate "ClientIP(`10.0.0.0/+8`)" .v3 0 =
      .ok ⟨.call ⟨"ClientIP", ["10.0.0.0/+8"], 0⟩, .v3, 23⟩ ∧
    ¬ IsClient "10.0.0.0/+8" := by
  have htokens : tokenize "ClientIP(`10.0.0.0/+8`)" = .ok [⟨0, .identifier "ClientIP"⟩,
      ⟨8, .openParen⟩, ⟨9, .text "10.0.0.0/+8"⟩, ⟨22, .closeParen⟩] :=
    eq_ok_of_toOption (by decide +kernel)
  have hparse := parse_of_single htokens
  refine ⟨validate_of_call hparse (eq_ok_of_toOption (by decide +kernel)),
    validate_of_call hparse (eq_ok_of_toOption (by decide +kernel)), ?_⟩
  have haddress : Address.Spelled (.v4 [10, 0, 0, 0]) "10.0.0.0".toList :=
    parseAddress_eq_some_iff.1 (by decide +kernel)
  have hbits : IsNumeral ['8'] 8 := ⟨List.cons_ne_nil _ _, List.forall_mem_singleton.2 rfl, rfl⟩
  have hsigned : IsNetworkText ['+'] "10.0.0.0/+8".toList :=
    IsNetworkText.network haddress hbits (by decide)
  exact not_isClient_of_signed hsigned

end TraefikUpgrade.Rule
