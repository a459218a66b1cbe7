/-
# Filtering by address

A middleware can let requests through by the address of the client. The strategy tells which address is
taken for the client's.

Key definition: `IpStrategy`.
-/
import TraefikUpgrade.Yaml.Record

namespace TraefikUpgrade.Resource

open Yaml

/-- How the address of a client is found. -/
structure IpStrategy where
  depth : Option Int := none
  excludedIPs : List String := []
deriving DecidableEq, Repr

namespace IpStrategy

def read? (v : Value) : Option IpStrategy := do
  let f ← fields? v
  return {
    depth := ← f.option? "depth" readInt?
    excludedIPs := ← f.list? "excludedIPs" Value.text? }

def toValue (s : IpStrategy) : Value :=
  .mapping (optionField "depth" .int s.depth ++ listField "excludedIPs" .text s.excludedIPs)

/-- Whether a strategy says nothing. -/
def isUnset (s : IpStrategy) : Bool := s.depth.getD 0 == 0 && s.excludedIPs.isEmpty

end IpStrategy

end TraefikUpgrade.Resource
