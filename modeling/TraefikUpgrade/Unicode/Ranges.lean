/-
# Sets of characters as sorted ranges

A Unicode property is a long list of ranges of code points, sorted and apart from one another.
`Ranges.contains` finds the range of a character by halving the list.

Key definitions: `Ranges`, `Ranges.contains`.
-/
namespace TraefikUpgrade.Unicode

/-- Ranges of code points, first and last included, in increasing order. -/
abbrev Ranges := Array (Nat × Nat)

namespace Ranges

/-- Whether a range with an index from `lo` to below `hi` holds the code point `n`. -/
def search (ranges : Ranges) (n lo hi : Nat) : Bool :=
  if lo < hi then
    let mid := (lo + hi) / 2
    match ranges[mid]? with
    | none => false
    | some (first, last) =>
      if n < first then ranges.search n lo mid
      else if last < n then ranges.search n (mid + 1) hi
      else true
  else false
termination_by hi - lo

/-- Whether the ranges hold a character. -/
def contains (ranges : Ranges) (c : Char) : Bool := ranges.search c.toNat 0 ranges.size

end Ranges

end TraefikUpgrade.Unicode
