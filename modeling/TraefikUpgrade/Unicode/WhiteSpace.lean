/-
# Characters with the White_Space property

The blanks of a text: twenty-five characters of eleven ranges, among them the no-break spaces and the
line and paragraph separators.

Key definitions: `isWhiteSpace`, `isBlank`.
Key theorem: `of_isWhiteSpace`.
-/
namespace TraefikUpgrade.Unicode

/-- Whether a character has the White_Space property. -/
def isWhiteSpace (c : Char) : Bool :=
  let n := c.toNat
  (0x9 ≤ n && n ≤ 0xD) || n == 0x20 || n == 0x85 || n == 0xA0 || n == 0x1680 ||
    (0x2000 ≤ n && n ≤ 0x200A) || n == 0x2028 || n == 0x2029 || n == 0x202F || n == 0x205F ||
    n == 0x3000

/-- The code points of the blanks. -/
def blankCodes : List Nat :=
  [0x9, 0xA, 0xB, 0xC, 0xD, 0x20, 0x85, 0xA0, 0x1680, 0x2000, 0x2001, 0x2002, 0x2003, 0x2004, 0x2005,
    0x2006, 0x2007, 0x2008, 0x2009, 0x200A, 0x2028, 0x2029, 0x202F, 0x205F, 0x3000]

/-- What holds of the blanks one by one holds of every blank. -/
theorem of_isWhiteSpace {P : Char → Prop} (hP : ∀ n ∈ blankCodes, P (Char.ofNat n)) {c : Char}
    (h : isWhiteSpace c = true) : P c := by
  have hmem : c.toNat ∈ blankCodes := by
    simp only [isWhiteSpace, Bool.or_eq_true, Bool.and_eq_true, decide_eq_true_eq, beq_iff_eq] at h
    simp only [blankCodes, List.mem_cons, List.not_mem_nil, or_false]
    omega
  rw [← Char.ofNat_toNat c]
  exact hP _ hmem

/-- Whether a text holds nothing but blanks. -/
def isBlank (s : String) : Bool := s.toList.all isWhiteSpace

end TraefikUpgrade.Unicode
