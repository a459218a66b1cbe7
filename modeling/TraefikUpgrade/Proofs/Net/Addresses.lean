/-
# The texts of addresses and networks

An IPv4 address has one text, its octets in decimal with dots between them (`dotted`). The groups of an
IPv6 address are rows of hexadecimal numbers with colons between them, the last two of which may be given
as four octets (`Groups`); either all eight are given, or two colons stand for those that are left out
(`Address.Spelled`). Reading an address accepts exactly these texts, and gives the address that they spell
(`parseAddress_eq_some_iff`), so no text spells two addresses. A network is such a text, a slash and the
number of bits in decimal (`IsNetworkText`), which is also read with a plus sign before it
(`isAddressOrNetwork_iff`).

The readers take as many digits as there are, so each of them is described by what it takes and by what
must not follow: no further digit (`NoDigit`), after a group nothing but a colon (`Ends`), and after a row
of groups nothing but two colons (`Stops`).

Key definitions: `dotted`, `IsGroup`, `Groups`, `Row`, `Address.Spelled`, `IsNumeral`, `IsNetworkText`.
Key theorems: `readOctet_eq_some_iff`, `readOctets_eq_some_iff`, `readGroup_eq_some_iff`,
`readGroups_of_groups`, `groups_of_readGroups`, `parseAddress_eq_some_iff`, `parseBits_eq_some_iff`,
`isAddressOrNetwork_iff`.
-/
import Mathlib.Data.List.Basic
import TraefikUpgrade.Net.Address

namespace TraefikUpgrade.Net

variable {radix n : Nat} {c : Char} {cs digits rest text : List Char}

/-! ### Digits -/

/-- The digits and their values by the numbers of the characters. -/
theorem hexValue?_eq (c : Char) : Text.hexValue? c =
    if 48 ≤ c.toNat ∧ c.toNat ≤ 57 then some (c.toNat - 48)
    else if 97 ≤ c.toNat ∧ c.toNat ≤ 102 then some (c.toNat - 87)
    else if 65 ≤ c.toNat ∧ c.toNat ≤ 70 then some (c.toNat - 55)
    else none := by
  simp only [Text.hexValue?, Char.le_def, UInt32.le_iff_toNat_le]
  rfl

theorem isDigit_iff : c.isDigit = true ↔ 48 ≤ c.toNat ∧ c.toNat ≤ 57 := Char.isDigit_iff_toNat

theorem hexValue?_of_isDigit (h : c.isDigit = true) : Text.hexValue? c = some (c.toNat - 48) := by
  rw [hexValue?_eq, if_pos (isDigit_iff.1 h)]

theorem isDigitIn_ten (c : Char) : isDigitIn 10 c = c.isDigit := by
  rw [Bool.eq_iff_iff, isDigit_iff, isDigitIn, hexValue?_eq]
  split_ifs <;> simp <;> omega

theorem isDigitIn_sixteen (h : c.isDigit = true) : isDigitIn 16 c = true := by
  have hc := isDigit_iff.1 h
  rw [isDigitIn, hexValue?_of_isDigit h, Option.any_some, decide_eq_true_eq]
  omega

/-- What follows a number does not go on with a digit. -/
def NoDigit (radix : Nat) (rest : List Char) : Prop := ∀ c ∈ rest.head?, isDigitIn radix c = false

theorem noDigit_dropWhile (radix : Nat) (cs : List Char) :
    NoDigit radix (cs.dropWhile (isDigitIn radix)) := by
  intro c hc
  have h := List.head?_dropWhile_not (isDigitIn radix) cs
  rw [hc] at h
  exact h

/-- The digits are those at the start and nothing more. -/
theorem takeWhile_digits (hd : ∀ c ∈ digits, isDigitIn radix c = true) (hr : NoDigit radix rest) :
    (digits ++ rest).takeWhile (isDigitIn radix) = digits ∧
      (digits ++ rest).dropWhile (isDigitIn radix) = rest := by
  rw [List.takeWhile_append_of_pos hd, List.dropWhile_append_of_pos hd]
  cases rest with
  | nil => simp
  | cons c rest =>
    have hc : isDigitIn radix c = false := hr c rfl
    rw [List.takeWhile_cons_of_neg (by simp [hc]), List.dropWhile_cons_of_neg (by simp [hc]),
      List.append_nil]
    exact ⟨rfl, rfl⟩

/-! ### Octets -/

theorem digitChar_of_isDigit (h : c.isDigit = true) : (c.toNat - 48).digitChar = c := by
  have hc := isDigit_iff.1 h
  rw [← Char.toNat_inj, Nat.toNat_digitChar_of_lt_ten (by omega)]
  omega

/-- The number of decimal digits is the one of the library. -/
theorem numberOf_ten (hd : ∀ c ∈ digits, c.isDigit = true) :
    numberOf 10 digits = Nat.ofDigitChars 10 digits 0 := by
  refine List.foldl_ext _ _ 0 fun n c hc => ?_
  rw [hexValue?_of_isDigit (hd c hc)]
  rfl

/-- Digits after those of a number that is not zero. -/
theorem toDigits_append (hn : 0 < n) (hd : ∀ c ∈ digits, c.isDigit = true) :
    Nat.toDigits 10 n ++ digits = Nat.toDigits 10 (Nat.ofDigitChars 10 digits n) := by
  induction digits generalizing n with
  | nil => rw [List.append_nil, Nat.ofDigitChars_nil]
  | cons c digits ih =>
    rw [List.forall_mem_cons] at hd
    have hc := isDigit_iff.1 hd.1
    have hdigit : Nat.toDigits 10 (c.toNat - 48) = [c] := by
      rw [Nat.toDigits_of_lt_base (by omega), digitChar_of_isDigit hd.1]
    calc Nat.toDigits 10 n ++ c :: digits
      _ = (Nat.toDigits 10 n ++ Nat.toDigits 10 (c.toNat - 48)) ++ digits := by
        rw [hdigit, List.append_assoc, List.singleton_append]
      _ = Nat.toDigits 10 (10 * n + (c.toNat - 48)) ++ digits := by
        rw [Nat.toDigits_append_toDigits (by omega) hn (by omega)]
      _ = Nat.toDigits 10 (Nat.ofDigitChars 10 (c :: digits) n) := by
        rw [ih (by omega) hd.2, Nat.ofDigitChars_cons]
        rfl

/-- Digits without a leading zero are those of their number. -/
theorem toDigits_ofDigitChars (hne : digits ≠ []) (hd : ∀ c ∈ digits, c.isDigit = true)
    (hlead : digits.head? = some '0' → digits.length ≤ 1) :
    Nat.toDigits 10 (Nat.ofDigitChars 10 digits 0) = digits := by
  cases digits with
  | nil => exact absurd rfl hne
  | cons c digits =>
    rw [List.forall_mem_cons] at hd
    have hc := isDigit_iff.1 hd.1
    by_cases hzero : c = '0'
    · subst hzero
      have hnil : digits = [] := List.length_eq_zero_iff.1 (by simpa using hlead rfl)
      subst hnil
      decide
    · have hpos : c.toNat ≠ 48 := fun h => hzero (Char.toNat_inj.1 h)
      have hone : Nat.toDigits 10 (c.toNat - 48) = [c] := by
        rw [Nat.toDigits_of_lt_base (by omega), digitChar_of_isDigit hd.1]
      have happend := toDigits_append (show 0 < c.toNat - 48 by omega) hd.2
      rw [hone] at happend
      rw [Nat.ofDigitChars_cons, Nat.mul_zero, Nat.zero_add]
      exact happend.symm

theorem isDigit_of_mem_toDigits (h : c ∈ Nat.toDigits 10 n) : c.isDigit = true :=
  Nat.isDigit_of_mem_toDigits (by omega) (by omega) h

theorem head?_toDigits_octet (h : n ≤ 255) :
    1 < (Nat.toDigits 10 n).length → (Nat.toDigits 10 n).head? ≠ some '0' := by
  have hall : ∀ n < 256, 1 < (Nat.toDigits 10 n).length → (Nat.toDigits 10 n).head? ≠ some '0' := by
    decide +kernel
  exact hall n (by omega)

/-- An octet is read from the decimal digits of a number below 256. -/
theorem readOctet_eq_some_iff : readOctet cs = some (n, rest) ↔
    n ≤ 255 ∧ cs = Nat.toDigits 10 n ++ rest ∧ NoDigit 10 rest := by
  unfold readOctet
  constructor
  · intro h
    have hd : ∀ c ∈ cs.takeWhile (isDigitIn 10), c.isDigit = true := fun c hc =>
      (isDigitIn_ten c).symm.trans (List.all_eq_true.1 List.all_takeWhile c hc)
    simp only [numberOf_ten hd, Option.ite_none_left_eq_some, Bool.or_eq_true, Bool.and_eq_true,
      not_or, decide_eq_true_eq, Option.some.injEq, Prod.mk.injEq, List.isEmpty_iff, beq_iff_eq] at h
    obtain ⟨⟨⟨⟨hne, -⟩, hlead⟩, hle⟩, rfl, rfl⟩ := h
    have htext := toDigits_ofDigitChars hne hd fun hzero =>
      Nat.le_of_not_lt fun hlong => hlead ⟨hlong, hzero⟩
    refine ⟨by omega, ?_, noDigit_dropWhile 10 cs⟩
    rw [htext, List.takeWhile_append_dropWhile]
  · rintro ⟨hn, rfl, hrest⟩
    have hdigits : ∀ c ∈ Nat.toDigits 10 n, isDigitIn 10 c = true :=
      fun c hc => (isDigitIn_ten c).trans (isDigit_of_mem_toDigits hc)
    obtain ⟨htake, hdrop⟩ := takeWhile_digits hdigits hrest
    have hlength : (Nat.toDigits 10 n).length ≤ 3 :=
      (Nat.length_toDigits_le_iff (by omega) (by omega)).2 (by omega)
    have hvalue : numberOf 10 (Nat.toDigits 10 n) = n := by
      rw [numberOf_ten fun c hc => isDigit_of_mem_toDigits hc, Nat.ofDigitChars_ten_toDigits]
    have hhead := head?_toDigits_octet hn
    simp only [htake, hdrop, hvalue]
    rw [if_neg]
    simp only [Bool.or_eq_true, Bool.and_eq_true, decide_eq_true_eq, List.isEmpty_iff, beq_iff_eq,
      not_or, not_and]
    exact ⟨⟨⟨Nat.toDigits_ne_nil, by omega⟩, hhead⟩, by omega⟩

/-! ### Octets with dots between them -/

theorem readChar_eq_some_iff : readChar c cs = some rest ↔ cs = c :: rest := by
  cases cs with
  | nil => simp [readChar]
  | cons d cs =>
    by_cases h : d = c
    · simp [readChar, h]
    · simp [readChar, h]

/-- What stands before an item: a separator, except before the first one. -/
def lead (sep : Char) (first : Bool) : List Char := if first then [] else [sep]

/-- Octets in decimal with dots between them. -/
def dotted (octets : List Nat) : List Char := ['.'].intercalate (octets.map (Nat.toDigits 10))

theorem dotted_singleton (n : Nat) : dotted [n] = Nat.toDigits 10 n := by
  simp [dotted, List.intercalate]

theorem dotted_cons_cons (n m : Nat) (octets : List Nat) :
    dotted (n :: m :: octets) = Nat.toDigits 10 n ++ '.' :: dotted (m :: octets) := by
  simp [dotted, List.intercalate]

theorem noDigit_cons (h : isDigitIn radix c = false) : NoDigit radix (c :: rest) := by
  intro d hd
  obtain rfl : c = d := by simpa using hd
  exact h

/-- One octet is read, and the others from what follows it. -/
theorem readOctets_succ_eq_some_iff {count : Nat} {first : Bool} {octets : List Nat} :
    readOctets (count + 1) first cs = some (octets, rest) ↔ ∃ n tail after, octets = n :: tail ∧
      n ≤ 255 ∧ cs = lead '.' first ++ (Nat.toDigits 10 n ++ after) ∧ NoDigit 10 after ∧
      readOctets count false after = some (tail, rest) := by
  have hbody : ∀ body : List Char,
      (readOctet body).bind (fun p => (readOctets count false p.2).bind fun q =>
        some (p.1 :: q.1, q.2)) = some (octets, rest) ↔ ∃ n tail after, octets = n :: tail ∧
      n ≤ 255 ∧ body = Nat.toDigits 10 n ++ after ∧ NoDigit 10 after ∧
      readOctets count false after = some (tail, rest) := by
    intro body
    simp only [Option.bind_eq_some_iff, Prod.exists, readOctet_eq_some_iff, Option.some.injEq,
      Prod.mk.injEq]
    constructor
    · rintro ⟨n, after, ⟨hn, hcs, hafter⟩, tail, _, htail, rfl, rfl⟩
      exact ⟨n, tail, after, rfl, hn, hcs, hafter, htail⟩
    · rintro ⟨n, tail, after, rfl, hn, hcs, hafter, htail⟩
      exact ⟨n, after, ⟨hn, hcs, hafter⟩, tail, rest, htail, rfl, rfl⟩
  cases first with
  | true => exact hbody cs
  | false =>
    have hread : readOctets (count + 1) false cs = (readChar '.' cs).bind fun body =>
        (readOctet body).bind fun p => (readOctets count false p.2).bind fun q =>
          some (p.1 :: q.1, q.2) := rfl
    rw [hread, Option.bind_eq_some_iff]
    simp only [readChar_eq_some_iff, hbody]
    constructor
    · rintro ⟨_, rfl, n, tail, after, rfl, hn, rfl, h⟩
      exact ⟨n, tail, after, rfl, hn, rfl, h⟩
    · rintro ⟨n, tail, after, rfl, hn, rfl, h⟩
      exact ⟨_, rfl, n, tail, after, rfl, hn, rfl, h⟩

/-- Octets are read from their decimal digits with dots between them. -/
theorem readOctets_eq_some_iff {count : Nat} {first : Bool} {octets : List Nat} :
    readOctets (count + 1) first cs = some (octets, rest) ↔
      octets.length = count + 1 ∧ (∀ n ∈ octets, n ≤ 255) ∧
        cs = lead '.' first ++ (dotted octets ++ rest) ∧ NoDigit 10 rest := by
  rw [readOctets_succ_eq_some_iff]
  induction count generalizing first octets cs with
  | zero =>
    constructor
    · rintro ⟨n, tail, after, rfl, hn, rfl, hafter, htail⟩
      obtain ⟨rfl, rfl⟩ : [] = tail ∧ after = rest := by simpa [readOctets] using htail
      exact ⟨rfl, by simpa using hn, by rw [dotted_singleton], hafter⟩
    · rintro ⟨hlen, hle, rfl, hrest⟩
      obtain ⟨n, rfl⟩ := List.length_eq_one_iff.1 hlen
      rw [dotted_singleton]
      exact ⟨n, [], rest, rfl, by simpa using hle, rfl, hrest, rfl⟩
  | succ count ih =>
    simp only [readOctets_succ_eq_some_iff, ih]
    constructor
    · rintro ⟨n, tail, after, rfl, hn, rfl, -, hlen, hle, rfl, hrest⟩
      obtain ⟨m, tail, rfl⟩ := List.exists_cons_of_length_eq_add_one hlen
      refine ⟨by rw [List.length_cons, hlen], List.forall_mem_cons.2 ⟨hn, hle⟩, ?_, hrest⟩
      rw [dotted_cons_cons]
      simp [lead]
    · rintro ⟨hlen, hle, rfl, hrest⟩
      obtain ⟨n, tail, rfl⟩ := List.exists_cons_of_length_eq_add_one hlen
      rw [List.length_cons, Nat.add_right_cancel_iff] at hlen
      obtain ⟨m, tail, rfl⟩ := List.exists_cons_of_length_eq_add_one hlen
      rw [List.forall_mem_cons] at hle
      rw [dotted_cons_cons]
      exact ⟨n, m :: tail, '.' :: (dotted (m :: tail) ++ rest), rfl, hle.1, by simp,
        noDigit_cons (by decide), hlen, hle.2, rfl, hrest⟩

/-! ### Groups -/

/-- The digits of a group: one to four of them, in base sixteen. -/
structure IsGroup (digits : List Char) : Prop where
  ne_nil : digits ≠ []
  length_le : digits.length ≤ 4
  all_digits : ∀ c ∈ digits, isDigitIn 16 c = true

/-- A group is read from up to four digits. -/
theorem readGroup_eq_some_iff : readGroup cs = some (n, rest) ↔
    ∃ digits, IsGroup digits ∧ n = numberOf 16 digits ∧ cs = digits ++ rest ∧ NoDigit 16 rest := by
  simp only [readGroup, Option.ite_none_left_eq_some, Bool.or_eq_true, not_or, decide_eq_true_eq,
    List.isEmpty_iff, Option.some.injEq, Prod.mk.injEq]
  constructor
  · rintro ⟨⟨hne, hlen⟩, rfl, rfl⟩
    exact ⟨cs.takeWhile (isDigitIn 16), ⟨hne, by omega, List.all_eq_true.1 List.all_takeWhile⟩, rfl,
      List.takeWhile_append_dropWhile.symm, noDigit_dropWhile 16 cs⟩
  · rintro ⟨digits, h, rfl, rfl, hrest⟩
    obtain ⟨htake, hdrop⟩ := takeWhile_digits h.all_digits hrest
    rw [htake, hdrop]
    have hlen := h.length_le
    exact ⟨⟨h.ne_nil, by omega⟩, rfl, rfl⟩

/-- A row of groups with colons between them, and whether its last two are written as octets. -/
inductive Groups : Bool → List Nat → List Char → Prop
  | group {digits : List Char} (h : IsGroup digits) : Groups false [numberOf 16 digits] digits
  | octets {a b c d : Nat} (h : ∀ n ∈ [a, b, c, d], n ≤ 255) :
      Groups true [256 * a + b, 256 * c + d] (dotted [a, b, c, d])
  | cons {mixed : Bool} {groups : List Nat} {digits text : List Char} (h : IsGroup digits)
      (hgroups : Groups mixed groups text) :
      Groups mixed (numberOf 16 digits :: groups) (digits ++ ':' :: text)

/-- A row of groups that may be empty. -/
inductive Row : Bool → List Nat → List Char → Prop
  | none : Row false [] []
  | some {mixed : Bool} {groups : List Nat} {text : List Char} (h : Groups mixed groups text) :
      Row mixed groups text

/-- The texts of an address. -/
inductive Address.Spelled : Address → List Char → Prop
  | v4 {octets : List Nat} (hlen : octets.length = 4) (h : ∀ n ∈ octets, n ≤ 255) :
      Spelled (.v4 octets) (dotted octets)
  | v6 {mixed : Bool} {groups : List Nat} {text : List Char} (h : Groups mixed groups text)
      (hlen : groups.length = 8) : Spelled (.v6 groups) text
  | short {mixed : Bool} {head tail : List Nat} {before after : List Char}
      (hhead : Row false head before) (htail : Row mixed tail after)
      (hlen : head.length + tail.length ≤ 7) :
      Spelled (.v6 (head ++ List.replicate (8 - head.length - tail.length) 0 ++ tail))
        (before ++ ':' :: ':' :: after)

/-! ### What is not read -/

/-- What follows a group in an address. -/
def Ends (rest : List Char) : Prop := ∀ c ∈ rest.head?, c = ':'

/-- What follows a row of groups in an address. -/
def Stops (rest : List Char) : Prop := rest = [] ∨ ∃ after, rest = ':' :: ':' :: after

theorem ends_cons (rest : List Char) : Ends (':' :: rest) := by
  rintro c hc
  simpa using hc.symm

theorem Stops.ends (h : Stops rest) : Ends rest := by
  obtain rfl | ⟨after, rfl⟩ := h
  · simp [Ends]
  · exact ends_cons _

theorem Ends.noDigit (h : Ends rest) (radix : Nat) : NoDigit radix rest := by
  intro c hc
  obtain rfl := h c hc
  rw [isDigitIn, show Text.hexValue? ':' = none by decide]
  rfl

/-- No group is read where there is no digit. -/
theorem readGroup_eq_none (h : Ends rest) : readGroup rest = none := by
  have htake : rest.takeWhile (isDigitIn 16) = [] := by
    simpa using (takeWhile_digits (List.forall_mem_nil _) (h.noDigit 16)).1
  rw [readGroup, htake]
  rfl

/-- No octets are read from a group: a dot would have to follow the digits of the first one. -/
theorem readOctets_eq_none (hdigits : ∀ c ∈ digits, isDigitIn 16 c = true) (hrest : Ends rest) :
    readOctets 4 true (digits ++ rest) = none := by
  rw [Option.eq_none_iff_forall_ne_some]
  rintro ⟨octets, after⟩ hread
  obtain ⟨hlen, -, hcs, -⟩ := readOctets_eq_some_iff.1 hread
  obtain ⟨n, tail, rfl⟩ := List.exists_cons_of_length_eq_add_one hlen
  rw [List.length_cons, Nat.add_right_cancel_iff] at hlen
  obtain ⟨m, tail, rfl⟩ := List.exists_cons_of_length_eq_add_one hlen
  have hn : ∀ c ∈ Nat.toDigits 10 n, isDigitIn 16 c = true := fun c hc =>
    isDigitIn_sixteen (isDigit_of_mem_toDigits hc)
  rw [dotted_cons_cons, lead, if_pos rfl, List.nil_append, List.append_assoc] at hcs
  have hdot : (digits ++ rest).dropWhile (isDigitIn 16) = '.' :: (dotted (m :: tail) ++ after) := by
    rw [hcs]
    exact (takeWhile_digits hn (noDigit_cons (show isDigitIn 16 '.' = false by decide))).2
  rw [(takeWhile_digits hdigits (hrest.noDigit 16)).2] at hdot
  rw [hdot] at hrest
  exact absurd (hrest '.' rfl) (by decide)

/-! ### Rows of groups -/

section Rows

variable {count : Nat} {first mixed : Bool} {groups : List Nat} {body : List Char}

/-- What is read of a row once the colon before it is. -/
theorem readGroups_lead (count : Nat) (first : Bool) (body : List Char) :
    readGroups (count + 1) first (lead ':' first ++ body) =
      match if 0 < count then readOctets 4 true body else none with
      | some ([a, b, c, d], rest) => ([256 * a + b, 256 * c + d], true, rest)
      | _ =>
        match readGroup body with
        | none => ([], false, lead ':' first ++ body)
        | some (group, rest) =>
          let (groups, mixed, rest') := readGroups count false rest
          (group :: groups, mixed, rest') := by
  cases first <;> rfl

/-- Nothing is read where the colon is missing. -/
theorem exists_lead_or_readGroups_eq (count : Nat) (first : Bool) (cs : List Char) :
    (∃ body, cs = lead ':' first ++ body) ∨ readGroups (count + 1) first cs = ([], false, cs) := by
  cases first with
  | true => exact .inl ⟨cs, rfl⟩
  | false =>
    cases hcolon : readChar ':' cs with
    | none => right; simp [readGroups, hcolon]
    | some body => exact .inl ⟨body, readChar_eq_some_iff.1 hcolon⟩

/-- Nothing is read where a row has come to its end. -/
theorem readGroups_of_stops (h : Stops rest) : readGroups count first rest = ([], false, rest) := by
  cases count with
  | zero => rfl
  | succ count =>
    obtain ⟨body, rfl⟩ | hnone := exists_lead_or_readGroups_eq count first rest
    · have hbody : Ends body := by
        obtain hnil | ⟨after, hafter⟩ := h
        · rw [List.append_eq_nil_iff] at hnil
          rw [hnil.2]
          simp [Ends]
        · cases first with
          | true =>
            obtain rfl : body = ':' :: ':' :: after := hafter
            exact ends_cons _
          | false =>
            obtain rfl : body = ':' :: after := by simpa [lead] using hafter
            exact ends_cons _
      have hoctets : readOctets 4 true body = none := readOctets_eq_none (List.forall_mem_nil _) hbody
      rw [readGroups_lead, hoctets, readGroup_eq_none hbody, ite_self]
    · exact hnone

/-- Before what ends it, a group is read by itself, and what follows as the rest of the row. -/
theorem readGroups_of_isGroup (h : IsGroup digits) (hrest : Ends rest) :
    readGroups (count + 1) first (lead ':' first ++ (digits ++ rest)) =
      (numberOf 16 digits :: (readGroups count false rest).1, (readGroups count false rest).2) := by
  have hgroup : readGroup (digits ++ rest) = some (numberOf 16 digits, rest) :=
    readGroup_eq_some_iff.2 ⟨digits, h, rfl, rfl, hrest.noDigit 16⟩
  rw [readGroups_lead, readOctets_eq_none h.all_digits hrest, ite_self, hgroup]

/-- A row of groups is read up to its end. -/
theorem readGroups_of_groups (h : Groups mixed groups text) (hlen : groups.length ≤ count)
    (hrest : Stops rest) :
    readGroups count first (lead ':' first ++ (text ++ rest)) = (groups, mixed, rest) := by
  induction h generalizing count first with
  | group hdigits =>
    obtain ⟨count, rfl⟩ : ∃ k, count = k + 1 := Nat.exists_eq_add_of_le' hlen
    rw [readGroups_of_isGroup hdigits hrest.ends, readGroups_of_stops hrest]
  | @octets a b c d hle =>
    -- Two groups are still to be read, so there is room for octets.
    obtain ⟨count, rfl⟩ : ∃ k, count = k + 2 := Nat.exists_eq_add_of_le' hlen
    have hread : readOctets 4 true (dotted [a, b, c, d] ++ rest) = some ([a, b, c, d], rest) :=
      readOctets_eq_some_iff.2 ⟨rfl, hle, rfl, hrest.ends.noDigit 10⟩
    exact (readGroups_lead (count + 1) first _).trans (by rw [if_pos (by omega), hread])
  | @cons mixed groups digits text hdigits hgroups ih =>
    rw [List.length_cons] at hlen
    obtain ⟨count, rfl⟩ : ∃ k, count = k + 1 := Nat.exists_eq_add_of_le' (by omega)
    have hread : readGroups count false (':' :: (text ++ rest)) = (groups, mixed, rest) :=
      ih (by omega)
    rw [List.append_assoc, List.cons_append, readGroups_of_isGroup hdigits (ends_cons _), hread]

/-- What is read is a row of groups, or nothing. -/
theorem groups_of_readGroups (h : readGroups count first cs = (groups, mixed, rest)) :
    groups.length ≤ count ∧ ((groups = [] ∧ mixed = false ∧ rest = cs) ∨
      ∃ text, Groups mixed groups text ∧ cs = lead ':' first ++ (text ++ rest)) := by
  induction count generalizing first cs groups mixed rest with
  | zero =>
    obtain ⟨rfl, rfl, rfl⟩ : [] = groups ∧ false = mixed ∧ cs = rest := by simpa [readGroups] using h
    exact ⟨Nat.le_refl 0, .inl ⟨rfl, rfl, rfl⟩⟩
  | succ count ih =>
    obtain ⟨body, rfl⟩ | hnone := exists_lead_or_readGroups_eq count first cs
    · rw [readGroups_lead] at h
      split at h
      next a b c d after hread =>
        -- Octets end the row.
        obtain ⟨rfl, rfl, rfl⟩ :
            [256 * a + b, 256 * c + d] = groups ∧ true = mixed ∧ after = rest := by simpa using h
        rw [Option.ite_none_right_eq_some] at hread
        obtain ⟨hcount, hread⟩ := hread
        obtain ⟨-, hle, rfl, -⟩ := readOctets_eq_some_iff.1 hread
        exact ⟨Nat.succ_le_succ hcount, .inr ⟨_, .octets hle, rfl⟩⟩
      next =>
        cases hgroup : readGroup body with
        | none =>
          obtain ⟨rfl, rfl, rfl⟩ :
              [] = groups ∧ false = mixed ∧ lead ':' first ++ body = rest := by
            simpa [hgroup] using h
          exact ⟨Nat.zero_le _, .inl ⟨rfl, rfl, rfl⟩⟩
        | some p =>
          obtain ⟨n, after⟩ := p
          obtain ⟨digits, hdigits, rfl, rfl, -⟩ := readGroup_eq_some_iff.1 hgroup
          obtain ⟨⟨tail, mixed', rest'⟩, hrow⟩ : ∃ r, readGroups count false after = r := ⟨_, rfl⟩
          simp only [hgroup, hrow, Prod.mk.injEq] at h
          obtain ⟨rfl, rfl, rfl⟩ := h
          obtain ⟨hlen, ⟨rfl, rfl, rfl⟩ | ⟨text, htext, rfl⟩⟩ := ih hrow
          · exact ⟨Nat.succ_le_succ hlen, .inr ⟨digits, .group hdigits, rfl⟩⟩
          · refine ⟨Nat.succ_le_succ hlen, .inr ⟨_, .cons hdigits htext, ?_⟩⟩
            simp [lead]
    · rw [hnone] at h
      obtain ⟨rfl, rfl, rfl⟩ : [] = groups ∧ false = mixed ∧ cs = rest := by simpa using h
      exact ⟨Nat.zero_le _, .inl ⟨rfl, rfl, rfl⟩⟩

theorem readGroups_of_row (h : Row mixed groups text) (hlen : groups.length ≤ count)
    (hrest : Stops rest) : readGroups count true (text ++ rest) = (groups, mixed, rest) := by
  cases h with
  | none => exact readGroups_of_stops hrest
  | some h => exact readGroups_of_groups h hlen hrest

theorem row_of_readGroups (h : readGroups count true cs = (groups, mixed, rest)) :
    groups.length ≤ count ∧ ∃ text, Row mixed groups text ∧ cs = text ++ rest := by
  obtain ⟨hlen, ⟨rfl, rfl, rfl⟩ | ⟨text, htext, rfl⟩⟩ := groups_of_readGroups h
  · exact ⟨hlen, [], .none, rfl⟩
  · exact ⟨hlen, text, .some htext, rfl⟩

end Rows

/-! ### Addresses -/

variable {groups : List Nat} {address : Address}

/-- The text of an IPv6 address begins with digits and a colon. -/
theorem Address.Spelled.exists_eq_colon (h : Spelled (.v6 groups) text) :
    ∃ digits after, text = digits ++ ':' :: after ∧ ∀ c ∈ digits, isDigitIn 16 c = true := by
  cases h with
  | v6 h hlen =>
    cases h with
    | group => simp at hlen
    | octets => simp at hlen
    | cons hdigits => exact ⟨_, _, rfl, hdigits.all_digits⟩
  | short hhead =>
    cases hhead with
    | none => exact ⟨[], _, rfl, List.forall_mem_nil _⟩
    | some h =>
      cases h with
      | group hdigits => exact ⟨_, _, rfl, hdigits.all_digits⟩
      | cons hdigits => exact ⟨_, _, by rw [List.append_assoc, List.cons_append], hdigits.all_digits⟩

/-- An IPv6 address is read from its texts. -/
theorem readV6_of_spelled (h : Address.Spelled (.v6 groups) text) :
    readV6 text = some (groups, []) := by
  cases h with
  | v6 h hlen =>
    have hread := readGroups_of_row (.some h) (Nat.le_of_eq hlen) (.inl rfl)
    rw [List.append_nil] at hread
    simp only [readV6, hread, hlen, if_true]
  | @short mixed head tail before after hhead htail hlen =>
    have hreadHead := readGroups_of_row hhead (show head.length ≤ 8 by omega) (.inr ⟨after, rfl⟩)
    have hreadTail :=
      readGroups_of_row htail (show tail.length ≤ 7 - head.length by omega) (.inl rfl)
    rw [List.append_nil] at hreadTail
    simp [readV6, hreadHead, hreadTail, readChar, show head.length ≠ 8 by omega]

/-- What is read as an IPv6 address is one of its texts. -/
theorem spelled_of_readV6 (h : readV6 text = some (groups, [])) :
    Address.Spelled (.v6 groups) text := by
  obtain ⟨⟨head, mixed, rest⟩, hhead⟩ : ∃ r, readGroups 8 true text = r := ⟨_, rfl⟩
  obtain ⟨hlen, before, hbefore, rfl⟩ := row_of_readGroups hhead
  simp only [readV6, hhead] at h
  split_ifs at h with height hmixed
  · obtain ⟨rfl, rfl⟩ : head = groups ∧ rest = [] := by simpa using h
    rw [List.append_nil]
    cases hbefore with
    | none => simp at height
    | some hgroups => exact .v6 hgroups height
  · obtain rfl : mixed = false := by simpa using hmixed
    simp only [Option.bind_eq_bind, Option.bind_eq_some_iff, readChar_eq_some_iff, Option.pure_def,
      Option.some.injEq, Prod.mk.injEq] at h
    obtain ⟨_, rfl, after, rfl, rfl, hend⟩ := h
    obtain ⟨⟨tail, mixed', rest'⟩, htail⟩ : ∃ r, readGroups (7 - head.length) true after = r :=
      ⟨_, rfl⟩
    obtain ⟨hlenTail, after, hafter, rfl⟩ := row_of_readGroups htail
    simp only [htail] at hend ⊢
    subst hend
    rw [List.append_nil]
    exact .short hbefore hafter (by omega)

/-- Reading an address accepts its texts and nothing else. -/
theorem parseAddress_eq_some_iff : parseAddress text = some address ↔ address.Spelled text := by
  unfold parseAddress
  constructor
  · intro h
    split at h
    next octets rest hread =>
      obtain ⟨hlen, hle, rfl, -⟩ := readOctets_eq_some_iff.1 hread
      rw [Option.ite_none_right_eq_some, List.isEmpty_iff] at h
      obtain ⟨rfl, haddress⟩ := h
      obtain rfl : .v4 octets = address := by simpa using haddress
      rw [lead, if_pos rfl, List.nil_append, List.append_nil]
      exact .v4 hlen hle
    next hread =>
      split at h
      next groups hv6 =>
        obtain rfl : .v6 groups = address := by simpa using h
        exact spelled_of_readV6 hv6
      next => exact absurd h (by simp)
  · intro h
    cases address with
    | v4 octets =>
      cases h with
      | v4 hlen hle =>
        have hread : readOctets 4 true (dotted octets) = some (octets, []) :=
          readOctets_eq_some_iff.2 ⟨hlen, hle, by simp [lead], by simp [NoDigit]⟩
        rw [hread]
        rfl
    | v6 groups =>
      have hnone : readOctets 4 true text = none := by
        obtain ⟨digits, after, rfl, hdigits⟩ := h.exists_eq_colon
        exact readOctets_eq_none hdigits (ends_cons after)
      rw [hnone, readV6_of_spelled h]

example : parseAddress "64:ff9b::10.0.0.1".toList =
    some (.v6 [0x64, 0xff9b, 0, 0, 0, 0, 0x0a00, 1]) := by decide +kernel

/-- A text spells one address at most. -/
theorem Address.Spelled.unique {other : Address} (h : address.Spelled text)
    (hother : other.Spelled text) : address = other :=
  Option.some.inj ((parseAddress_eq_some_iff.2 h).symm.trans (parseAddress_eq_some_iff.2 hother))

/-- Whether a character may stand in an address. -/
def IsAddressChar (c : Char) : Prop := isDigitIn 16 c = true ∨ c = '.' ∨ c = ':'

theorem isAddressChar_of_mem_dotted {octets : List Nat} (hc : c ∈ dotted octets) :
    IsAddressChar c := by
  have hdigit : ∀ n, c ∈ Nat.toDigits 10 n → IsAddressChar c := fun n hc =>
    .inl (isDigitIn_sixteen (isDigit_of_mem_toDigits hc))
  induction octets with
  | nil => simp [dotted, List.intercalate] at hc
  | cons n octets ih =>
    cases octets with
    | nil => exact hdigit n (dotted_singleton n ▸ hc)
    | cons m octets =>
      rw [dotted_cons_cons, List.mem_append, List.mem_cons] at hc
      obtain hc | rfl | hc := hc
      · exact hdigit n hc
      · exact .inr (.inl rfl)
      · exact ih hc

theorem Groups.isAddressChar {mixed : Bool} (h : Groups mixed groups text) (hc : c ∈ text) :
    IsAddressChar c := by
  induction h with
  | group h => exact .inl (h.all_digits c hc)
  | octets h => exact isAddressChar_of_mem_dotted hc
  | cons h hgroups ih =>
    rw [List.mem_append, List.mem_cons] at hc
    obtain hc | rfl | hc := hc
    · exact .inl (h.all_digits c hc)
    · exact .inr (.inr rfl)
    · exact ih hc

theorem Row.isAddressChar {mixed : Bool} (h : Row mixed groups text) (hc : c ∈ text) :
    IsAddressChar c := by
  cases h with
  | none => simp at hc
  | some h => exact h.isAddressChar hc

/-- Nothing stands in an address but digits, dots and colons. -/
theorem Address.Spelled.isAddressChar (h : address.Spelled text) (hc : c ∈ text) :
    IsAddressChar c := by
  cases h with
  | v4 => exact isAddressChar_of_mem_dotted hc
  | v6 h => exact h.isAddressChar hc
  | short hhead htail =>
    rw [List.mem_append, List.mem_cons, List.mem_cons] at hc
    obtain hc | rfl | rfl | hc := hc
    · exact hhead.isAddressChar hc
    · exact .inr (.inr rfl)
    · exact .inr (.inr rfl)
    · exact htail.isAddressChar hc

theorem Address.Spelled.slash_notMem (h : address.Spelled text) : '/' ∉ text := by
  intro hc
  obtain hdigit | hdot | hcolon := h.isAddressChar hc
  · exact absurd hdigit (by decide)
  · exact absurd hdot (by decide)
  · exact absurd hcolon (by decide)

/-! ### Networks -/

/-- A number in decimal digits; zeros may stand before it. -/
structure IsNumeral (digits : List Char) (n : Nat) : Prop where
  ne_nil : digits ≠ []
  all_digits : ∀ c ∈ digits, c.isDigit = true
  value : Nat.ofDigitChars 10 digits 0 = n

/-- A text that spells an address. -/
def IsAddressText (text : List Char) : Prop := ∃ address : Address, address.Spelled text

/-- A text that spells an address and the number of its leading bits, with a sign before the digits of
the number. -/
inductive IsNetworkText (sign : List Char) : List Char → Prop
  | network {address : Address} {text digits : List Char} {n : Nat} (haddress : address.Spelled text)
      (hdigits : IsNumeral digits n) (hbits : n ≤ address.bits) :
      IsNetworkText sign (text ++ '/' :: (sign ++ digits))

theorem IsNumeral.head?_ne_plus (h : IsNumeral digits n) : digits.head? ≠ some '+' := by
  intro hplus
  exact absurd (h.all_digits '+' (List.mem_of_mem_head? hplus)) (by decide)

theorem Address.Spelled.cutAt_eq_none (h : address.Spelled text) : Text.cutAt '/' text = none :=
  Text.cutAt_eq_none_iff.2 h.slash_notMem

/-- A network is cut at the slash behind its address. -/
theorem IsNetworkText.exists_cut {sign : List Char} (h : IsNetworkText sign text) :
    ∃ before digits, Text.cutAt '/' text = some (before, sign ++ digits) ∧ ∃ address n,
      Address.Spelled address before ∧ IsNumeral digits n ∧ n ≤ address.bits := by
  obtain ⟨haddress, hdigits, hbits⟩ := h
  exact ⟨_, _, Text.cutAt_append haddress.slash_notMem _, _, _, haddress, hdigits, hbits⟩

theorem IsNetworkText.not_isAddressText {sign : List Char} (h : IsNetworkText sign text) :
    ¬ IsAddressText text := by
  obtain ⟨before, digits, hcut, -⟩ := h.exists_cut
  rintro ⟨address, haddress⟩
  rw [haddress.cutAt_eq_none] at hcut
  cases hcut

/-- The sign before a number of bits is no part of the number. -/
theorem IsNetworkText.not_unsigned (h : IsNetworkText ['+'] text) : ¬ IsNetworkText [] text := by
  intro hunsigned
  obtain ⟨before, digits, hcut, -⟩ := h.exists_cut
  obtain ⟨before', digits', hcut', address, n, -, hdigits, -⟩ := hunsigned.exists_cut
  rw [hcut, Option.some.injEq, Prod.mk.injEq] at hcut'
  exact hdigits.head?_ne_plus (congrArg List.head? hcut'.2.symm)

/-- A number of bits is read from decimal digits with or without a plus sign before them. -/
theorem parseBits_eq_some_iff : parseBits cs = some n ↔ n ≤ 255 ∧
    ∃ sign digits, (sign = [] ∨ sign = ['+']) ∧ cs = sign ++ digits ∧ IsNumeral digits n := by
  have hdigits : ∀ digits : List Char,
      (if digits.isEmpty || !digits.all Char.isDigit then none
        else if numberOf 10 digits ≤ 255 then some (numberOf 10 digits) else none) = some n ↔
      n ≤ 255 ∧ IsNumeral digits n := by
    intro digits
    simp only [Option.ite_none_left_eq_some, Option.ite_none_right_eq_some, Option.some.injEq,
      Bool.or_eq_true, Bool.not_eq_true', not_or, List.isEmpty_iff, Bool.not_eq_false,
      List.all_eq_true]
    constructor
    · rintro ⟨⟨hne, hd⟩, hle, rfl⟩
      exact ⟨hle, hne, hd, (numberOf_ten hd).symm⟩
    · rintro ⟨hle, hne, hd, rfl⟩
      rw [← numberOf_ten hd] at hle ⊢
      exact ⟨⟨hne, hd⟩, hle, rfl⟩
  unfold parseBits
  split
  next rest =>
    rw [hdigits]
    constructor
    · exact fun ⟨hle, h⟩ => ⟨hle, ['+'], rest, .inr rfl, rfl, h⟩
    · rintro ⟨hle, sign, digits, rfl | rfl, htext, h⟩
      · exact absurd (by rw [← List.nil_append digits, ← htext]; rfl) h.head?_ne_plus
      · obtain rfl : rest = digits := by simpa using htext
        exact ⟨hle, h⟩
  next hplus =>
    rw [hdigits]
    constructor
    · exact fun ⟨hle, h⟩ => ⟨hle, [], cs, .inl rfl, rfl, h⟩
    · rintro ⟨hle, sign, digits, rfl | rfl, rfl, h⟩
      · exact ⟨hle, h⟩
      · exact absurd rfl (hplus digits)

theorem Address.bits_le (address : Address) : address.bits ≤ 255 := by
  cases address <;> simp [Address.bits]

/-- A network is an address and a number of bits that are read on the two sides of its slash. -/
theorem isNetworkText_iff : (IsNetworkText [] text ∨ IsNetworkText ['+'] text) ↔
    ∃ before after, Text.cutAt '/' text = some (before, after) ∧ ∃ address n,
      parseAddress before = some address ∧ parseBits after = some n ∧ n ≤ address.bits := by
  simp only [parseAddress_eq_some_iff, parseBits_eq_some_iff]
  constructor
  · intro h
    obtain ⟨sign, hsign, h⟩ : ∃ sign, (sign = [] ∨ sign = ['+']) ∧ IsNetworkText sign text :=
      h.elim (⟨[], .inl rfl, ·⟩) (⟨['+'], .inr rfl, ·⟩)
    obtain ⟨before, digits, hcut, address, n, haddress, hdigits, hbits⟩ := h.exists_cut
    exact ⟨before, sign ++ digits, hcut, address, n, haddress,
      ⟨Nat.le_trans hbits address.bits_le, sign, digits, hsign, rfl, hdigits⟩, hbits⟩
  · rintro ⟨before, _, hcut, address, n, haddress, ⟨-, sign, digits, hsign, rfl, hdigits⟩, hbits⟩
    rw [Text.eq_append_of_cutAt hcut]
    obtain rfl | rfl := hsign
    · exact .inl (.network haddress hdigits hbits)
    · exact .inr (.network haddress hdigits hbits)

/-- **Accepted are exactly the addresses and the networks**, the number of bits with or without a plus
sign. -/
theorem isAddressOrNetwork_iff {s : String} : isAddressOrNetwork s = true ↔
    IsAddressText s.toList ∨ IsNetworkText [] s.toList ∨ IsNetworkText ['+'] s.toList := by
  rw [isNetworkText_iff, isAddressOrNetwork]
  cases hcut : Text.cutAt '/' s.toList with
  | none =>
    simp only [reduceCtorEq, false_and, exists_false, or_false, Option.isSome_iff_exists,
      parseAddress_eq_some_iff, IsAddressText]
  | some cut =>
    obtain ⟨before, after⟩ := cut
    have haddress : ¬ IsAddressText s.toList := by
      rintro ⟨address, h⟩
      rw [h.cutAt_eq_none] at hcut
      cases hcut
    simp only [haddress, false_or, Option.some.injEq, Prod.mk.injEq]
    constructor
    · intro h
      split at h
      next address n hbefore hafter =>
        exact ⟨before, after, ⟨rfl, rfl⟩, address, n, hbefore, hafter, by simpa using h⟩
      next => exact absurd h (by simp)
    · rintro ⟨_, _, ⟨rfl, rfl⟩, address, n, hbefore, hafter, hle⟩
      rw [hbefore, hafter]
      exact decide_eq_true hle

end TraefikUpgrade.Net
