/-
# Addresses and networks

An IPv4 address is four decimal numbers below 256 without leading zeros. An IPv6 address is eight
groups of up to four hexadecimal digits; two colons stand for at least one group of zeros, and the last
two groups may be written as an IPv4 address. A network is an address, a slash and the number of its
leading bits, for which a plus sign and leading zeros are accepted.

Key definitions: `Address`, `parseAddress`, `isAddressOrNetwork`.
-/
import TraefikUpgrade.Text.Cut
import TraefikUpgrade.Text.Hexadecimal

namespace TraefikUpgrade.Net

/-- An address: four octets, or eight groups of sixteen bits. -/
inductive Address where
  | v4 (octets : List Nat)
  | v6 (groups : List Nat)
deriving DecidableEq, Repr

/-- The number of bits in an address. -/
def Address.bits : Address → Nat
  | .v4 _ => 32
  | .v6 _ => 128

/-- Whether a character is a digit in a base up to sixteen. -/
def isDigitIn (radix : Nat) (c : Char) : Bool := (Text.hexValue? c).any (· < radix)

/-- The number of digits in a base. -/
def numberOf (radix : Nat) (digits : List Char) : Nat :=
  digits.foldl (fun n c => radix * n + (Text.hexValue? c).getD 0) 0

/-- Reads an octet, and gives what follows. -/
def readOctet (cs : List Char) : Option (Nat × List Char) :=
  let digits := cs.takeWhile (isDigitIn 10)
  let value := numberOf 10 digits
  if digits.isEmpty || 3 < digits.length || (1 < digits.length && digits.head? == some '0') ||
      255 < value then none
  else some (value, cs.dropWhile (isDigitIn 10))

/-- Reads a character. -/
def readChar (c : Char) : List Char → Option (List Char)
  | [] => none
  | d :: cs => if d = c then some cs else none

/-- Reads `count` octets with dots before all of them but the first of the address. -/
def readOctets : (count : Nat) → (first : Bool) → List Char → Option (List Nat × List Char)
  | 0, _, cs => some ([], cs)
  | count + 1, first, cs => do
    let cs ← if first then some cs else readChar '.' cs
    let (octet, cs) ← readOctet cs
    let (octets, cs) ← readOctets count false cs
    return (octet :: octets, cs)

/-- Reads a group of an IPv6 address. -/
def readGroup (cs : List Char) : Option (Nat × List Char) :=
  let digits := cs.takeWhile (isDigitIn 16)
  if digits.isEmpty || 4 < digits.length then none
  else some (numberOf 16 digits, cs.dropWhile (isDigitIn 16))

/-- Reads as many groups as there are, up to `count`, with colons between them; the last two may be
given as an IPv4 address, which the second answer tells. -/
def readGroups : (count : Nat) → (first : Bool) → List Char → List Nat × Bool × List Char
  | 0, _, cs => ([], false, cs)
  | count + 1, first, cs =>
    match if first then some cs else readChar ':' cs with
    | none => ([], false, cs)
    | some body =>
      match if 0 < count then readOctets 4 true body else none with
      | some ([a, b, c, d], rest) => ([256 * a + b, 256 * c + d], true, rest)
      | _ =>
        match readGroup body with
        | none => ([], false, cs)
        | some (group, rest) =>
          let (groups, mixed, rest') := readGroups count false rest
          (group :: groups, mixed, rest')

/-- Reads an IPv6 address, and gives what follows. -/
def readV6 (cs : List Char) : Option (List Nat × List Char) :=
  let (head, mixed, rest) := readGroups 8 true cs
  if head.length = 8 then some (head, rest)
  else if mixed then none
  else do
    let rest ← readChar ':' rest
    let rest ← readChar ':' rest
    let (tail, _, rest) := readGroups (7 - head.length) true rest
    return (head ++ List.replicate (8 - head.length - tail.length) 0 ++ tail, rest)

/-- The address that a text is. -/
def parseAddress (cs : List Char) : Option Address :=
  match readOctets 4 true cs with
  | some (octets, rest) => if rest.isEmpty then some (.v4 octets) else none
  | none =>
    match readV6 cs with
    | some (groups, []) => some (.v6 groups)
    | _ => none

/-- The number of bits that a text gives, up to 255. -/
def parseBits (cs : List Char) : Option Nat :=
  let digits := match cs with
    | '+' :: rest => rest
    | cs => cs
  if digits.isEmpty || !digits.all Char.isDigit then none
  else
    let value := numberOf 10 digits
    if value ≤ 255 then some value else none

/-- Whether a text is an address or a network. -/
def isAddressOrNetwork (s : String) : Bool :=
  match Text.cutAt '/' s.toList with
  | none => (parseAddress s.toList).isSome
  | some (address, bits) =>
    match parseAddress address, parseBits bits with
    | some address, some bits => bits ≤ address.bits
    | _, _ => false

end TraefikUpgrade.Net
