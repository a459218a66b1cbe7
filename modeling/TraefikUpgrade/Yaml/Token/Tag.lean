/-
# Tags and directives

A tag is written in full between `!<` and `>`, or as a handle and a suffix; a percent sign and two
hexadecimal digits stand for a byte of a character. The directives before a document give the version of
the stream's language and what the handles stand for.

Each reader takes what follows in the stream and gives what it read with the rest.

Key definitions: `readUri`, `readTag`, `readDirective`.
-/
import TraefikUpgrade.Text.Hexadecimal
import TraefikUpgrade.Yaml.Token
import TraefikUpgrade.Yaml.Token.Block

namespace TraefikUpgrade.Yaml

/-- A byte written with a percent sign. -/
def readOctet : List Char → Option (Nat × List Char)
  | '%' :: a :: b :: rest => (Text.hexNumber? [a, b]).map (·, rest)
  | _ => none

/-- The further bytes of a character, joined to the bits of those before. -/
def readTrailing : (count bits : Nat) → List Char → Option (Nat × List Char)
  | 0, bits, cs => some (bits, cs)
  | count + 1, bits, cs =>
    match readOctet cs with
    | some (octet, rest) =>
      if 0x80 ≤ octet ∧ octet < 0xC0 then readTrailing count (64 * bits + (octet - 0x80)) rest
      else none
    | none => none

/-- A character written in bytes. The first one tells how many there are. -/
def readEncoded (cs : List Char) : Option (Char × List Char) :=
  match readOctet cs with
  | none => none
  | some (octet, rest) =>
    let bits? :=
      if octet < 0x80 then some (octet, rest)
      else if octet < 0xC0 then none
      else if octet < 0xE0 then readTrailing 1 (octet - 0xC0) rest
      else if octet < 0xF0 then readTrailing 2 (octet - 0xE0) rest
      else if octet < 0xF8 then readTrailing 3 (octet - 0xF0) rest
      else none
    bits?.map fun (bits, rest) => ((Text.charOf? bits).getD '\ufffd', rest)

/-- Whether a character may stand in a tag as it is; flow indicators only in one written in full. -/
def isUriChar (full : Bool) (c : Char) : Bool :=
  isNameChar c || [';', '/', '?', ':', '@', '&', '=', '+', '$', '.', '!', '~', '*', '\x27', '(',
    ')'].contains c || (full && [',', '[', ']'].contains c)

theorem length_lt_of_readOctet {cs rest : List Char} {octet : Nat}
    (h : readOctet cs = some (octet, rest)) : rest.length < cs.length := by
  unfold readOctet at h
  split at h
  · simp only [Option.map_eq_some_iff, Prod.mk.injEq] at h
    obtain ⟨_, _, _, rfl⟩ := h
    simp only [List.length_cons]
    omega
  · simp at h

theorem length_le_of_readTrailing {count bits bits' : Nat} {cs rest : List Char}
    (h : readTrailing count bits cs = some (bits', rest)) : rest.length ≤ cs.length := by
  fun_induction readTrailing count bits cs <;> grind [→ length_lt_of_readOctet]

theorem length_lt_of_readEncoded {cs rest : List Char} {c : Char}
    (h : readEncoded cs = some (c, rest)) : rest.length < cs.length := by
  unfold readEncoded at h
  split at h
  · simp at h
  · next ho =>
    have := length_lt_of_readOctet ho
    simp only [Option.map_eq_some_iff, Prod.mk.injEq] at h
    obtain ⟨p, hp, _, rfl⟩ := h
    repeat' split at hp
    all_goals grind [→ length_le_of_readTrailing]

/-- The characters of a tag. -/
def readUri (full : Bool) (cs : List Char) : Option (List Char × List Char) :=
  match cs with
  | [] => some ([], [])
  | c :: rest =>
    if c = '%' then
      match _h : readEncoded (c :: rest) with
      | none => none
      | some (d, rest') => (readUri full rest').map fun (uri, rest) => (d :: uri, rest)
    else if isUriChar full c then (readUri full rest).map fun (uri, rest) => (c :: uri, rest)
    else some ([], c :: rest)
termination_by cs.length
decreasing_by
  · exact length_lt_of_readEncoded _h
  · simp

/-- A handle: an exclamation mark, perhaps with a name and a second mark, or the beginning of a tag with
the first handle. -/
def readHandle : List Char → Option (List Char × List Char)
  | '!' :: cs =>
    let name := cs.takeWhile isNameChar
    match cs.dropWhile isNameChar with
    | '!' :: rest => some ('!' :: name ++ ['!'], rest)
    | rest => some ('!' :: name, rest)
  | _ => none

/-- Whether a handle is complete in itself. -/
def isLongHandle (handle : List Char) : Bool := 2 ≤ handle.length && handle.getLast? == some '!'

/-- A tag, with its exclamation mark: a handle, which is empty for a tag in full, and a suffix. The mark
alone is a tag in full. -/
def readTag (cs : List Char) : Option (Token × List Char) :=
  match cs with
  | '!' :: '<' :: rest =>
    match readUri true rest with
    | some (c :: uri, '>' :: rest) => some (.tag "" (String.ofList (c :: uri)), rest)
    | _ => none
  | _ =>
    match readHandle cs with
    | none => none
    | some (handle, rest) =>
      match readUri false rest with
      | none => none
      | some (uri, rest) =>
        if isLongHandle handle then
          if uri.isEmpty then none
          else some (.tag (String.ofList handle) (String.ofList uri), rest)
        else
          match handle.drop 1 ++ uri with
          | [] => some (.tag "" "!", rest)
          | suffix => some (.tag "!" (String.ofList suffix), rest)

/-- A number of a version, of nine digits at most. -/
def readVersionNumber (cs : List Char) : Option (Nat × List Char) :=
  let digits := cs.takeWhile Char.isDigit
  if digits.isEmpty || 9 < digits.length then none
  else some (digits.foldl (fun n c => 10 * n + (c.toNat - 48)) 0, cs.dropWhile Char.isDigit)

/-- The version of a directive. -/
def readVersion (cs : List Char) : Option (Token × List Char) :=
  match readVersionNumber (cs.dropWhile isBlank) with
  | some (major, '.' :: rest) =>
    (readVersionNumber rest).map fun (minor, rest) => (.version major minor, rest)
  | _ => none

/-- The handle of a directive and what it stands for. -/
def readTagHandle (cs : List Char) : Option (Token × List Char) :=
  match readHandle (cs.dropWhile isBlank) with
  | some (handle, c :: rest) =>
    if (handle = ['!'] || isLongHandle handle) && isBlank c then
      match readUri true (rest.dropWhile isBlank) with
      | some (d :: uri, rest) =>
        if endsWord rest then
          some (.tagHandle (String.ofList handle) (String.ofList (d :: uri)), rest)
        else none
      | _ => none
    else none
  | _ => none

/-- A directive after its percent sign, with the rest of its line. -/
def readDirective (cs : List Char) : Option (Token × List Char) :=
  let rest := cs.dropWhile isNameChar
  if !endsWord rest then none
  else
    let directive? := match String.ofList (cs.takeWhile isNameChar) with
      | "YAML" => readVersion rest
      | "TAG" => readTagHandle rest
      | _ => none
    match directive? with
    | some (token, rest) => (endLine rest).map (token, ·)
    | none => none

end TraefikUpgrade.Yaml
