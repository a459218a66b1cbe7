/-
# Sets of characters in brackets

Between brackets stand characters, ranges, escapes and further sets in brackets of their own; `&&`, `--`
and `~~` join all that stands before them to what follows. A hyphen is a range only between two
characters. `readSet` keeps the brackets that are open in a list, the innermost first.

Key definitions: `OpenSet`, `readMembers`, `readSet`.
-/
import TraefikUpgrade.Regex.Escape

namespace TraefikUpgrade.Regex

/-- What has been read of a set whose bracket is still open: the operands before the last operator,
and the members since. -/
structure OpenSet where
  negated : Bool
  left : Option (CharSet × SetOperator) := none
  members : CharSet := .empty
deriving DecidableEq, Repr

namespace OpenSet

/-- Adds a member. -/
def add (s : OpenSet) (set : CharSet) : OpenSet := { s with members := .union s.members set }

/-- All that has been read, as one set. -/
def joined (s : OpenSet) : CharSet :=
  match s.left with
  | none => s.members
  | some (left, operator) => .join operator left s.members

/-- Goes on to the operand after an operator. -/
def addOperator (s : OpenSet) (operator : SetOperator) : OpenSet :=
  { s with left := some (s.joined, operator), members := .empty }

/-- The set when its bracket is closed. -/
def close (s : OpenSet) : CharSet := if s.negated then .complement s.joined else s.joined

end OpenSet

/-- The ASCII sets with a name. -/
def asciiSets : List String :=
  ["alnum", "alpha", "ascii", "blank", "cntrl", "digit", "graph", "lower", "print", "punct",
    "space", "upper", "word", "xdigit"]

/-- The set of a name before `:]`. -/
def readName? (negated : Bool) (text : List Char) : Option (CharSet × List Char) :=
  match Text.cutAt ':' text with
  | some (name, ']' :: rest) =>
    if asciiSets.contains (String.ofList name) then
      let set := CharSet.named (String.ofList name)
      some (if negated then .complement set else set, rest)
    else none
  | _ => none

/-- A named set, which stands between `[:` and `:]`, after the bracket; a circumflex negates it. What
does not end in `:]`, or has an unknown name, is none. -/
def readNamed : List Char → Option (CharSet × List Char)
  | ':' :: '^' :: text => readName? true text
  | ':' :: text => readName? false text
  | _ => none

/-- The set of one character. -/
def single (c : Char) : CharSet := .range c c

/-- The hyphens at the start of a set, which are members. -/
def readHyphens (mode : Mode) (s : OpenSet) (cs : List Char) : OpenSet × List Char :=
  match _h : mode.skip cs with
  | [] => (s, [])
  | c :: rest => if c = '-' then readHyphens mode (s.add (single '-')) rest else (s, c :: rest)
termination_by cs.length
decreasing_by
  have := mode.length_skip_le cs
  rw [_h] at this
  exact this

/-- The hyphens at the beginning of a set, or else a closing bracket, which is a member there. -/
def openMembers (mode : Mode) (negated : Bool) (cs : List Char) : OpenSet × List Char :=
  match readHyphens mode { negated } cs with
  | (s, ']' :: rest) =>
    if s.members = .empty then (s.add (single ']'), rest) else (s, ']' :: rest)
  | (s, rest) => (s, rest)

/-- The beginning of a set after its bracket. A circumflex negates it. -/
def openSet (mode : Mode) (cs : List Char) : OpenSet × List Char :=
  match mode.skip cs with
  | '^' :: rest => openMembers mode true rest
  | rest => openMembers mode false rest

/-- The next character that counts after a hyphen. Of a comment only the mark is passed over. -/
def Mode.peek (mode : Mode) (cs : List Char) : Option Char :=
  if mode.ignoreBlanks then
    match cs.dropWhile Unicode.isWhiteSpace with
    | '#' :: rest => (rest.dropWhile Unicode.isWhiteSpace).head?
    | rest => rest.head?
  else cs.head?

/-- A character, or an escape. -/
def readAtom (mode : Mode) : List Char → Option (Atom × List Char)
  | [] => none
  | c :: cs => if c = '\\' then readEscape mode cs else some (.literal c, cs)

/-- The character that an atom stands for. Without Unicode it must be ASCII. -/
def Atom.char? (mode : Mode) : Atom → Option Char
  | .literal c => if mode.unicode || c.val < 0x80 then some c else none
  | _ => none

/-- The set that an atom stands for; an assertion is none. -/
def Atom.set? (mode : Mode) : Atom → Option CharSet
  | .set s => some s
  | atom => (atom.char? mode).map single

/-- A member of a set: a range if a hyphen and a further character follow, else what one atom
stands for. -/
def readMember (mode : Mode) (cs : List Char) : Option (CharSet × List Char) :=
  match readAtom mode cs with
  | none => none
  | some (atom, rest) =>
    match mode.skip rest with
    | '-' :: after =>
      if mode.peek after = some ']' || mode.peek after = some '-' then
        (atom.set? mode).map (·, '-' :: after)
      else
        match readAtom mode (mode.skip after) with
        | none => none
        | some (atom', rest') =>
          match atom.char? mode, atom'.char? mode with
          | some first, some last =>
            if first ≤ last then some (.range first last, rest') else none
          | _, _ => none
    | rest' => (atom.set? mode).map (·, rest')

theorem length_lt_of_readName? {negated : Bool} {text rest : List Char} {set : CharSet}
    (h : readName? negated text = some (set, rest)) : rest.length < text.length := by
  unfold readName? at h
  split at h
  · next hcut =>
    split at h
    · simp only [Option.some.injEq, Prod.mk.injEq] at h
      rw [Text.eq_append_of_cutAt hcut, ← h.2]
      simp only [List.length_append, List.length_cons]
      omega
    · simp at h
  · simp at h

theorem length_lt_of_readNamed {cs rest : List Char} {set : CharSet}
    (h : readNamed cs = some (set, rest)) : rest.length < cs.length := by
  unfold readNamed at h
  split at h
  · have := length_lt_of_readName? h; simp only [List.length_cons]; omega
  · have := length_lt_of_readName? h; simp only [List.length_cons]; omega
  · simp at h

theorem length_readHyphens_le (mode : Mode) (s : OpenSet) (cs : List Char) :
    (readHyphens mode s cs).2.length ≤ cs.length := by
  fun_induction readHyphens mode s cs with
  | case1 => simp
  | case2 s cs rest hskip ih =>
    have := mode.length_skip_le cs
    rw [hskip, List.length_cons] at this
    omega
  | case3 s cs c rest hskip =>
    have := mode.length_skip_le cs
    rw [hskip] at this
    exact this

theorem length_openMembers_le (mode : Mode) (negated : Bool) (cs : List Char) :
    (openMembers mode negated cs).2.length ≤ cs.length := by
  have hh := length_readHyphens_le mode { negated } cs
  unfold openMembers
  split
  · next heq =>
    rw [heq, List.length_cons] at hh
    split
    · exact Nat.le_of_succ_le hh
    · exact hh
  · next heq => rw [heq] at hh; exact hh

theorem length_openSet_le (mode : Mode) (cs : List Char) :
    (openSet mode cs).2.length ≤ cs.length := by
  have hskip := mode.length_skip_le cs
  unfold openSet
  split
  · next rest hcs =>
    have := length_openMembers_le mode true rest
    rw [hcs, List.length_cons] at hskip
    omega
  · have := length_openMembers_le mode false (mode.skip cs)
    omega

theorem length_lt_of_readAtom {mode : Mode} {cs rest : List Char} {atom : Atom}
    (h : readAtom mode cs = some (atom, rest)) : rest.length < cs.length := by
  unfold readAtom at h
  split at h
  · simp at h
  · split at h
    · have := length_lt_of_readEscape h
      simp only [List.length_cons]
      omega
    · simp only [Option.some.injEq, Prod.mk.injEq] at h
      simp [h.2]

theorem length_lt_of_readMember {mode : Mode} {cs rest : List Char} {set : CharSet}
    (h : readMember mode cs = some (set, rest)) : rest.length < cs.length := by
  unfold readMember at h
  split at h
  · simp at h
  · next ha =>
    have hlt := length_lt_of_readAtom ha
    have hskip := mode.length_skip_le ‹_›
    split at h
    · next hcs =>
      rw [hcs, List.length_cons] at hskip
      split at h
      · simp only [Option.map_eq_some_iff, Prod.mk.injEq] at h
        obtain ⟨_, _, _, rfl⟩ := h
        simp only [List.length_cons]
        omega
      · split at h
        · simp at h
        · next after _ _ _ _ hb =>
          have := length_lt_of_readAtom hb
          have := mode.length_skip_le after
          repeat' split at h
          all_goals simp only [Option.some.injEq, Prod.mk.injEq, reduceCtorEq] at h
          rw [← h.2]
          omega
    · simp only [Option.map_eq_some_iff, Prod.mk.injEq] at h
      obtain ⟨_, _, _, rfl⟩ := h
      omega

/-- The rest of a set whose innermost open bracket is `top`, in the others of `outer`. Without Unicode,
a negated set would reach beyond ASCII and is refused. -/
def readMembers (mode : Mode) (outer : List OpenSet) (top : OpenSet) (cs : List Char) :
    Option (CharSet × List Char) :=
  match _hs : mode.skip cs with
  | [] => none
  | '[' :: rest =>
    match _h : readNamed rest with
    | some (.complement set, rest') =>
      if mode.unicode then readMembers mode outer (top.add (.complement set)) rest' else none
    | some (set, rest') => readMembers mode outer (top.add set) rest'
    | none => readMembers mode (top :: outer) (openSet mode rest).1 (openSet mode rest).2
  | ']' :: rest =>
    if top.negated && !mode.unicode then none
    else
      match outer with
      | [] => some (top.close, rest)
      | next :: outer => readMembers mode outer (next.add top.close) rest
  | '&' :: '&' :: rest => readMembers mode outer (top.addOperator .intersection) rest
  | '-' :: '-' :: rest => readMembers mode outer (top.addOperator .difference) rest
  | '~' :: '~' :: rest => readMembers mode outer (top.addOperator .symmetricDifference) rest
  | c :: rest =>
    match _h : readMember mode (c :: rest) with
    | some (set, rest') => readMembers mode outer (top.add set) rest'
    | none => none
termination_by cs.length
decreasing_by
  all_goals
    have hskip := mode.length_skip_le cs
    rw [_hs] at hskip
    simp only [List.length_cons] at hskip
  case _ => have := length_lt_of_readNamed _h; omega
  case _ => have := length_lt_of_readNamed _h; omega
  case _ => have := length_openSet_le mode rest; omega
  case _ => omega
  case _ => omega
  case _ => omega
  case _ => omega
  case _ =>
    have := length_lt_of_readMember _h
    simp only [List.length_cons] at this
    omega

/-- A set after its opening bracket. -/
def readSet (mode : Mode) (cs : List Char) : Option (CharSet × List Char) :=
  readMembers mode [] (openSet mode cs).1 (openSet mode cs).2

theorem length_lt_of_readMembers {mode : Mode} {outer : List OpenSet} {top : OpenSet}
    {cs rest : List Char} {set : CharSet}
    (h : readMembers mode outer top cs = some (set, rest)) : rest.length < cs.length := by
  fun_induction readMembers mode outer top cs
  all_goals grind [Mode.length_skip_le, → length_lt_of_readNamed, → length_lt_of_readMember,
    length_openSet_le]

theorem length_lt_of_readSet {mode : Mode} {cs rest : List Char} {set : CharSet}
    (h : readSet mode cs = some (set, rest)) : rest.length < cs.length := by
  have := length_lt_of_readMembers h
  have := length_openSet_le mode cs
  omega

end TraefikUpgrade.Regex
