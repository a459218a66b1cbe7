/-
# Reading a regular expression

A pattern is read from left to right. `State` holds what has been read: the items of the current
alternative, the alternatives before it, and the groups that are still open with what stood before
them. Flags switched inside a group end with it. `read` gives nothing for a pattern that cannot be read;
the names of its groups must differ from each other.

Key definitions: `State`, `advance`, `run`, `read`.
-/
import TraefikUpgrade.Regex.Bracket
import TraefikUpgrade.Unicode.Alphabetic
import TraefikUpgrade.Unicode.Numeric

namespace TraefikUpgrade.Regex

/-- Alternatives and items read so far, in each list the last one first. -/
structure Branches where
  items : List Ast := []
  alternatives : List Ast := []
deriving DecidableEq, Repr

namespace Branches

/-- The items of the current alternative in sequence. -/
def current (b : Branches) : Ast := b.items.foldl (fun rest item => .sequence item rest) .empty

/-- Everything read, as one expression. -/
def close (b : Branches) : Ast :=
  b.alternatives.foldl (fun rest branch => .choice branch rest) b.current

/-- Adds an item to the current alternative. -/
def push (b : Branches) (item : Ast) : Branches := { b with items := item :: b.items }

/-- Begins the next alternative. -/
def nextAlternative (b : Branches) : Branches := ⟨[], b.current :: b.alternatives⟩

end Branches

/-- A group that is still open: what stood before it, and the mode to return to after it. -/
structure OpenGroup where
  kind : GroupKind
  before : Branches
  mode : Mode
deriving DecidableEq, Repr

/-- What has been read of a pattern. -/
structure State where
  branches : Branches := {}
  opened : List OpenGroup := []
  mode : Mode := {}
deriving DecidableEq, Repr

/-- Adds an item. -/
def State.push (s : State) (item : Ast) : State := { s with branches := s.branches.push item }

/-- Whether a character may begin the name of a group. -/
def isGroupNameStart (c : Char) : Bool := c == '_' || Unicode.isAlphabetic c

/-- Whether a character may stand in the name of a group. -/
def isGroupNamePart (c : Char) : Bool :=
  c == '_' || c == '.' || c == '[' || c == ']' || Unicode.isAlphabetic c || Unicode.isNumeric c

/-- Whether a text is the name of a group. -/
def isGroupName : List Char → Bool
  | [] => false
  | c :: cs => isGroupNameStart c && cs.all isGroupNamePart

/-- The flag of a letter. -/
def flag? (c : Char) : Option Flag :=
  match c with
  | 'i' => some .ignoreCase
  | 'm' => some .multiLine
  | 's' => some .dotMatchesLineFeed
  | 'U' => some .swapGreed
  | 'u' => some .unicode
  | 'R' => some .carriageReturn
  | 'x' => some .ignoreBlanks
  | _ => none

/-- The flags up to a colon or closing parenthesis, whether it was the colon, and what follows. No
flag is given twice, there is one minus sign at most, and it is not the last entry. `seen` holds the
entries before, the last one first. -/
def readFlags (seen : List FlagItem) : List Char → Option (List FlagItem × Bool × List Char)
  | [] => none
  | c :: cs =>
    if c = ':' || c = ')' then
      if seen.head? = some .minus then none else some (seen.reverse, c = ':', cs)
    else if c = '-' then
      if seen.contains .minus then none else readFlags (.minus :: seen) cs
    else
      match flag? c with
      | none => none
      | some f => if seen.contains (.flag f) then none else readFlags (.flag f :: seen) cs

/-- Opens a group. -/
def State.openGroup (s : State) (kind : GroupKind) (mode : Mode) : State :=
  ⟨{}, ⟨kind, s.branches, s.mode⟩ :: s.opened, mode⟩

/-- A name up to the closing angle bracket opens a named group. -/
def readNamedGroup (s : State) (cs : List Char) : Option (State × List Char) :=
  match Text.cutAt '>' cs with
  | none => none
  | some (name, rest) =>
    if isGroupName name then some (s.openGroup (.named (String.ofList name)) s.mode, rest) else none

/-- What follows an opening parenthesis: a group of one of the three kinds, or flags for the rest of the
group around them. There are no look-arounds. -/
def readGroup (s : State) (cs : List Char) : Option (State × List Char) :=
  match cs with
  | '?' :: '=' :: _ | '?' :: '!' :: _ | '?' :: '<' :: '=' :: _ | '?' :: '<' :: '!' :: _ => none
  | '?' :: 'P' :: '<' :: rest => readNamedGroup s rest
  | '?' :: '<' :: rest => readNamedGroup s rest
  | '?' :: rest =>
    match readFlags [] rest with
    | none => none
    | some (items, true, rest') => some (s.openGroup (.plain items) (s.mode.switched items), rest')
    | some (items, false, rest') =>
      if items.isEmpty then none
      else some ({ s with branches := s.branches.push (.flags items), mode := s.mode.switched items },
        rest')
  | rest => some (s.openGroup .numbered s.mode, rest)

/-- Closes the innermost open group. -/
def State.closeGroup (s : State) : Option State :=
  match s.opened with
  | [] => none
  | g :: outer => some ⟨g.before.push (.group g.kind s.branches.close), outer, g.mode⟩

/-- Whether an expression can be repeated. A list of flags cannot. -/
def isRepeatable : Ast → Bool
  | .empty | .flags _ => false
  | _ => true

/-- Repeats the last item. -/
def State.repeatLast (s : State) (least : Nat) (most : Option Nat) (greedy : Bool) : Option State :=
  match s.branches.items with
  | item :: items =>
    if isRepeatable item then
      some { s with branches :=
        { s.branches with items := .repetition item least most greedy :: items } }
    else none
  | [] => none

/-- A question mark after a repetition makes it prefer fewer. -/
def readGreed : List Char → Bool × List Char
  | '?' :: rest => (false, rest)
  | rest => (true, rest)

/-- The digits at the start; blanks after each may be skipped. -/
def readDigits (mode : Mode) (cs : List Char) : List Char × List Char :=
  match cs with
  | [] => ([], [])
  | c :: rest =>
    if c.isDigit then
      let (digits, rest') := readDigits mode (mode.skip rest)
      (c :: digits, rest')
    else ([], c :: rest)
termination_by cs.length
decreasing_by
  have := mode.length_skip_le rest
  simp only [List.length_cons]
  omega

/-- The number of decimal digits. -/
def decimal (digits : List Char) : Nat := digits.foldl (fun n c => 10 * n + (c.toNat - 48)) 0

/-- A count inside the braces of a repetition, with the white space around it; it fits in 32 bits. The
first answer is whether there were digits. -/
def readCount (mode : Mode) (cs : List Char) : Option (Option Nat × List Char) :=
  let (digits, rest) := readDigits mode (cs.dropWhile Unicode.isWhiteSpace)
  let rest := mode.skip (rest.dropWhile Unicode.isWhiteSpace)
  if digits.isEmpty then some (none, rest)
  else if decimal digits < 4294967296 then some (some (decimal digits), rest)
  else none

/-- The bounds of a repetition after its opening brace. -/
def readBounds (mode : Mode) (cs : List Char) : Option ((Nat × Option Nat) × List Char) :=
  match readCount mode (mode.skip cs) with
  | some (some least, '}' :: rest) => some ((least, some least), rest)
  | some (some least, ',' :: rest) =>
    match mode.skip rest with
    | '}' :: rest => some ((least, none), rest)
    | rest =>
      match readCount mode rest with
      | some (some most, '}' :: rest) =>
        if least ≤ most then some ((least, some most), rest) else none
      | _ => none
  | _ => none

/-- What an atom is as an expression. -/
def Atom.ast : Atom → Ast
  | .literal c => .literal c
  | .assertion kind => .assertion kind
  | .set s => .set s

/-- Reads the next piece of a pattern, which begins with `c`. Without Unicode a dot would match a part
of a character and is refused. -/
def advance (s : State) (c : Char) (cs : List Char) : Option (State × List Char) :=
  match c with
  | '(' => readGroup s (s.mode.skip cs)
  | ')' => s.closeGroup.map (·, cs)
  | '|' => some ({ s with branches := s.branches.nextAlternative }, cs)
  | '[' => (readSet s.mode cs).map fun (set, rest) => (s.push (.set set), rest)
  | '?' => (s.repeatLast 0 (some 1) (readGreed cs).1).map (·, (readGreed cs).2)
  | '*' => (s.repeatLast 0 none (readGreed cs).1).map (·, (readGreed cs).2)
  | '+' => (s.repeatLast 1 none (readGreed cs).1).map (·, (readGreed cs).2)
  | '{' =>
    (readBounds s.mode cs).bind fun ((least, most), rest) =>
      let (greedy, rest') := readGreed (s.mode.skip rest)
      (s.repeatLast least most greedy).map (·, rest')
  | '\\' => (readEscape s.mode cs).map fun (atom, rest) => (s.push atom.ast, rest)
  | '.' => if s.mode.unicode then some (s.push .dot, cs) else none
  | '^' => some (s.push (.assertion .lineStart), cs)
  | '$' => some (s.push (.assertion .lineEnd), cs)
  | c => some (s.push (.literal c), cs)

theorem length_le_of_readFlags {seen items : List FlagItem} {colon : Bool} {cs rest : List Char}
    (h : readFlags seen cs = some (items, colon, rest)) : rest.length ≤ cs.length := by
  fun_induction readFlags seen cs <;> grind

theorem length_le_of_readGroup {s s' : State} {cs rest : List Char}
    (h : readGroup s cs = some (s', rest)) : rest.length ≤ cs.length := by
  have named : ∀ text, readNamedGroup s text = some (s', rest) → rest.length ≤ text.length := by
    intro text h
    unfold readNamedGroup at h
    split at h
    · simp at h
    · next hcut =>
      split at h
      · simp only [Option.some.injEq, Prod.mk.injEq] at h
        rw [Text.eq_append_of_cutAt hcut, ← h.2]
        simp only [List.length_append, List.length_cons]
        omega
      · simp at h
  unfold readGroup at h
  grind [→ length_le_of_readFlags]

theorem length_readGreed_le (cs : List Char) : (readGreed cs).2.length ≤ cs.length := by
  unfold readGreed; split <;> simp

theorem length_readDigits_le (mode : Mode) (cs : List Char) :
    (readDigits mode cs).2.length ≤ cs.length := by
  fun_induction readDigits mode cs <;> grind [Mode.length_skip_le]

theorem length_le_of_readCount {mode : Mode} {cs rest : List Char} {count : Option Nat}
    (h : readCount mode cs = some (count, rest)) : rest.length ≤ cs.length := by
  have h₁ := (List.dropWhile_sublist (p := Unicode.isWhiteSpace) (l := cs)).length_le
  have h₂ := length_readDigits_le mode (cs.dropWhile Unicode.isWhiteSpace)
  have h₃ := (List.dropWhile_sublist (p := Unicode.isWhiteSpace)
    (l := (readDigits mode (cs.dropWhile Unicode.isWhiteSpace)).2)).length_le
  have h₄ := mode.length_skip_le
    ((readDigits mode (cs.dropWhile Unicode.isWhiteSpace)).2.dropWhile Unicode.isWhiteSpace)
  unfold readCount at h
  grind

theorem length_le_of_readBounds {mode : Mode} {cs rest : List Char} {bounds : Nat × Option Nat}
    (h : readBounds mode cs = some (bounds, rest)) : rest.length ≤ cs.length := by
  unfold readBounds at h
  grind [Mode.length_skip_le, → length_le_of_readCount]

/-- A piece takes its first character at least. -/
theorem length_le_of_advance {s s' : State} {c : Char} {cs rest : List Char}
    (h : advance s c cs = some (s', rest)) : rest.length ≤ cs.length := by
  unfold advance at h
  split at h
  all_goals
    try simp only [Option.map_eq_some_iff, Option.bind_eq_some_iff, Prod.mk.injEq,
      Option.some.injEq] at h
  all_goals grind [Mode.length_skip_le, → length_le_of_readGroup, → length_lt_of_readSet,
    length_readGreed_le, → length_le_of_readBounds, → length_lt_of_readEscape]

/-- Reads a pattern to its end. -/
def run (s : State) (cs : List Char) : Option State :=
  match _hs : s.mode.skip cs with
  | [] => some s
  | c :: rest =>
    match _h : advance s c rest with
    | none => none
    | some (s', rest') => run s' rest'
termination_by cs.length
decreasing_by
  have := s.mode.length_skip_le cs
  have := length_le_of_advance _h
  rw [_hs, List.length_cons] at *
  omega

/-- The expression of a pattern, if all its groups are closed and their names differ. -/
def read (pattern : String) : Option Ast :=
  match run {} pattern.toList with
  | some ⟨branches, [], _⟩ =>
    if (branches.close.captures.filterMap id).Nodup then some branches.close else none
  | _ => none

end TraefikUpgrade.Regex
