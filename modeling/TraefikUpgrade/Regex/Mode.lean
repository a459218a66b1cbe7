/-
# Blanks in patterns

While the flag `x` is on, blanks in a pattern mean nothing and a `#` begins a comment that ends with the
line. `Mode` holds the two flags that decide how a pattern is read, and `Mode.skip` passes over what
means nothing.

Key definitions: `Mode`, `Mode.skip`, `Mode.switched`.
-/
import TraefikUpgrade.Regex.Ast
import TraefikUpgrade.Unicode.WhiteSpace

namespace TraefikUpgrade.Regex

/-- The flags that decide how a pattern is read. -/
structure Mode where
  ignoreBlanks : Bool := false
  unicode : Bool := true
deriving DecidableEq, Repr

/-- Passes over blanks and comments; `inComment` says whether a comment has begun. -/
def skipBlanks (inComment : Bool) : List Char → List Char
  | [] => []
  | c :: cs =>
    if inComment then skipBlanks (c != '\n') cs
    else if Unicode.isWhiteSpace c then skipBlanks false cs
    else if c = '#' then skipBlanks true cs
    else c :: cs

namespace Mode

/-- Passes over what means nothing in this mode. -/
def skip (mode : Mode) (cs : List Char) : List Char :=
  if mode.ignoreBlanks then skipBlanks false cs else cs

/-- The mode after a list of flags. -/
def switched (mode : Mode) (items : List FlagItem) : Mode :=
  ⟨(stateOf .ignoreBlanks items).getD mode.ignoreBlanks,
    (stateOf .unicode items).getD mode.unicode⟩

end Mode

theorem length_skipBlanks_le (inComment : Bool) (cs : List Char) :
    (skipBlanks inComment cs).length ≤ cs.length := by
  induction cs generalizing inComment with
  | nil => simp [skipBlanks]
  | cons c cs ih =>
    unfold skipBlanks
    repeat' split
    all_goals simp only [List.length_cons]
    all_goals first | exact Nat.le_succ_of_le (ih _) | exact Nat.le_refl _

/-- Skipping adds nothing. -/
theorem Mode.length_skip_le (mode : Mode) (cs : List Char) :
    (mode.skip cs).length ≤ cs.length := by
  unfold Mode.skip
  split
  · exact length_skipBlanks_le false cs
  · exact Nat.le_refl _

end TraefikUpgrade.Regex
