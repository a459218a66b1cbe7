/-
# Calls in the text of a rule

To be upgraded, a rule is cut into calls and the text around them. A call here is a name, an opening
parenthesis at once, arguments in backticks with commas between them, and a closing parenthesis, with
blanks around the arguments. Whatever has another form stays part of the text.

Key definitions: `CallSite`, `callAt?`, `fragments`.
-/
import TraefikUpgrade.Text.Cut
import TraefikUpgrade.Unicode.WhiteSpace
import TraefikUpgrade.Unicode.Word

namespace TraefikUpgrade.Rule

/-- A matcher call as it stands in a rule. -/
structure CallSite where
  name : List Char
  args : List (List Char)
deriving DecidableEq, Repr

/-- A piece of a rule: a call with its text, or a character outside of all calls. -/
inductive Fragment where
  | call (site : CallSite) (source : List Char)
  | other (c : Char)
deriving DecidableEq, Repr

/-- The characters after blanks. -/
def afterBlanks (cs : List Char) : List Char := cs.dropWhile Unicode.isWhiteSpace

theorem length_afterBlanks_le (cs : List Char) : (afterBlanks cs).length ≤ cs.length :=
  (List.dropWhile_sublist _).length_le

/-- Reads the arguments of a call after its opening parenthesis, with the closing one. -/
def readArgs (cs : List Char) : Option (List (List Char) × List Char) :=
  match _hb : afterBlanks cs with
  | '\x60' :: body =>
    match _hc : Text.cutAt '\x60' body with
    | none => none
    | some (arg, rest) =>
      match _hr : afterBlanks rest with
      | ')' :: rest => some ([arg], rest)
      | ',' :: rest => (readArgs rest).map fun (args, rest) => (arg :: args, rest)
      | _ => none
  | _ => none
termination_by cs.length
decreasing_by grind [length_afterBlanks_le, → Text.length_lt_of_cutAt]

/-- The call at the start of a text, and what follows it. -/
def callAt? (cs : List Char) : Option (CallSite × List Char) :=
  match cs.takeWhile Unicode.isWord, cs.dropWhile Unicode.isWord with
  | [], _ => none
  | name, '(' :: rest => (readArgs rest).map fun (args, rest) => (⟨name, args⟩, rest)
  | _, _ => none

theorem length_lt_of_readArgs {cs rest : List Char} {args : List (List Char)}
    (h : readArgs cs = some (args, rest)) : rest.length < cs.length := by
  fun_induction readArgs cs generalizing args
  all_goals try simp only [Option.map_eq_some_iff, Prod.mk.injEq] at h
  all_goals grind [length_afterBlanks_le, → Text.length_lt_of_cutAt]

/-- A call takes at least one character. -/
theorem length_lt_of_callAt? {cs rest : List Char} {site : CallSite}
    (h : callAt? cs = some (site, rest)) : rest.length < cs.length := by
  have := (List.dropWhile_sublist (p := Unicode.isWord) (l := cs)).length_le
  unfold callAt? at h
  split at h
  all_goals try simp only [Option.map_eq_some_iff, Prod.mk.injEq] at h
  all_goals grind [→ length_lt_of_readArgs]

/-- Cuts a rule into its calls, each as far to the left as can be, and the characters around them. -/
def fragments (cs : List Char) : List Fragment :=
  match cs with
  | [] => []
  | c :: tail =>
    match _h : callAt? (c :: tail) with
    | some (site, rest) =>
      .call site ((c :: tail).take ((c :: tail).length - rest.length)) :: fragments rest
    | none => .other c :: fragments tail
termination_by cs.length
decreasing_by
  · exact length_lt_of_callAt? _h
  · simp

end TraefikUpgrade.Rule
