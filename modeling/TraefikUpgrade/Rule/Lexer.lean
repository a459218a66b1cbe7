/-
# Reading the tokens of a rule

Blanks separate tokens and mean nothing else. A string stands between backticks, where every character
is itself, or between double quotes, where a backslash takes the next character as it is (`\n` and `\t`
are a line feed and a tab). A name is a letter or underscore, then letters, digits and underscores.

Key definitions: `tokenAt`, `tokensFrom`, `tokenize`.
-/
import TraefikUpgrade.Rule.Fault
import TraefikUpgrade.Text.Cut
import TraefikUpgrade.Unicode.Alphabetic
import TraefikUpgrade.Unicode.Numeric
import TraefikUpgrade.Unicode.WhiteSpace

namespace TraefikUpgrade.Rule

/-- Whether a character may begin a matcher name. -/
def isNameStart (c : Char) : Bool := Unicode.isAlphabetic c || c == '_'

/-- Whether a character may stand in a matcher name. -/
def isNamePart (c : Char) : Bool := Unicode.isAlphabetic c || Unicode.isNumeric c || c == '_'

/-- The character that an escaped one stands for. -/
def unescape (c : Char) : Char := if c = 'n' then '\n' else if c = 't' then '\t' else c

/-- The contents of a double-quoted string up to its closing quote, and what follows. -/
def quotedString : List Char → Option (List Char × List Char)
  | [] => none
  | [c] => if c = '\x22' then some ([], []) else none
  | c :: d :: cs =>
    if c = '\x22' then some ([], d :: cs)
    else if c = '\\' then (quotedString cs).map fun (value, rest) => (unescape d :: value, rest)
    else (quotedString (d :: cs)).map fun (value, rest) => (c :: value, rest)

/-- The token that begins with `c`, and the characters after it; a blank gives none. -/
def tokenAt (c : Char) (cs : List Char) : Except Fault (Option Token × List Char) :=
  if Unicode.isWhiteSpace c then .ok (none, cs)
  else if c = '(' then .ok (some .openParen, cs)
  else if c = ')' then .ok (some .closeParen, cs)
  else if c = ',' then .ok (some .comma, cs)
  else if c = '!' then .ok (some .negation, cs)
  else if c = '&' || c = '|' then
    match cs with
    | [] => .error (.single c)
    | d :: rest =>
      if d = c then .ok (some (if c = '&' then .conjunction else .disjunction), rest)
      else .error (.single c)
  else if c = '\x60' then
    match Text.cutAt '\x60' cs with
    | some (value, rest) => .ok (some (.text (String.ofList value)), rest)
    | none => .error .unterminatedString
  else if c = '\x22' then
    match quotedString cs with
    | some (value, rest) => .ok (some (.text (String.ofList value)), rest)
    | none => .error .unterminatedString
  else if isNameStart c then
    .ok (some (.identifier (String.ofList (c :: cs.takeWhile isNamePart))), cs.dropWhile isNamePart)
  else .error (.character c)

theorem length_le_of_quotedString {cs value rest : List Char}
    (h : quotedString cs = some (value, rest)) : rest.length ≤ cs.length := by
  fun_induction quotedString cs generalizing value with
  | case1 | case2 | case3 => simp_all
  | case4 d cs => simp only [Option.some.injEq, Prod.mk.injEq] at h; simp [← h.2]
  | case5 | case6 =>
    rename_i ih
    obtain ⟨p, hp, he⟩ := Option.map_eq_some_iff.1 h
    simp only [Prod.mk.injEq] at he
    have := @ih p.1 (by rw [hp, ← he.2])
    simp only [List.length_cons] at this ⊢
    omega

/-- A token takes its first character at least. -/
theorem length_le_of_tokenAt {c : Char} {cs rest : List Char} {token : Option Token}
    (h : tokenAt c cs = .ok (token, rest)) : rest.length ≤ cs.length := by
  unfold tokenAt at h
  repeat' split at h
  all_goals simp only [Except.ok.injEq, Prod.mk.injEq, reduceCtorEq] at h
  all_goals obtain ⟨-, rfl⟩ := h
  case h_1 hcut => rw [Text.eq_append_of_cutAt hcut]; simp; omega
  case h_1 hquoted => exact length_le_of_quotedString hquoted
  all_goals first | exact (List.dropWhile_sublist _).length_le | simp

/-- The tokens of the end `cs` of a rule of `total` bytes. -/
def tokensFrom (total : Nat) (cs : List Char) : Except Refusal (List Located) :=
  match cs with
  | [] => .ok []
  | c :: cs =>
    let offset := total - Text.utf8Length (c :: cs)
    match _h : tokenAt c cs with
    | .error fault => .error ⟨offset, fault⟩
    | .ok (none, rest) => tokensFrom total rest
    | .ok (some token, rest) =>
      match tokensFrom total rest with
      | .error refusal => .error refusal
      | .ok tokens => .ok (⟨offset, token⟩ :: tokens)
termination_by cs.length
decreasing_by
  all_goals
    have := length_le_of_tokenAt _h
    simp only [List.length_cons]
    omega

/-- The tokens of a rule. -/
def tokenize (rule : String) : Except Refusal (List Located) :=
  tokensFrom (Text.utf8Length rule.toList) rule.toList

end TraefikUpgrade.Rule
