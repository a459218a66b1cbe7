/-
# What is compiled of the expressions that can be read

An expression that can be read is refused all the same if it is nested too deeply or if its program would
take too much memory. How much a program takes is known to the library that compiles it and not from its
documentation. So `Limits` leaves open which expressions are within the limits, and what depends on them
is defined and proved for any.

To run something, limits are needed that can be computed. `Limits.documented` refuses what is sure to
be refused: expressions with groups and repetitions nested deeper than 250, and those for which the
states that cannot be spared take more than 10 MiB.

Key definitions: `Limits`, `parse`, `isValid`, `Ast.mayFit`.
-/
import TraefikUpgrade.Regex.Parser

namespace TraefikUpgrade.Regex

/-- The limits of the library that compiles expressions. -/
class Limits where
  /-- Whether an expression is neither nested too deeply nor too large when it is compiled. -/
  fits : String → Bool

/-- The expression of a pattern that can be read and is within the limits. -/
def parse [Limits] (pattern : String) : Option Ast :=
  if Limits.fits pattern then read pattern else none

/-- Whether a pattern is a regular expression that can be compiled. -/
def isValid [Limits] (pattern : String) : Bool := (parse pattern).isSome

namespace Ast

/-- How deep groups and repetitions are nested. -/
def depth : Ast → Nat
  | .empty | .literal _ | .dot | .assertion _ | .set _ | .flags _ => 0
  | .repetition operand _ _ _ => operand.depth + 1
  | .group _ body => body.depth + 1
  | .sequence first second => max first.depth second.depth
  | .choice left right => max left.depth right.depth

/-- Whether flags are switched somewhere in an expression. -/
def switchesFlags : Ast → Bool
  | .empty | .literal _ | .dot | .assertion _ | .set _ => false
  | .flags _ => true
  | .repetition operand _ _ _ => operand.switchesFlags
  | .group (.plain items) body => !items.isEmpty || body.switchesFlags
  | .group _ body => body.switchesFlags
  | .sequence first second => first.switchesFlags || second.switchesFlags
  | .choice left right => left.switchesFlags || right.switchesFlags

/-- The bytes that the program of an expression takes at least. A state takes 32 of them and reads one
byte of the text, `word` is what the set of the word characters takes, and an operand is compiled once
for each time that it may be repeated. Conditions on a place are not counted, since those that are
repeated are compiled once. -/
def size (word : Nat) : Ast → Nat
  | .empty | .assertion _ | .flags _ => 0
  | .literal c => 32 * c.utf8Size
  | .dot => 32
  | .set s => if s = .letter .word then word else 32
  | .repetition operand least most _ => most.getD (max 1 least) * operand.size word
  | .group _ body => body.size word
  | .sequence first second => first.size word + second.size word
  | .choice left right => max (left.size word) (right.size word)

/-- Whether an expression is within the limits as far as they are known. There is one state for the end
of the match, and the word characters take 45 000 bytes unless flags may have made them those of ASCII. -/
def mayFit (ast : Ast) : Bool :=
  decide (ast.depth ≤ 250) &&
    decide (32 + ast.size (if ast.switchesFlags then 32 else 45000) ≤ 10 * 1024 * 1024)

end Ast

/-- What is known of the limits. -/
instance Limits.documented : Limits where
  fits pattern := (read pattern).all Ast.mayFit

end TraefikUpgrade.Regex
