/-
# Regular expressions as trees

`Ast` is a parsed regular expression and `CharSet` a set of characters written in one. The groups of an
expression are counted by their opening parentheses, from left to right (`Ast.captures`); the
whole match is not among them.

Key definitions: `Ast`, `CharSet`, `Ast.captures`.
-/
namespace TraefikUpgrade.Regex

/-- The character classes with a letter of their own. -/
inductive LetterClass where
  | digit
  | space
  | word
deriving DecidableEq, Repr

/-- The ways to join two sets inside brackets. -/
inductive SetOperator where
  | intersection
  | difference
  | symmetricDifference
deriving DecidableEq, Repr

/-- A set of characters. A named set is of ASCII characters; a property is given by the text that
names it, and perhaps by that of its value. -/
inductive CharSet where
  | empty
  | range (first last : Char)
  | letter (name : LetterClass)
  | named (name : String)
  | property (name : String) (value : Option String)
  | complement (set : CharSet)
  | union (left right : CharSet)
  | join (operator : SetOperator) (left right : CharSet)
deriving DecidableEq, Repr

/-- Conditions on a place in the text. -/
inductive Assertion where
  | lineStart
  | lineEnd
  | textStart
  | textEnd
  | wordBoundary
  | noWordBoundary
  | wordStart
  | wordEnd
  | wordStartHalf
  | wordEndHalf
deriving DecidableEq, Repr

/-- Settings that a pattern can switch. -/
inductive Flag where
  | ignoreCase
  | multiLine
  | dotMatchesLineFeed
  | swapGreed
  | unicode
  | carriageReturn
  | ignoreBlanks
deriving DecidableEq, Repr

/-- An entry of a list of flags; the flags after a minus sign are switched off. -/
inductive FlagItem where
  | minus
  | flag (flag : Flag)
deriving DecidableEq, Repr

/-- What a pair of parentheses is for. -/
inductive GroupKind where
  | numbered
  | named (name : String)
  | plain (flags : List FlagItem)
deriving DecidableEq, Repr

/-- A regular expression. -/
inductive Ast where
  | empty
  | literal (c : Char)
  | dot
  | assertion (kind : Assertion)
  | set (set : CharSet)
  | flags (items : List FlagItem)
  | repetition (operand : Ast) (least : Nat) (most : Option Nat) (greedy : Bool)
  | group (kind : GroupKind) (body : Ast)
  | sequence (first second : Ast)
  | choice (left right : Ast)
deriving DecidableEq, Repr

namespace Ast

/-- The capture groups in the order of their opening parentheses; a numbered one has no name. -/
def captures : Ast → List (Option String)
  | .empty | .literal _ | .dot | .assertion _ | .set _ | .flags _ => []
  | .repetition operand _ _ _ => operand.captures
  | .group .numbered body => none :: body.captures
  | .group (.named name) body => some name :: body.captures
  | .group (.plain _) body => body.captures
  | .sequence first second => first.captures ++ second.captures
  | .choice left right => left.captures ++ right.captures

end Ast

/-- Whether a list of flags switches a flag, and how. The first mention counts. -/
def stateOf (wanted : Flag) : List FlagItem → Option Bool
  | [] => none
  | .minus :: items => if items.contains (.flag wanted) then some false else none
  | .flag f :: items => if f = wanted then some true else stateOf wanted items

end TraefikUpgrade.Regex
