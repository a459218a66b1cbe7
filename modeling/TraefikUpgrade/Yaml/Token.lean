/-
# Tokens of a YAML stream

A stream is read as a list of tokens: scalars, the properties of nodes, the indicators, and the starts
and ends of collections, those of block style being found by indentation.

Key definition: `Token`.
-/
namespace TraefikUpgrade.Yaml

/-- A token of a stream. -/
inductive Token where
  | version (major minor : Nat)
  | tagHandle (handle replacement : String)
  | documentStart
  | documentEnd
  | streamEnd
  | blockSequenceStart
  | blockMappingStart
  | blockEnd
  | flowSequenceStart
  | flowSequenceEnd
  | flowMappingStart
  | flowMappingEnd
  | blockEntry
  | flowEntry
  | key
  | value
  | alias (name : String)
  | anchor (name : String)
  | tag (handle suffix : String)
  | scalar (plain : Bool) (text : String)
deriving DecidableEq, Repr

end TraefikUpgrade.Yaml
