/-
# Nodes of a YAML document

A document is a tree of scalars, sequences and mappings, in which an alias stands for the node that has
its anchor. A node may have a tag, given in full.

Key definitions: `Node`, `Properties`.
-/
namespace TraefikUpgrade.Yaml

/-- The anchor and the tag of a node. -/
structure Properties where
  anchor : Option String := none
  tag : Option String := none
deriving DecidableEq, Repr

/-- A node as it is written. -/
inductive Node where
  | alias (name : String)
  | scalar (properties : Properties) (plain : Bool) (text : String)
  | sequence (properties : Properties) (entries : List Node)
  | mapping (properties : Properties) (entries : List (Node × Node))
deriving Repr

/-- A node that is left out. -/
def Node.absent : Node := .scalar {} true ""

end TraefikUpgrade.Yaml
