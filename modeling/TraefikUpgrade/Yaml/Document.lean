/-
# The values of a stream's documents

In a document, an alias stands for the node with its anchor. A number is given to every anchor name when
it is first met, namely the count of names so far; the alias takes the number that its name has when it is
met, and stands for the last node that got this number. So where a name is given twice, its second number
may be shared with the next new name.

Collections can be nested up to 128 levels, and aliases followed a hundred times for every node.

Key definitions: `Linked`, `link`, `load`, `readAll`.
-/
import TraefikUpgrade.Yaml.Node.Parser
import TraefikUpgrade.Yaml.Scalar
import TraefikUpgrade.Yaml.Token.Lexer

namespace TraefikUpgrade.Yaml

/-- A node whose aliases are numbers. -/
inductive Linked where
  | alias (number : Nat)
  | scalar (tag : Option String) (plain : Bool) (text : String)
  | sequence (tag : Option String) (entries : List Linked)
  | mapping (tag : Option String) (entries : List (Linked × Linked))
deriving Repr

/-- What is known of a document's anchors. A place is the count of what was met before. -/
structure Anchors where
  /-- The numbers of the names. -/
  names : List (String × Nat) := []
  /-- The places of the numbered nodes, the last one first. -/
  places : List (Nat × Nat) := []
  /-- The nodes at the places. -/
  nodes : List (Nat × Linked) := []
  /-- The scalars, aliases, and beginnings and ends of collections met so far. -/
  met : Nat := 0
deriving Repr

namespace Anchors

/-- Notes what is met next; if it has an anchor, its name gets a number. -/
def meet (a : Anchors) (anchor : Option String) : Anchors :=
  match anchor with
  | none => { a with met := a.met + 1 }
  | some name =>
    let number := a.names.length
    { a with
      names := (name, number) :: a.names.filter (·.1 != name)
      places := (number, a.met) :: a.places
      met := a.met + 1 }

/-- Notes the end of a collection. -/
def meetEnd (a : Anchors) : Anchors := { a with met := a.met + 1 }

/-- Keeps a node with an anchor at its place. -/
def keep (a : Anchors) (place : Nat) (anchor : Option String) (node : Linked) : Anchors :=
  if anchor.isSome then { a with nodes := (place, node) :: a.nodes } else a

/-- The node that an alias stands for. -/
def node? (a : Anchors) (number : Nat) : Option Linked :=
  (a.places.lookup number).bind fun place => a.nodes.lookup place

end Anchors

mutual

/-- Replaces the aliases in a node by numbers. An unknown name is an error. -/
def link (a : Anchors) : Node → Option (Linked × Anchors)
  | .alias name => (a.names.lookup name).map fun number => (.alias number, a.meet none)
  | .scalar properties plain text =>
    let node := Linked.scalar properties.tag plain text
    some (node, (a.meet properties.anchor).keep a.met properties.anchor node)
  | .sequence properties entries =>
    (linkItems (a.meet properties.anchor) entries).map fun (entries, after) =>
      let node := Linked.sequence properties.tag entries
      (node, after.meetEnd.keep a.met properties.anchor node)
  | .mapping properties entries =>
    (linkEntries (a.meet properties.anchor) entries).map fun (entries, after) =>
      let node := Linked.mapping properties.tag entries
      (node, after.meetEnd.keep a.met properties.anchor node)

/-- Replaces the aliases in the nodes of a list. -/
def linkItems (a : Anchors) : List Node → Option (List Linked × Anchors)
  | [] => some ([], a)
  | node :: nodes =>
    match link a node with
    | none => none
    | some (node, a) => (linkItems a nodes).map fun (nodes, a) => (node :: nodes, a)

/-- Replaces the aliases in the nodes of a list of pairs. -/
def linkEntries (a : Anchors) : List (Node × Node) → Option (List (Linked × Linked) × Anchors)
  | [] => some ([], a)
  | (key, value) :: entries =>
    match link a key with
    | none => none
    | some (key, a) =>
      match link a value with
      | none => none
      | some (value, a) =>
        (linkEntries a entries).map fun (entries, a) => ((key, value) :: entries, a)

end

/-- A tag that a value keeps: one that begins with an exclamation mark, without the mark. Where the tag
began with two of them, both go. -/
def localTag? (tag : Option String) : Option String :=
  let strip : List Char → List Char
    | '!' :: c :: cs => c :: cs
    | cs => cs
  match tag.map String.toList with
  | some ('!' :: cs) => some (String.ofList (strip (strip ('!' :: cs))))
  | _ => none

/-- Adds the tag of a node to its value. -/
def withTag (tag : Option String) (v : Value) : Value :=
  match localTag? tag with
  | some tag => .tagged tag v
  | none => v

/-- The value of a scalar. -/
def scalarValue (tag : Option String) (plain : Bool) (text : String) : Option Value :=
  match tag, localTag? tag with
  | some tag, none => resolveTagged tag text
  | _, _ => if plain then resolvePlain text else some (.text text)

/-- The node that an alias stands for, or else the node itself. `left` aliases more may be
followed. -/
def follow (a : Anchors) (left : Nat) (node : Linked) : Option (Linked × Nat) :=
  match node with
  | .alias number =>
    match left with
    | 0 => none
    | left + 1 => (a.node? number).map (·, left)
  | node => some (node, left)

/-- Whether a list of entries has a key. -/
def hasKey (entries : List (Value × Value)) (key : Value) : Bool :=
  entries.any fun entry => entry.1.same key

/-- The value of a node, with the count of aliases that may still be followed. Collections may be nested
`depth` levels. -/
def load (a : Anchors) (depth left : Nat) (node : Linked) : Option (Value × Nat) :=
  match follow a left node with
  | none => none
  | some (node, left) =>
    match node, depth with
    | .alias _, _ => none
    | .scalar tag plain text, _ =>
      (scalarValue tag plain text).map fun v => (withTag tag v, left)
    | .sequence _ _, 0 => none
    | .mapping _ _, 0 => none
    | .sequence tag nodes, depth + 1 => do
      let (items, left) ← nodes.foldlM (fun (items, left) node => do
        let (item, left) ← load a depth left node
        return (item :: items, left)) ([], left)
      return (withTag tag (.sequence items.reverse), left)
    | .mapping tag nodes, depth + 1 => do
      let (entries, left) ← nodes.foldlM (fun (entries, left) node => do
        let (key, left) ← load a depth left node.1
        if hasKey entries key then none
        let (value, left) ← load a depth left node.2
        return ((key, value) :: entries, left)) ([], left)
      return (withTag tag (.mapping entries.reverse), left)

/-- The value of a document. -/
def value? (root : Node) : Option Value := do
  let (node, anchors) ← link {} root
  let (v, _) ← load anchors 128 (100 * anchors.met) node
  return v

/-- The values of a stream's documents, with nothing for one that cannot be read. No more documents
follow one that is in error as it is written. -/
def readAll (text : String) : List (Option Value) :=
  let (tokens, complete) := scan text.toList
  let (roots, sound) := documents tokens
  roots.map value? ++ if complete && sound then [] else [none]

end TraefikUpgrade.Yaml
