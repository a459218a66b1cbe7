/-
# Reading the nodes of a stream

The tokens of a stream are read as documents of one node each. A reader takes the tokens that are left
and gives what it read with the tokens after it; where tokens run out, the stream is in error.

Between the brackets of a flow sequence, a key makes a mapping of one entry. A key that is left out
there takes the token after its mark with it.

`fuel` bounds the depth of the readers; no reader calls another one more than four times for a token, so
`documents` gives them enough.

Key definitions: `readNode`, `readDocument`, `documents`.
-/
import TraefikUpgrade.Yaml.Node
import TraefikUpgrade.Yaml.Token

namespace TraefikUpgrade.Yaml

/-- What the handles of a document's tags stand for. -/
abbrev Handles := List (String × String)

/-- The handles that need no directive. -/
def defaultHandles : Handles := [("!", "!"), ("!!", "tag:yaml.org,2002:")]

/-- A tag in full. -/
def resolveTag (handles : Handles) (handle suffix : String) : Option String :=
  if handle.isEmpty then some suffix else (handles.lookup handle).map (· ++ suffix)

/-- The anchor and the tag before a node, in either order. -/
def readProperties (handles : Handles) (tokens : List Token) :
    Option (Properties × List Token) :=
  match tokens with
  | .anchor name :: .tag handle suffix :: rest =>
    (resolveTag handles handle suffix).map fun tag => (⟨some name, some tag⟩, rest)
  | .anchor name :: rest => some (⟨some name, none⟩, rest)
  | .tag handle suffix :: .anchor name :: rest =>
    (resolveTag handles handle suffix).map fun tag => (⟨some name, some tag⟩, rest)
  | .tag handle suffix :: rest =>
    (resolveTag handles handle suffix).map fun tag => (⟨none, some tag⟩, rest)
  | rest => some ({}, rest)

/-- Whether the next token is one of those given. -/
def nextIs (stops : List Token) (tokens : List Token) : Bool :=
  match tokens with
  | [] => false
  | token :: _ => stops.contains token

/-- The properties of a scalar: the exclamation mark alone says that it is taken as it is written. -/
def scalarNode (properties : Properties) (plain : Bool) (text : String) : Node :=
  .scalar (if properties.tag = some "!" then { properties with tag := none } else properties) plain
    text

mutual

/-- Reads a node. A block collection can stand only in a block, and the entries of a mapping may hold a
sequence without indentation. -/
def readNode (fuel : Nat) (handles : Handles) (block unindented : Bool) (tokens : List Token) :
    Option (Node × List Token) :=
  match fuel with
  | 0 => none
  | fuel + 1 =>
    match tokens with
    | .alias name :: rest => some (.alias name, rest)
    | tokens =>
      match readProperties handles tokens with
      | none => none
      | some (properties, rest) =>
        match rest with
        | .scalar plain text :: rest => some (scalarNode properties plain text, rest)
        | .flowSequenceStart :: rest =>
          (readFlowSequence fuel handles true rest).map fun (entries, rest) =>
            (.sequence properties entries, rest)
        | .flowMappingStart :: rest =>
          (readFlowMapping fuel handles true rest).map fun (entries, rest) =>
            (.mapping properties entries, rest)
        | .blockEntry :: rest' =>
          if unindented then
            (readUnindented fuel handles (.blockEntry :: rest')).map fun (entries, rest) =>
              (.sequence properties entries, rest)
          else if properties = {} then none
          else some (.scalar properties true "", .blockEntry :: rest')
        | .blockSequenceStart :: rest' =>
          if block then
            (readBlockSequence fuel handles rest').map fun (entries, rest) =>
              (.sequence properties entries, rest)
          else if properties = {} then none
          else some (.scalar properties true "", .blockSequenceStart :: rest')
        | .blockMappingStart :: rest' =>
          if block then
            (readBlockMapping fuel handles rest').map fun (entries, rest) =>
              (.mapping properties entries, rest)
          else if properties = {} then none
          else some (.scalar properties true "", .blockMappingStart :: rest')
        | [] => none
        | token :: rest' =>
          if properties = {} then none else some (.scalar properties true "", token :: rest')

/-- Reads a node, unless one of the given tokens shows that it is left out. -/
def readNodeOr (fuel : Nat) (handles : Handles) (block unindented : Bool) (stops : List Token)
    (tokens : List Token) : Option (Node × List Token) :=
  match fuel with
  | 0 => none
  | fuel + 1 =>
    if nextIs stops tokens then some (.absent, tokens)
    else readNode fuel handles block unindented tokens

/-- Reads the entries of a block sequence and its end. -/
def readBlockSequence (fuel : Nat) (handles : Handles) (tokens : List Token) :
    Option (List Node × List Token) :=
  match fuel with
  | 0 => none
  | fuel + 1 =>
    match tokens with
    | .blockEnd :: rest => some ([], rest)
    | .blockEntry :: rest =>
      match readNodeOr fuel handles true false [.blockEntry, .blockEnd] rest with
      | none => none
      | some (node, rest) =>
        (readBlockSequence fuel handles rest).map fun (nodes, rest) => (node :: nodes, rest)
    | _ => none

/-- Reads the entries of a sequence without indentation, which ends at any other token. -/
def readUnindented (fuel : Nat) (handles : Handles) (tokens : List Token) :
    Option (List Node × List Token) :=
  match fuel with
  | 0 => none
  | fuel + 1 =>
    match tokens with
    | .blockEntry :: rest =>
      match readNodeOr fuel handles true false [.blockEntry, .key, .value, .blockEnd] rest with
      | none => none
      | some (node, rest) =>
        (readUnindented fuel handles rest).map fun (nodes, rest) => (node :: nodes, rest)
    | [] => none
    | tokens => some ([], tokens)

/-- Reads the entries of a block mapping and its end. -/
def readBlockMapping (fuel : Nat) (handles : Handles) (tokens : List Token) :
    Option (List (Node × Node) × List Token) :=
  match fuel with
  | 0 => none
  | fuel + 1 =>
    match tokens with
    | .blockEnd :: rest => some ([], rest)
    | .key :: rest =>
      match readNodeOr fuel handles true true [.key, .value, .blockEnd] rest with
      | none => none
      | some (key, rest) =>
        match readBlockValue fuel handles rest with
        | none => none
        | some (value, rest) =>
          (readBlockMapping fuel handles rest).map fun (entries, rest) =>
            ((key, value) :: entries, rest)
    | _ => none

/-- Reads the value of an entry of a block mapping, which may be left out. -/
def readBlockValue (fuel : Nat) (handles : Handles) (tokens : List Token) :
    Option (Node × List Token) :=
  match fuel with
  | 0 => none
  | fuel + 1 =>
    match tokens with
    | .value :: rest => readNodeOr fuel handles true true [.key, .value, .blockEnd] rest
    | [] => none
    | tokens => some (.absent, tokens)

/-- Reads the entries of a flow sequence and its end. -/
def readFlowSequence (fuel : Nat) (handles : Handles) (first : Bool) (tokens : List Token) :
    Option (List Node × List Token) :=
  match fuel with
  | 0 => none
  | fuel + 1 =>
    match tokens with
    | .flowSequenceEnd :: rest => some ([], rest)
    | tokens =>
      match if first then some tokens else afterComma tokens with
      | none => none
      | some (.flowSequenceEnd :: rest) => some ([], rest)
      | some tokens =>
        match readFlowEntry fuel handles tokens with
        | none => none
        | some (node, rest) =>
          (readFlowSequence fuel handles false rest).map fun (nodes, rest) => (node :: nodes, rest)

/-- Reads an entry of a flow sequence: a node, or a key and perhaps its value. -/
def readFlowEntry (fuel : Nat) (handles : Handles) (tokens : List Token) :
    Option (Node × List Token) :=
  match fuel with
  | 0 => none
  | fuel + 1 =>
    match tokens with
    | .key :: rest =>
      let key? :=
        if nextIs [.value, .flowEntry, .flowSequenceEnd] rest then
          some (Node.absent, rest.drop 1)
        else readNode fuel handles false false rest
      match key? with
      | none => none
      | some (key, rest) =>
        (readFlowValue fuel handles .flowSequenceEnd rest).map fun (value, rest) =>
          (.mapping {} [(key, value)], rest)
    | tokens => readNode fuel handles false false tokens

/-- Reads the entries of a flow mapping and its end. -/
def readFlowMapping (fuel : Nat) (handles : Handles) (first : Bool) (tokens : List Token) :
    Option (List (Node × Node) × List Token) :=
  match fuel with
  | 0 => none
  | fuel + 1 =>
    match tokens with
    | .flowMappingEnd :: rest => some ([], rest)
    | tokens =>
      match if first then some tokens else afterComma tokens with
      | none => none
      | some (.flowMappingEnd :: rest) => some ([], rest)
      | some (.key :: rest) =>
        match readNodeOr fuel handles false false [.value, .flowEntry, .flowMappingEnd] rest with
        | none => none
        | some (key, rest) =>
          match readFlowValue fuel handles .flowMappingEnd rest with
          | none => none
          | some (value, rest) =>
            (readFlowMapping fuel handles false rest).map fun (entries, rest) =>
              ((key, value) :: entries, rest)
      | some tokens =>
        match readNode fuel handles false false tokens with
        | none => none
        | some (key, rest) =>
          (readFlowMapping fuel handles false rest).map fun (entries, rest) =>
            ((key, .absent) :: entries, rest)

/-- Reads the value of an entry of a flow collection with the given end, which may be left out. -/
def readFlowValue (fuel : Nat) (handles : Handles) (close : Token) (tokens : List Token) :
    Option (Node × List Token) :=
  match fuel with
  | 0 => none
  | fuel + 1 =>
    match tokens with
    | .value :: rest => readNodeOr fuel handles false false [.flowEntry, close] rest
    | [] => none
    | tokens => some (.absent, tokens)

/-- The tokens after a comma. -/
def afterComma (tokens : List Token) : Option (List Token) :=
  match tokens with
  | .flowEntry :: rest => some rest
  | _ => none

end

/-- Reads the directives before a document. There is at most one version, which must be 1.1 or 1.2, and
each handle is given once. -/
def readDirectives (versioned : Bool) (handles : Handles) :
    List Token → Option (Handles × List Token)
  | .version major minor :: rest =>
    if versioned || major != 1 || (minor != 1 && minor != 2) then none
    else readDirectives true handles rest
  | .tagHandle handle replacement :: rest =>
    if (handles.lookup handle).isSome then none
    else readDirectives versioned (handles ++ [(handle, replacement)]) rest
  | tokens => some (handles, tokens)

/-- What can come next in a stream. -/
inductive Step where
  | document (root : Node) (rest : List Token)
  | finished
  | error
deriving Repr

/-- Reads the node of a document and the mark that may end it. -/
def readContent (handles : Handles) (tokens : List Token) : Step :=
  let stops : List Token := [.documentStart, .documentEnd, .streamEnd]
  let absent := nextIs stops tokens || (tokens.head?.any fun
    | .version .. | .tagHandle .. => true
    | _ => false)
  let root? := if absent then some (Node.absent, tokens)
    else readNode (4 * tokens.length + 4) (handles ++ defaultHandles) true false tokens
  match root? with
  | none => .error
  | some (_, []) => .error
  | some (root, .documentEnd :: rest) => .document root rest
  | some (root, rest) => .document root rest

/-- Reads the next document. Only the first one may begin without a mark. -/
def readDocument (first : Bool) (tokens : List Token) : Step :=
  let tokens := if first then tokens else tokens.dropWhile (· == .documentEnd)
  let explicit (tokens : List Token) : Step :=
    match readDirectives false [] tokens with
    | some (handles, .documentStart :: rest) => readContent handles rest
    | _ => .error
  match tokens with
  | .streamEnd :: _ => .finished
  | .documentStart :: _ | .version .. :: _ | .tagHandle .. :: _ => explicit tokens
  | tokens => if first then
      match readNode (4 * tokens.length + 4) defaultHandles true false tokens with
      | none | some (_, []) => .error
      | some (root, .documentEnd :: rest) => .document root rest
      | some (root, rest) => .document root rest
    else .error

/-- The documents that can be read from the tokens, and whether the stream ends after them without an
error. A document takes at least one token. -/
def documentsFrom : (fuel : Nat) → (first : Bool) → List Token → List Node × Bool
  | 0, _, _ => ([], false)
  | fuel + 1, first, tokens =>
    match readDocument first tokens with
    | .finished => ([], true)
    | .error => ([], false)
    | .document root rest =>
      let (roots, sound) := documentsFrom fuel false rest
      (root :: roots, sound)

/-- The documents that can be read from the tokens, and whether the stream ends after them without an
error. -/
def documents (tokens : List Token) : List Node × Bool :=
  documentsFrom (tokens.length + 1) true tokens

end TraefikUpgrade.Yaml
