import ModelSchemas.Document.Yaml.Token

/-!
# Nodes of YAML

The tree of a document before its plain scalars are given their types. `Node.ofTokens` reads the one
document of a text; a text without a document, or with an empty one, has the empty scalar for its
tree.
-/

namespace ModelSchemas

namespace Document

namespace Yaml

/-- A node: a scalar that was written plain or not, a sequence, or a mapping. -/
inductive Node where
  | scalar (text : Text) (plain : Bool)
  | sequence (items : List Node)
  | mapping (entries : List (Node × Node))

namespace Node

/-- The node where nothing is written. -/
def empty : Node := .scalar [] true

/-- Whether a list starts with one of some tokens. -/
def startsWith (ts : List Token) (tokens : List Token) : Bool := tokens.head?.any ts.contains

mutual

/-- Reads one node. Block collections are allowed only in a block, and a sequence that is not
indented only as the key or value of a block mapping. -/
def read (inBlock unindented : Bool) : Nat → List Token → Except Fault (Node × List Token)
  | 0, _ => .error .malformed
  | fuel + 1, tokens =>
    match tokens with
    | .scalar text plain :: rest => .ok (.scalar text plain, rest)
    | .flowSequenceStart :: .flowSequenceEnd :: rest => .ok (.sequence [], rest)
    | .flowSequenceStart :: rest => do
      let (items, rest) ← flowItems fuel rest
      return (.sequence items, rest)
    | .flowMappingStart :: .flowMappingEnd :: rest => .ok (.mapping [], rest)
    | .flowMappingStart :: rest => do
      let (entries, rest) ← flowEntries fuel rest
      return (.mapping entries, rest)
    | .sequenceStart :: rest =>
      if inBlock then do
        let (items, rest) ← blockItems fuel rest
        match rest with
        | .blockEnd :: rest => return (.sequence items, rest)
        | _ => .error .malformed
      else .error .malformed
    | .mappingStart :: rest =>
      if inBlock then do
        let (entries, rest) ← blockEntries fuel rest
        return (.mapping entries, rest)
      else .error .malformed
    | .blockEntry :: _ =>
      if unindented then do
        let (items, rest) ← blockItems fuel tokens
        return (.sequence items, rest)
      else .error .malformed
    | _ => .error .malformed

/-- Reads a node that is empty if one of the tokens in `ends` comes next. -/
def readOr (ends : List Token) (inBlock unindented : Bool) :
    Nat → List Token → Except Fault (Node × List Token)
  | 0, _ => .error .malformed
  | fuel + 1, tokens =>
    if startsWith ends tokens then .ok (empty, tokens) else read inBlock unindented fuel tokens

/-- Reads the items of a block sequence. -/
def blockItems : Nat → List Token → Except Fault (List Node × List Token)
  | 0, _ => .error .malformed
  | fuel + 1, tokens =>
    match tokens with
    | .blockEntry :: rest => do
      let (item, rest) ← readOr [.blockEntry, .key, .value, .blockEnd] true false fuel rest
      let (items, rest) ← blockItems fuel rest
      return (item :: items, rest)
    | rest => .ok ([], rest)

/-- Reads the value after a key, which is empty if there is no colon or if one of the tokens in
`ends` follows it. -/
def valueOr (ends : List Token) (inBlock unindented : Bool) :
    Nat → List Token → Except Fault (Node × List Token)
  | 0, _ => .error .malformed
  | fuel + 1, tokens =>
    match tokens with
    | .value :: rest => readOr ends inBlock unindented fuel rest
    | rest => .ok (empty, rest)

/-- Reads the entries of a block mapping and its end. -/
def blockEntries : Nat → List Token → Except Fault (List (Node × Node) × List Token)
  | 0, _ => .error .malformed
  | fuel + 1, tokens =>
    match tokens with
    | .key :: rest => do
      let (key, rest) ← readOr [.key, .value, .blockEnd] true true fuel rest
      let (value, rest) ← valueOr [.key, .value, .blockEnd] true true fuel rest
      let (entries, rest) ← blockEntries fuel rest
      return ((key, value) :: entries, rest)
    | .blockEnd :: rest => .ok ([], rest)
    | _ => .error .malformed

/-- Reads the items of a flow sequence and its end. An item may be a mapping of one entry without
brackets. -/
def flowItems : Nat → List Token → Except Fault (List Node × List Token)
  | 0, _ => .error .malformed
  | fuel + 1, tokens => do
    let (item, rest) ← match tokens with
      | .key :: rest => do
        let (key, rest) ← readOr [.value, .flowEntry, .flowSequenceEnd] false false fuel rest
        let (value, rest) ← valueOr [.flowEntry, .flowSequenceEnd] false false fuel rest
        pure (Node.mapping [(key, value)], rest)
      | tokens => read false false fuel tokens
    match rest with
    | .flowSequenceEnd :: rest | .flowEntry :: .flowSequenceEnd :: rest => return ([item], rest)
    | .flowEntry :: rest => do
      let (items, rest) ← flowItems fuel rest
      return (item :: items, rest)
    | _ => .error .malformed

/-- Reads the entries of a flow mapping and its end. A node without a colon is a key with an empty
value. -/
def flowEntries : Nat → List Token → Except Fault (List (Node × Node) × List Token)
  | 0, _ => .error .malformed
  | fuel + 1, tokens => do
    let (entry, rest) ← match tokens with
      | .key :: rest => do
        let (key, rest) ← readOr [.value, .flowEntry, .flowMappingEnd] false false fuel rest
        let (value, rest) ← valueOr [.flowEntry, .flowMappingEnd] false false fuel rest
        pure ((key, value), rest)
      | tokens => do
        let (key, rest) ← read false false fuel tokens
        pure ((key, empty), rest)
    match rest with
    | .flowMappingEnd :: rest | .flowEntry :: .flowMappingEnd :: rest => return ([entry], rest)
    | .flowEntry :: rest => do
      let (entries, rest) ← flowEntries fuel rest
      return (entry :: entries, rest)
    | _ => .error .malformed

end

/-- The tree of the only document among some tokens. -/
def ofTokens (tokens : List Token) : Except Fault Node := do
  let fuel := 4 * tokens.length + 4
  let (node, rest) ← match tokens with
    | [] => pure (empty, [])
    | [.documentStart] => pure (empty, [])
    | .documentStart :: rest => readOr [.documentStart, .documentEnd] true false fuel rest
    | tokens => read true false fuel tokens
  if rest.all (· = .documentEnd) then return node else .error .malformed

end Node

end Yaml

end Document

end ModelSchemas
