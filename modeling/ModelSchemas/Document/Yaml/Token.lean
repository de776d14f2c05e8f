import ModelSchemas.Document.Yaml.Scalar

/-!
# Tokens of YAML

The tokens of a text make its structure explicit: where block collections begin and end, which is
said by indentation, and what is the key of a mapping, which is said only by the colon after it.
Whatever may turn out to be a key is therefore remembered with its place among the tokens, and the
token that announces it is put in front of it when the colon comes.
-/

namespace ModelSchemas

namespace Document

namespace Yaml

/-- The tokens. A scalar says whether it was written plain. -/
inductive Token where
  | documentStart
  | documentEnd
  | sequenceStart
  | mappingStart
  | blockEnd
  | flowSequenceStart
  | flowSequenceEnd
  | flowMappingStart
  | flowMappingEnd
  | blockEntry
  | flowEntry
  | key
  | value
  | scalar (text : Text) (plain : Bool)
deriving DecidableEq, Repr

/-! ## The state between two tokens -/

/-- Where a key may have begun. It has to be one if it stands where only a key can. -/
structure PossibleKey where
  tokenNumber : Nat
  required : Bool
  index : Nat
  line : Nat
  column : Nat

/-- The longest distance from the start of a key to its colon. -/
def longestKey : Nat := 1024

/-- Whether the cursor is too far on for the colon of a key. -/
def PossibleKey.isStale (k : PossibleKey) (c : Cursor) : Bool :=
  k.line ≠ c.line || longestKey < c.index - k.index

/-- What has been read: the tokens so far, the columns of the open blocks from the innermost out,
the possible key of the innermost flow collection and those of the collections around it, and
whether a key may begin here. -/
structure Scan where
  cursor : Cursor
  tokens : Array Token
  blocks : List Nat
  innerKey : Option PossibleKey
  outerKeys : List (Option PossibleKey)
  keyAllowed : Bool

namespace Scan

/-- Before the first token. -/
def start (text : Text) : Scan := ⟨.start text, #[], [], none, [], true⟩

/-- Whether a flow collection is open. -/
def inFlow (s : Scan) : Bool := !s.outerKeys.isEmpty

/-- Appends a token. -/
def push (s : Scan) (t : Token) : Scan := { s with tokens := s.tokens.push t }

/-- Moves the cursor past some characters. -/
def skip (s : Scan) (n : Nat) : Scan := { s with cursor := s.cursor.advance n }

/-! ## Possible keys -/

/-- Gives up a possible key, which may not be a required one. -/
def giveUp : Option PossibleKey → Except Fault (Option PossibleKey)
  | none => .ok none
  | some k => if k.required then .error .malformed else .ok none

/-- Gives up the possible key of the innermost collection. -/
def dropKey (s : Scan) : Except Fault Scan := do
  let innerKey ← giveUp s.innerKey
  return { s with innerKey }

/-- Gives up all keys whose colon can no longer come. -/
def dropStaleKeys (s : Scan) : Except Fault Scan := do
  let check (k? : Option PossibleKey) : Except Fault (Option PossibleKey) :=
    if k?.any (·.isStale s.cursor) then giveUp k? else .ok k?
  let inner ← check s.innerKey
  let outer ← s.outerKeys.mapM check
  return { s with innerKey := inner, outerKeys := outer }

/-- Remembers that a key may begin at the next token. It is required where a block mapping stands
open at this column. -/
def noteKey (s : Scan) : Except Fault Scan :=
  if !s.keyAllowed then .ok s
  else do
    let s ← s.dropKey
    let c := s.cursor
    let required := !s.inFlow && s.blocks.head? = some c.column
    return { s with innerKey := some ⟨s.tokens.size, required, c.index, c.line, c.column⟩ }

/-! ## Blocks -/

/-- Closes the blocks whose column satisfies a test, from the innermost out. -/
def closeBlocksWhile (p : Nat → Bool) : List Nat → Scan → Scan
  | [], s => { s with blocks := [] }
  | column :: outer, s =>
    if p column then closeBlocksWhile p outer (s.push .blockEnd)
    else { s with blocks := column :: outer }

/-- Closes the blocks that stand further in than the cursor. Inside flow collections indentation
says nothing. -/
def closeBlocks (s : Scan) : Scan :=
  if s.inFlow then s else closeBlocksWhile (fun column => s.cursor.column < column) s.blocks s

/-- Closes all blocks at the end of a document. -/
def closeAllBlocks (s : Scan) : Scan :=
  if s.inFlow then s else closeBlocksWhile (fun _ => true) s.blocks s

/-- Whether a block that stands at a column is a new one. -/
def opensBlock (s : Scan) (column : Nat) : Bool :=
  match s.blocks with
  | [] => true
  | innermost :: _ => innermost < column

/-- Opens a block at the cursor if its column is further in than that of the innermost one. -/
def openBlock (s : Scan) (t : Token) : Scan :=
  if s.opensBlock s.cursor.column then { s.push t with blocks := s.cursor.column :: s.blocks }
  else s

/-! ## Single tokens -/

/-- Reads a marker between documents. -/
def marker (t : Token) (s : Scan) : Except Fault Scan := do
  let s ← s.closeAllBlocks.dropKey
  return ({ s with keyAllowed := false }.push t).skip 3

/-- Reads the opening bracket of a flow collection, which may itself be a key. -/
def flowStart (t : Token) (s : Scan) : Except Fault Scan := do
  let s ← s.noteKey
  let inside :=
    { s with outerKeys := s.innerKey :: s.outerKeys, innerKey := none, keyAllowed := true }
  return (inside.push t).skip 1

/-- Reads the closing bracket of a flow collection. -/
def flowEnd (t : Token) (s : Scan) : Except Fault Scan := do
  let s ← s.dropKey
  match s.outerKeys with
  | [] => .error .malformed
  | inner :: outer =>
    let outside := { s with innerKey := inner, outerKeys := outer, keyAllowed := false }
    return (outside.push t).skip 1

/-- Reads a comma between the items of a flow collection. -/
def flowEntry (s : Scan) : Except Fault Scan := do
  let s ← s.dropKey
  return ({ s with keyAllowed := true }.push .flowEntry).skip 1

/-- Reads the dash of a sequence item. -/
def blockEntry (s : Scan) : Except Fault Scan := do
  if !s.inFlow && !s.keyAllowed then .error .malformed
  let s := if s.inFlow then s else s.openBlock .sequenceStart
  let s ← s.dropKey
  return ({ s with keyAllowed := true }.push .blockEntry).skip 1

/-- Reads the question mark of a key. -/
def explicitKey (s : Scan) : Except Fault Scan := do
  if !s.inFlow && !s.keyAllowed then .error .malformed
  let s := if s.inFlow then s else s.openBlock .mappingStart
  let s ← s.dropKey
  return ({ s with keyAllowed := !s.inFlow }.push .key).skip 1

/-- Puts the tokens that announce a key in front of it: the mapping that it opens, if it does, and
the key itself. -/
def announceKey (s : Scan) (k : PossibleKey) : Scan :=
  let opens := !s.inFlow && s.opensBlock k.column
  let tokens := s.tokens.insertIdxIfInBounds k.tokenNumber .key
  { s with
    tokens := if opens then tokens.insertIdxIfInBounds k.tokenNumber .mappingStart else tokens
    blocks := if opens then k.column :: s.blocks else s.blocks
    innerKey := none
    keyAllowed := false }

/-- Reads the colon of a value. -/
def mappingValue (s : Scan) : Except Fault Scan := do
  match s.innerKey with
  | some k => return ((s.announceKey k).push .value).skip 1
  | none =>
    if !s.inFlow && !s.keyAllowed then .error .malformed
    let s := if s.inFlow then s else s.openBlock .mappingStart
    return ({ s with keyAllowed := !s.inFlow }.push .value).skip 1

/-- Reads a block scalar. -/
def blockScalar (folded : Bool) (s : Scan) : Except Fault Scan := do
  let s ← s.dropKey
  let outer := (s.blocks.head?.map (· + 1)).getD 0
  let (text, rest) ← block folded outer s.cursor
  return { s.push (.scalar text false) with cursor := rest, keyAllowed := true }

/-- Reads a quoted scalar. -/
def quotedScalar (quote : Quote) (s : Scan) : Except Fault Scan := do
  let s ← s.noteKey
  let (text, rest) ← quoted quote s.cursor
  return { s.push (.scalar text false) with cursor := rest, keyAllowed := false }

/-- Reads a plain scalar. A key may begin after it only on a new line. -/
def plainScalar (s : Scan) : Except Fault Scan := do
  let s ← s.noteKey
  let indent := (s.blocks.head?.map (· + 1)).getD 0
  let (text, broken, rest) := plain s.inFlow indent s.cursor
  return { s.push (.scalar text true) with cursor := rest, keyAllowed := broken }

/-! ## Reading all tokens -/

/-- Moves over spaces, comments and line breaks. In a block, a key may begin on a new line. -/
def skipToToken : Nat → Scan → Scan
  | 0, s => s
  | fuel + 1, s =>
    let c := s.cursor.skipSpaces.skipComment
    match c.lineBreak? with
    | some (_, rest) =>
      skipToToken fuel { s with cursor := rest, keyAllowed := s.keyAllowed || !s.inFlow }
    | none => { s with cursor := c }

/-- The characters that have a meaning of their own at the start of a token, so that no plain scalar
begins with them. -/
def indicators : Text := "-?:,[]\x7b\x7d#&*!|>'\"%@`"

/-- Reads the token that starts with `first`, which `second` follows. -/
def token (first : Char) (second : Option Char) (s : Scan) : Except Fault Scan :=
  let block := !s.inFlow
  let spaced := isBoundary second
  if s.cursor.column = 0 && s.cursor.atMarker '-' then s.marker .documentStart
  else if s.cursor.column = 0 && s.cursor.atMarker '.' then s.marker .documentEnd
  else
    match first with
    | '%' | '*' | '&' | '!' => .error .unsupported
    | '[' => s.flowStart .flowSequenceStart
    | '\x7b' => s.flowStart .flowMappingStart
    | ']' => s.flowEnd .flowSequenceEnd
    | '\x7d' => s.flowEnd .flowMappingEnd
    | ',' => s.flowEntry
    | '-' => if spaced then s.blockEntry else s.plainScalar
    | '?' => if !block || spaced then s.explicitKey else s.plainScalar
    | ':' => if !block || spaced then s.mappingValue else s.plainScalar
    | '|' => if block then s.blockScalar false else .error .malformed
    | '>' => if block then s.blockScalar true else .error .malformed
    | '\'' => s.quotedScalar .single
    | '"' => s.quotedScalar .double
    | c =>
      if isSpace c || indicators.contains c then .error .malformed else s.plainScalar

/-- Reads all tokens up to the end of the text. Every token takes at least one character. -/
def run : Nat → Scan → Except Fault (List Token)
  | 0, _ => .error .malformed
  | fuel + 1, s => do
    let s ← (skipToToken (s.cursor.text.length + 1) s).dropStaleKeys
    let s := s.closeBlocks
    match s.cursor.text with
    | [] =>
      let s ← s.closeAllBlocks.dropKey
      return s.tokens.toList
    | first :: rest => run fuel (← s.token first rest.head?)

end Scan

/-- The tokens of a text. A byte order mark at its start is skipped. -/
def Token.ofText (text : Text) : Except Fault (List Token) :=
  let s := Scan.start text
  let s := if text.head? = some byteOrderMark then s.skip 1 else s
  if text.all isAllowed then s.run (text.length + 1) else .error .malformed

end Yaml

end Document

end ModelSchemas
