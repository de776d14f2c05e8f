import ModelSchemas.Document.Json.Writer
import ModelSchemas.Document.Yaml.Node
import ModelSchemas.Document.Yaml.Typed

/-!
# Reading YAML

The value of a YAML text with one document at most, in a subset of the language: directives, tags,
anchors and aliases are refused, and dates are strings. Of a key that occurs twice in a mapping the
last value counts, at the first place. The merge key puts the entries of other mappings in front;
entries of the mapping itself win over them.
-/

namespace ModelSchemas

namespace Document

namespace Yaml

/-- The wording of the faults that the grammar does not know of. -/
def Fault.message : Fault → String
  | malformed => "malformed text"
  | unsupported => "directives, tags, anchors and aliases are not supported"
  | misplaced => "value not allowed here"
  | noDigits base => s!"invalid literal for int() with base {base}: ''"
  | tooManyDigits count => Decimal.tooManyDigitsMessage count
  | noSuchCharacter => "chr() arg not in range(0x110000)"

/-- Whether a fault lies in the text as YAML, and not in the range of a number or a character. -/
def Fault.isSyntactic : Fault → Bool
  | malformed | unsupported | misplaced => true
  | _ => false

/-! ## Keys -/

/-- The plain scalar that merges mappings when it is a key. -/
def mergeKey : Text := "<<"

/-- The plain scalar that stands for itself when it is a key, and is no value. -/
def defaultKey : Text := "="

/-- Whether a key asks for a merge. -/
def isMergeKey : Node → Bool
  | .scalar text true => text = mergeKey
  | _ => false

/-- The text of a key. A key that is no string has the text that JSON gives it. -/
def keyText : Node → Except Fault String
  | .scalar text false => .ok (String.ofList text)
  | .scalar text true =>
    if text = defaultKey then .ok (String.ofList text)
    else do
      match ← typed text with
      | .str s => return s
      | value => return Json.render ⟨.ascii, none⟩ value
  | _ => .error .misplaced

/-- The entries of a mapping. -/
def entriesOf : Value → Except Fault Entries
  | .mapping entries => .ok entries
  | _ => .error .misplaced

/-- The entries that a merged value brings: those of a mapping, or those of several mappings from
the last to the first. -/
def mergedEntries : Value → Except Fault Entries
  | .list items => do return (← items.reverse.mapM entriesOf).flatten
  | value => entriesOf value

/-! ## Values -/

mutual

/-- The value of a node. -/
def Node.toValue : Node → Except Fault Value
  | .scalar text false => .ok (.str (String.ofList text))
  | .scalar text true =>
    if text = mergeKey || text = defaultKey then .error .misplaced else typed text
  | .sequence items => do return .list (← toValues items)
  | .mapping entries => do
    let (merged, own) ← toEntries entries
    return .mapping (Entries.update [] (merged ++ own))

/-- The values of the items of a sequence. -/
def toValues : List Node → Except Fault (List Value)
  | [] => .ok []
  | item :: items => do return (← item.toValue) :: (← toValues items)

/-- The entries of a mapping in order: those that it merges, and its own. -/
def toEntries : List (Node × Node) → Except Fault (Entries × Entries)
  | [] => .ok ([], [])
  | (key, item) :: entries => do
    let value ← item.toValue
    let (merged, own) ← toEntries entries
    if isMergeKey key then return ((← mergedEntries value) ++ merged, own)
    else return (merged, (← keyText key, value) :: own)

end

/-- Reads a whole text as one YAML value. -/
def read (text : Text) : Except Fault Value := do
  (← Node.ofTokens (← Token.ofText text)).toValue

end Yaml

end Document

end ModelSchemas
