import ModelSchemas.Expression.Parse

/-!
# Normalising expressions

Two rules normalise an expression. `callBarePrimitives` invokes a primitive type that directly
follows the namespace, so that `z.string` reads `z.string()`. `hoistArrayModifier` moves a chain
wrapped by `array` in front of it, so that `X.array(.min(1))` reads `X.min(1).array()`. Each is one
rule on the calls of a chain, applied bottom-up through arguments and through the elements of the
array and object literals that raw text may hold.
-/

namespace ModelSchemas

namespace Expression

/-! ## Bottom-up transformation -/

/-- A rule on the calls of a chain, given whether the chain starts with a dot. -/
abbrev Rule := Bool → List Call → List Call

mutual

/-- Applies `rule` to every chain, innermost first, and `onRaw` to every raw text. -/
def Node.transform (onRaw : Text → Text) (rule : Rule) : Node → Node
  | .raw text => .raw (onRaw text)
  | .chain leadingDot calls => .chain leadingDot (rule leadingDot (transformCalls onRaw rule calls))

/-- Transforms the arguments of a call. -/
def Call.transform (onRaw : Text → Text) (rule : Rule) : Call → Call
  | .member name typeArgs => .member name typeArgs
  | .invoke name typeArgs args => .invoke name typeArgs (transformNodes onRaw rule args)

/-- Transforms the arguments of several calls. -/
def transformCalls (onRaw : Text → Text) (rule : Rule) : List Call → List Call
  | [] => []
  | call :: rest => call.transform onRaw rule :: transformCalls onRaw rule rest

/-- Transforms several expressions. -/
def transformNodes (onRaw : Text → Text) (rule : Rule) : List Node → List Node
  | [] => []
  | node :: rest => node.transform onRaw rule :: transformNodes onRaw rule rest

end

theorem transformCalls_eq_map (onRaw : Text → Text) (rule : Rule) (calls : List Call) :
    transformCalls onRaw rule calls = calls.map (Call.transform onRaw rule) := by
  induction calls with
  | nil => simp [transformCalls]
  | cons call rest ih => simp [transformCalls, ih]

theorem transformNodes_eq_map (onRaw : Text → Text) (rule : Rule) (nodes : List Node) :
    transformNodes onRaw rule nodes = nodes.map (Node.transform onRaw rule) := by
  induction nodes with
  | nil => simp [transformNodes]
  | cons node rest ih => simp [transformNodes, ih]

/-! ## Literals -/

/-- Applies `onValue` to a text and keeps the blanks around it. A blank text stays. -/
def withinBlanks (onValue : Text → Text) (value : Text) : Text :=
  if Text.allBlank value then value
  else Text.leadingBlanks value ++ onValue (Text.trim value) ++ Text.trailingBlanks value

/-- Transforms the value of one property of an object literal. A part without a colon stays. -/
def transformProperty (onValue : Text → Text) (part : Text) : Text :=
  match splitTopLevel ':' part with
  | some (key :: piece :: pieces) =>
    key ++ ':' :: withinBlanks onValue (List.intercalate [':'] (piece :: pieces))
  | _ => part

/-- What is between the brackets of a text that is one bracketed literal as a whole. -/
def literalBody? (text : Text) : Option Text :=
  match text with
  | '[' :: inner | '\x7b' :: inner =>
    if matchingClose text 0 = some inner.length then some inner.dropLast else none
  | _ => none

/-- Applies `onValue` to every element of an array literal or to every property value of an
object literal. Other text stays. -/
def transformLiteral (onValue : Text → Text) (text : Text) : Text :=
  match literalBody? text with
  | none => text
  | some body =>
    match splitTopLevel ',' body with
    | none => text
    | some parts =>
      let onPart :=
        if text.head? = some '\x7b' then transformProperty onValue else withinBlanks onValue
      text.take 1 ++ List.intercalate [','] (parts.map onPart) ++ text.drop (text.length - 1)

/-- Transforms `depth` levels of literals inside raw text. -/
def transformLiterals (rule : Rule) : Nat → Text → Text
  | 0, text => text
  | depth + 1, text =>
    transformLiteral
      (fun value => ((parse value).transform (transformLiterals rule depth) rule).render) text

/-- Applies a rule everywhere in an expression, its literals included. The elements of a literal
are shorter than it, so the length of a raw text bounds the levels in it. -/
def Node.apply (rule : Rule) (node : Node) : Node :=
  node.transform (fun text => transformLiterals rule text.length text) rule

/-! ## Calling bare primitives -/

/-- The types that are constructed by a call without arguments. -/
def primitiveTypes : List Text :=
  ["string", "number", "bigint", "boolean", "date", "symbol", "any", "unknown", "never", "void",
   "undefined", "null", "literal", "object", "map", "set", "record", "enum"]

/-- Invokes a bare primitive type. -/
def Call.invokePrimitive : Call → Call
  | .member name typeArgs =>
    if primitiveTypes.contains name then .invoke name typeArgs [] else .member name typeArgs
  | call => call

/-- Invokes a bare primitive that comes directly after the namespace head. -/
def bareRule : Rule := fun leadingDot calls =>
  match calls with
  | head :: second :: rest =>
    if !leadingDot && head.isNamespace then head :: second.invokePrimitive :: rest else calls
  | _ => calls

/-- Turns `z.string` into `z.string()`, everywhere. -/
def callBarePrimitives (node : Node) : Node := node.apply bareRule

/-! ## Hoisting the array modifier -/

/-- The name of the list wrapper. -/
def arrayName : Text := "array"

/-- Splices a chain wrapped by `array` in front of it. -/
def Call.unwrapArray : Call → List Call
  | .invoke name typeArgs [.chain true inner] =>
    if name = arrayName then inner ++ [.invoke name typeArgs []]
    else [.invoke name typeArgs [.chain true inner]]
  | call => [call]

/-- Splices every chain wrapped by `array`; the constructor directly after the namespace head is
no wrapper. -/
def hoistRule : Rule := fun leadingDot calls =>
  match calls with
  | head :: second :: rest =>
    if !leadingDot && head.isNamespace then
      head :: second :: rest.flatMap Call.unwrapArray
    else calls.flatMap Call.unwrapArray
  | _ => calls.flatMap Call.unwrapArray

/-- Turns `X.array(.chain)` into `X.chain.array()`, everywhere. -/
def hoistArrayModifier (node : Node) : Node := node.apply hoistRule

/-! ## Normal form -/

/-- Both rules, the primitives first. -/
def normalise (node : Node) : Node := hoistArrayModifier (callBarePrimitives node)

/-- Reads, normalises and writes a text. -/
def normaliseText (text : Text) : Text := (normalise (parse text)).render

end Expression

end ModelSchemas
