import ModelSchemas.Expression.Split
import ModelSchemas.Expression.Tree
import ModelSchemas.Text.Blank

/-!
# Reading expressions

Reading goes one level at a time. `outline` takes a text apart into the calls of its chain and
leaves the text of every argument unread; `parse` reads the arguments in turn. What has no outline
stays as it is written, so every text is read.
-/

namespace ModelSchemas

namespace Expression

/-! ## One call -/

/-- A character that may start a name. -/
def startsName (c : Char) : Bool := c.isAlpha || c = '_' || c = '$'

/-- A character that may continue a name. -/
def continuesName (c : Char) : Bool := Text.isWordChar c || c = '$'

/-- A call whose argument list is still the text between its parentheses. -/
structure CallText where
  name : Text
  typeArgs : Option Text
  argText : Option Text
deriving DecidableEq, Repr

namespace CallText

/-- Reads what follows the generic arguments: nothing, or one parenthesised list up to the very
end. -/
def readArguments (name : Text) (typeArgs : Option Text) (rest : Text) : Option CallText :=
  match rest with
  | [] => some ⟨name, typeArgs, none⟩
  | '(' :: inner =>
    if matchingClose rest 0 = some inner.length then some ⟨name, typeArgs, some inner.dropLast⟩
    else none
  | _ => none

/-- Reads what follows the name: generic arguments, if an angle bracket opens them, then the
argument list. -/
def readAfterName (name : Text) (rest : Text) : Option CallText :=
  match rest with
  | '<' :: _ =>
    match matchingAngle rest with
    | none => none
    | some close =>
      readArguments name (some (Text.trim ((rest.take close).drop 1)))
        (Text.trim (rest.drop (close + 1)))
  | _ => readArguments name none rest

/-- Reads one call: a name, then optional generic arguments, then an optional argument list. -/
def read? : Text → Option CallText
  | [] => none
  | c :: rest =>
    if startsName c then
      readAfterName (c :: rest.takeWhile continuesName)
        (Text.trim (rest.dropWhile continuesName))
    else none

end CallText

/-! ## One level of a chain -/

/-- A call whose arguments are still texts. -/
structure CallOutline where
  name : Text
  typeArgs : Option Text
  args : Option (List Text)
deriving DecidableEq, Repr

/-- The texts of the arguments of a list; blank ones are dropped. -/
def argumentTexts (text : Text) : Option (List Text) :=
  (splitTopLevel ',' text).map (·.filter fun part => !Text.allBlank part)

/-- Reads one call down to the texts of its arguments. -/
def CallOutline.read? (segment : Text) : Option CallOutline :=
  match CallText.read? segment with
  | none => none
  | some ⟨name, typeArgs, none⟩ => some ⟨name, typeArgs, none⟩
  | some ⟨name, typeArgs, some text⟩ =>
    (argumentTexts text).map fun args => ⟨name, typeArgs, some args⟩

/-- The calls of a chain, and whether a dot comes before the first. -/
structure Outline where
  leadingDot : Bool
  calls : List CallOutline
deriving DecidableEq, Repr

/-- Reads the calls of a chain from its segments; a blank first segment stands for a leading
dot. -/
def Outline.ofSegments : List Text → Option Outline
  | [] => none
  | first :: rest =>
    let leadingDot := Text.allBlank first
    let segments := if leadingDot then rest else first :: rest
    if segments.isEmpty then none
    else (segments.mapM fun segment => CallOutline.read? (Text.trim segment)).map
      fun calls => ⟨leadingDot, calls⟩

/-- One level of reading: the calls of the chain that a text holds, if it holds one. -/
def outline (text : Text) : Option Outline :=
  match Text.trim text with
  | [] => none
  | trimmed => (splitTopLevel '.' trimmed).bind Outline.ofSegments

/-! ## All levels -/

/-- The call with its arguments read by `read`. -/
def CallOutline.toCall (read : Text → Node) (c : CallOutline) : Call :=
  match c.args with
  | none => .member c.name c.typeArgs
  | some args => .invoke c.name c.typeArgs (args.map read)

/-- The chain with all arguments read by `read`. -/
def Outline.toNode (read : Text → Node) (o : Outline) : Node :=
  .chain o.leadingDot (o.calls.map (CallOutline.toCall read))

/-- Reads `depth` levels of a text and keeps what is nested deeper as written. -/
def parseLevels : Nat → Text → Node
  | 0, text => .raw (Text.trim text)
  | depth + 1, text =>
    match outline text with
    | none => .raw (Text.trim text)
    | some o => o.toNode (parseLevels depth)

/-- The expression that a text holds. Arguments are shorter than the text they stand in, so its
length bounds the levels. -/
def parse (text : Text) : Node := parseLevels text.length text

/-- Reads one call on its own, with its arguments. -/
def parseCall (segment : Text) : Option Call :=
  (CallOutline.read? segment).map (CallOutline.toCall parse)

end Expression

end ModelSchemas
