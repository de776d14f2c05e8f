import ModelSchemas.Document.Json.Writer
import ModelSchemas.Text.Blank
import ModelSchemas.Text.Quoted

/-!
# Pieces of generated code

The names of the generated constants, accesses to properties, deferred references and indentation.
-/

namespace ModelSchemas

namespace Schema

open Document

/-! ## Names -/

/-- The name of a schema constant. -/
def schemaName (entity suffix : String) : String := s!"{entity}{suffix}Schema"

/-- The constants that the block of an entity declares, in order. -/
inductive Part where
  | object
  | filter
  | filterBody
  | uniqueFilter
  | inclusion
  | createInput
  | updateInput
  | findManyArgs
  | findUniqueArgs
  | createArgs
  | updateArgs
  | deleteArgs
deriving DecidableEq, Repr

namespace Part

/-- What the name of a constant adds to the name of its entity. -/
def suffix : Part → String
  | object => ""
  | filter => "WhereInput"
  | filterBody => "WhereInputObject"
  | uniqueFilter => "WhereUniqueInput"
  | inclusion => "Include"
  | createInput => "CreateInput"
  | updateInput => "UpdateInput"
  | findManyArgs => "FindManyArgs"
  | findUniqueArgs => "FindUniqueArgs"
  | createArgs => "CreateArgs"
  | updateArgs => "UpdateArgs"
  | deleteArgs => "DeleteArgs"

/-- All constants of a block, in order. -/
def all : List Part :=
  [object, filter, filterBody, uniqueFilter, inclusion, createInput, updateInput, findManyArgs,
   findUniqueArgs, createArgs, updateArgs, deleteArgs]

/-- The name of the constant for an entity. -/
def constant (part : Part) (entity : String) : String := schemaName entity part.suffix

end Part

/-- The constant that holds the schema of an enumeration. -/
def enumSchemaName (enum : String) : String := s!"{enum}Schema"

/-! ## Expressions -/

/-- A text as a literal in single quotes. -/
def quoteSingle (s : String) : String := String.ofList (Text.quoteLiteral s.toList)

/-- The access to a property by its name in brackets. -/
def keyAccess (name : String) : String :=
  let quoted := String.ofList (Json.quote .ascii name.toList)
  s!"[{quoted}]"

/-- A reference that is looked up when it is first used. -/
def lazyReference (name : String) : String := s!"z.lazy(() => {name})"

/-! ## Lines -/

/-- `count` spaces; a negative count gives none. -/
def spaces (count : Int) : String := String.ofList (List.replicate count.toNat ' ')

/-- The lines with `width` spaces in front of every line that is not blank. -/
def indentLines (width : Int) (lines : List String) : List String :=
  lines.map fun line => if Text.allBlank line.toList then line else spaces width ++ line

/-- The lines of a text with line feeds between them, a last one without a feed counted too. -/
def countLines (text : String) : Nat :=
  let chars := text.toList
  if chars.isEmpty then 0
  else chars.count '\n' + (if chars.getLast? = some '\n' then 0 else 1)

end Schema

end ModelSchemas
