import ModelSchemas.Expression.Modifier
import ModelSchemas.Expression.Override
import ModelSchemas.Model.DataModel
import ModelSchemas.Schema.Code
import ModelSchemas.Schema.Pass

/-!
# The expression of a field

A scalar or enumeration field is validated by one expression. It is the override that the
documentation of the field gives, or else the default for the declared type; then the field is made
a list or nullable, and optional. A field that falls back on the schema of its enumeration uses that
enumeration.
-/

namespace ModelSchemas

namespace Schema

open Expression

/-! ## Defaults -/

/-- The declared values of an enumeration, by name. -/
abbrev EnumLookup := String → Option (List String)

/-- The expressions of the scalar types. -/
def scalarExpressions : List (String × String) :=
  [("String", "z.string()"), ("Int", "z.number().int()"), ("BigInt", "z.bigint()"),
   ("Float", "z.number()"), ("Decimal", "z.number()"), ("Boolean", "z.boolean()"),
   ("DateTime", "z.date()"), ("Json", "z.any()"), ("Bytes", "z.instanceof(Buffer)")]

/-- The expression of a scalar type without one of its own. -/
def fallbackExpression : String := "z.any()"

/-- The expression of an enumeration that is not declared or has no values. -/
def enumFallbackExpression : String := "z.string()"

/-- The values of the enumeration that the field declares, if it declares one that has any. -/
def enumValuesOf (enums : EnumLookup) (f : Field) : Option (List String) :=
  if f.isEnum then (enums f.typeName).filter fun values => !values.isEmpty else none

/-- The expression for the declared type. -/
def defaultExpression (enums : EnumLookup) (f : Field) : String :=
  if f.isEnum then
    match enumValuesOf enums f with
    | some _ => enumSchemaName f.typeName
    | none => enumFallbackExpression
  else (scalarExpressions.lookup f.typeName).getD fallbackExpression

/-! ## The whole expression -/

/-- The override in the documentation of the field. -/
def overrideOf (f : Field) : Option Text := f.documentation.bind fun d => extractOverride d.toList

/-- The override if there is one, else the default. -/
def baseExpression (enums : EnumLookup) (f : Field) : Text :=
  (overrideOf f).getD (defaultExpression enums f).toList

/-- The expression as a list or nullable, as the field asks. -/
def withCardinality (f : Field) (expression : Text) : Text :=
  if f.isList then ensureArray expression
  else if f.isRequired then expression
  else ensureNullable expression

/-- The expression as optional, if the field asks for it. -/
def withOptionality (f : Field) (expression : Text) : Text :=
  if f.isOptional then ensureOptional expression else expression

/-- The expression that validates a field. -/
def fieldExpression (enums : EnumLookup) (f : Field) : Text :=
  withOptionality f (withCardinality f (baseExpression enums f))

/-! ## Use of enumerations -/

/-- The enumeration that the expression of the field refers to by default. -/
def usedEnum? (enums : EnumLookup) (f : Field) : Option (String × List String) :=
  match overrideOf f with
  | some _ => none
  | none => (enumValuesOf enums f).map fun values => (f.typeName, values)

/-- Remembers the enumeration that a field uses. -/
def Pass.recordField (enums : EnumLookup) (p : Pass) (f : Field) : Pass :=
  match usedEnum? enums f with
  | some (name, values) => p.recordEnum name values
  | none => p

@[simp] theorem Pass.lines_recordField (enums : EnumLookup) (p : Pass) (f : Field) :
    (p.recordField enums f).lines = p.lines := by
  unfold Pass.recordField
  split
  · exact Pass.lines_recordEnum ..
  · rfl

@[simp] theorem Pass.isEmitted_recordField (enums : EnumLookup) (p : Pass) (f : Field)
    (name : String) : (p.recordField enums f).isEmitted name = p.isEmitted name := by
  unfold Pass.recordField
  split
  · exact Pass.isEmitted_recordEnum ..
  · rfl

theorem Pass.append_recordField (enums : EnumLookup) (p : Pass) (lines : List String) (f : Field) :
    (p.append lines).recordField enums f = (p.recordField enums f).append lines := by
  unfold Pass.recordField
  split
  · exact Pass.append_recordEnum ..
  · rfl

/-- What building the default expression has to say. -/
def fieldLog (enums : EnumLookup) (p : Pass) (f : Field) : Log :=
  let source := "zodgen.expressions"
  match overrideOf f with
  | some _ => []
  | none =>
    if f.isEnum then
      match enumValuesOf enums f with
      | some _ => p.recordEnumLog f.typeName
      | none =>
        [⟨.warning, source, s!"Field '{f.name}' references unknown or empty enum " ++
          s!"'{f.typeName}'; using {enumFallbackExpression}."⟩]
    else if (scalarExpressions.lookup f.typeName).isSome then []
    else
      [⟨.debug, source, s!"No mapping for scalar type '{f.typeName}' (field '{f.name}'); using " ++
        s!"{fallbackExpression}."⟩]

end Schema

end ModelSchemas
