import ModelSchemas.Expression.Parse

/-!
# Trailing modifiers

A list, a null and an absence are declared by `array`, `nullable` and `optional`. Each helper here
adds its modifier unless the expression declares it already. A chain is asked for its calls; raw
text is searched.
-/

namespace ModelSchemas

namespace Expression

/-- Whether the expression is a list. -/
def isArray (expression : Text) : Bool :=
  match parse expression with
  | .raw _ => Text.occurs ".array(" expression || ("z.array(" : Text).isPrefixOf expression
  | .chain leadingDot calls => hasCall ["array"] leadingDot calls

/-- Whether the expression admits null. -/
def isNullable (expression : Text) : Bool :=
  match parse expression with
  | .raw _ => Text.occurs ".nullable(" expression || Text.occurs ".nullish(" expression
  | .chain leadingDot calls => hasCall ["nullable", "nullish"] leadingDot calls

/-- Whether the expression ends by making itself optional. -/
def endsOptional (expression : Text) : Bool :=
  match parse expression with
  | .raw _ => (".optional()" : Text).isSuffixOf (Text.trimEnd expression)
  | .chain _ calls => endsWith "optional" calls

/-- The expression as a list. -/
def ensureArray (expression : Text) : Text :=
  if isArray expression then expression else "z.array(" ++ expression ++ ")"

/-- The expression with null admitted. -/
def ensureNullable (expression : Text) : Text :=
  if isNullable expression then expression else expression ++ ".nullable()"

/-- The expression with absence admitted. -/
def ensureOptional (expression : Text) : Text :=
  if endsOptional expression then expression else expression ++ ".optional()"

end Expression

end ModelSchemas
