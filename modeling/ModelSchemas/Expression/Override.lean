import ModelSchemas.Expression.Normalisation

/-!
# Overrides in documentation

The first line of a field's documentation may replace the expression of the field. Such a line
starts with the marker `@zod` or `@z`, which no word character and no dollar sign may follow;
blanks and at most one dot come after it, and the rest is the expression. A rest that ends with
`use(X)` passes `X` through; any other is completed to an expression of the namespace.
-/

namespace ModelSchemas

namespace Expression

/-! ## The marker -/

/-- What follows `marker` in the line, if the line starts with it as a whole word. -/
def afterMarker? (marker line : Text) : Option Text :=
  if marker.isPrefixOf line then
    let rest := line.drop marker.length
    if rest.head?.any continuesName then none else some rest
  else none

/-- The text without the blanks at its start and one dot after them. -/
def dropLeadingDot (text : Text) : Text :=
  match Text.trimStart text with
  | '.' :: rest => rest
  | rest => rest

/-- The body of an override line: what is left after the marker, if that is not blank. -/
def overrideBody? (line : Text) : Option Text :=
  match (afterMarker? "@zod" line).or (afterMarker? "@z" line) with
  | none => none
  | some rest =>
    match Text.trim (dropLeadingDot rest) with
    | [] => none
    | body => some body

/-! ## Passing an expression through -/

/-- The name of the call that passes its argument through. -/
def passThroughName : Text := "use"

/-- The trimmed text from the first opening parenthesis of a call to its last character, both
left out. -/
def parenthesisedText (segment : Text) : Text :=
  Text.trim ((segment.dropWhile (· ≠ '(')).drop 1).dropLast

/-- The argument of a trailing `use(…)` call, as written, if there is one and it is not blank. -/
def useArgument (body : Text) : Option Text :=
  match (splitTopLevel '.' body).bind List.getLast? with
  | none => none
  | some segment =>
    let last := Text.trim segment
    match CallOutline.read? last with
    | some ⟨name, _, some _⟩ =>
      if name = passThroughName then
        match parenthesisedText last with
        | [] => none
        | argument => some argument
      else none
    | _ => none

/-! ## The override -/

/-- The body as an expression of the namespace. -/
def withNamespace (body : Text) : Text :=
  if ("z." : Text).isPrefixOf body then body
  else if body.head? = some '.' then "z" ++ body
  else "z." ++ body

/-- The expression that an override body stands for. -/
def overrideExpression (body : Text) : Text :=
  match useArgument body with
  | some argument => normaliseText argument
  | none => normaliseText (withNamespace body)

/-- The expression that a documentation text gives in its first line, if it gives one. -/
def extractOverride (documentation : Text) : Option Text :=
  (overrideBody? (Text.trim (Text.firstLine (Text.trim documentation)))).map overrideExpression

end Expression

end ModelSchemas
