import ModelSchemas.Document.Display

/-!
# Checked values

Raw input is checked against a description, and what is wrong with it is collected rather than
reported one at a time. An `Issue` is a problem at a place of the input; a `Checked` value is
accepted, or rejected with all its issues in order. Combining two checked values keeps the issues of
both.
-/

namespace ModelSchemas

open Document

/-! ## Issues -/

/-- One step on the way to a place in the input. -/
inductive Place where
  | key (name : String)
  | index (position : Nat)
deriving DecidableEq, Repr

/-- The rules on whole objects that well-typed input may still break. -/
inductive BrokenRule where
  | unnamedEnumValue (item : Entries)
  | uniqueFieldsNotList (given : Value)
  | duplicateFields (entity : String) (names : List String)
  | duplicateEntities (names : List String)
  | duplicateEnums (names : List String)
  | fileNameWithSeparator (name : String)

/-- The wording of a broken rule. -/
def BrokenRule.message : BrokenRule → String
  | unnamedEnumValue item =>
    s!"Enum value object {String.ofList (Value.mapping item).display} has no 'name'."
  | uniqueFieldsNotList given =>
    s!"uniqueFields must be a list of field-name lists, got {String.ofList given.display}."
  | duplicateFields entity names =>
    s!"Entity '{entity}' has duplicate fields: {String.ofList (displayNames names)}"
  | duplicateEntities names => s!"Duplicate entity names: {String.ofList (displayNames names)}"
  | duplicateEnums names => s!"Duplicate enum names: {String.ofList (displayNames names)}"
  | fileNameWithSeparator name =>
    "output_file_name must be a bare file name, got " ++
      s!"{String.ofList (Text.quoteShown name.toList)}."

/-- What can be wrong at one place of the input. -/
inductive Problem where
  | missing
  | extraForbidden
  | noSuchAttribute (name : String)
  | notModel (name : String)
  | notString
  | emptyString
  | notBool
  | unreadableBool
  | notInt
  | unreadableInt
  | overlongInt
  | fractionalInt
  | notFinite
  | belowBound (bound : Int)
  | aboveBound (bound : Int)
  | notList
  | emptyList
  | notKind
  | broken (rule : BrokenRule)

/-- The code of a problem. -/
def Problem.code : Problem → String
  | missing => "missing"
  | extraForbidden => "extra_forbidden"
  | noSuchAttribute _ => "no_such_attribute"
  | notModel _ => "model_type"
  | notString => "string_type"
  | emptyString => "string_too_short"
  | notBool => "bool_type"
  | unreadableBool => "bool_parsing"
  | notInt => "int_type"
  | unreadableInt => "int_parsing"
  | overlongInt => "int_parsing_size"
  | fractionalInt => "int_from_float"
  | notFinite => "finite_number"
  | belowBound _ => "greater_than_equal"
  | aboveBound _ => "less_than_equal"
  | notList => "list_type"
  | emptyList => "too_short"
  | notKind => "enum"
  | broken _ => "value_error"

/-- The wording of a problem. -/
def Problem.message : Problem → String
  | missing => "Field required"
  | extraForbidden => "Extra inputs are not permitted"
  | noSuchAttribute name => s!"Object has no attribute '{name}'"
  | notModel name => s!"Input should be a valid dictionary or instance of {name}"
  | notString => "Input should be a valid string"
  | emptyString => "String should have at least 1 character"
  | notBool => "Input should be a valid boolean"
  | unreadableBool => "Input should be a valid boolean, unable to interpret input"
  | notInt => "Input should be a valid integer"
  | unreadableInt => "Input should be a valid integer, unable to parse string as an integer"
  | overlongInt => "Unable to parse input string as an integer, exceeded maximum size"
  | fractionalInt => "Input should be a valid integer, got a number with a fractional part"
  | notFinite => "Input should be a finite number"
  | belowBound bound => s!"Input should be greater than or equal to {bound}"
  | aboveBound bound => s!"Input should be less than or equal to {bound}"
  | notList => "Input should be a valid list"
  | emptyList => "List should have at least 1 item after validation, not 0"
  | notKind => "Input should be 'scalar', 'enum' or 'relation'"
  | broken rule => s!"Value error, {rule.message}"

/-- A problem and the way to its place. -/
structure Issue where
  path : List Place
  problem : Problem

/-- The issue one step further out. -/
def Issue.under (place : Place) (issue : Issue) : Issue := ⟨place :: issue.path, issue.problem⟩

/-- The headline over the issues of an input that was read as the model `name`. -/
def headline (issues : List Issue) (name : String) : String :=
  let plural := if issues.length = 1 then "" else "s"
  s!"{issues.length} validation error{plural} for {name}"

/-! ## Checked values -/

/-- A value that passed its checks, or the issues that it has. -/
inductive Checked (α : Type) where
  | accepted (value : α)
  | rejected (issues : List Issue)

namespace Checked

variable {α β γ : Type}

/-- A single problem right here. -/
def reject (problem : Problem) : Checked α := rejected [⟨[], problem⟩]

/-- Applies a function to an accepted value. -/
def map (f : α → β) : Checked α → Checked β
  | accepted a => accepted (f a)
  | rejected issues => rejected issues

/-- Joins two checked values; the issues of the first come first. -/
def and (f : α → β → γ) : Checked α → Checked β → Checked γ
  | accepted a, accepted b => accepted (f a b)
  | accepted _, rejected issues => rejected issues
  | rejected issues, accepted _ => rejected issues
  | rejected issues, rejected more => rejected (issues ++ more)

instance : Applicative Checked where
  pure := accepted
  seq f a := and (fun f a => f a) f (a ())

/-- A further check that runs only on an accepted value. -/
def andThen (a : Checked α) (check : α → Checked β) : Checked β :=
  match a with
  | accepted a => check a
  | rejected issues => rejected issues

/-- The checked value as a part of a larger input. -/
def under (place : Place) : Checked α → Checked α
  | accepted a => accepted a
  | rejected issues => rejected (issues.map (Issue.under place))

/-- The accepted value. -/
def value? : Checked α → Option α
  | accepted a => some a
  | rejected _ => none

end Checked

end ModelSchemas
