import ModelSchemas.Validation.Record

/-!
# Enumerations

An enumeration has a name and its literal values in the order of declaration. In a description a
value is a name, or an object that carries the name beside other things.
-/

namespace ModelSchemas

open Document

/-- A named list of literal values. -/
structure Enumeration where
  name : String
  values : List String
deriving DecidableEq, Repr

namespace Enumeration

/-- A short description of the enumeration. -/
def describe (e : Enumeration) : String :=
  s!"<Enum {e.name} {String.ofList (displayNames e.values)}>"

/-- A value with an object replaced by the name that it carries. -/
def valueName : Value → Checked Value
  | .mapping entries => match Entries.get? entries "name" with
    | some name => .accepted name
    | none => .reject (.broken (.unnamedEnumValue entries))
  | v => .accepted v

/-- The first object without a name rejects the whole list of values. -/
def valueNames : List Value → Checked (List Value)
  | [] => .accepted []
  | item :: items =>
    (valueName item).andThen fun name => (valueNames items).map (name :: ·)

/-- Checks the values of an enumeration. -/
def decodeValues : Decoder (List String)
  | .list items => (valueNames items).andThen fun names => Decoder.list Decoder.string (.list names)
  | _ => .reject .notList

/-- Checks the description of an enumeration. -/
def decode : Decoder Enumeration :=
  Record.ofMapping "EnumDefinition" fun entries =>
    Enumeration.mk <$> Record.required entries ["name"] Decoder.nonEmptyString
      <*> Record.withDefault entries ["values"] [] decodeValues

/-- Assigns one attribute of an enumeration, checking the value for it. -/
def assign (e : Enumeration) (name : String) (v : Value) : Checked Enumeration :=
  match name with
  | "name" =>
    ((Decoder.nonEmptyString v).map fun x => { e with name := x }).under (.key name)
  | "values" => ((decodeValues v).map fun x => { e with values := x }).under (.key name)
  | _ => assignUnknown name

end Enumeration

end ModelSchemas
