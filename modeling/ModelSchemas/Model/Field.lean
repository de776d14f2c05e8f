import ModelSchemas.Validation.Record

/-!
# Fields

A field of an entity holds a scalar, a value of an enumeration, or a relation to another entity.
Being a list and being required are independent: a list field is never null on its own, since
absence is an empty list.
-/

namespace ModelSchemas

open Document

/-! ## Kinds -/

/-- What the declared type of a field refers to. -/
inductive FieldKind where
  | scalar
  | enumeration
  | relation
deriving DecidableEq, Repr

namespace FieldKind

/-- The word for a kind. -/
def word : FieldKind → String
  | scalar => "scalar"
  | enumeration => "enum"
  | relation => "relation"

/-- The kind that a word stands for. Relations may also be called objects, and columns that only
the database knows count as scalars. -/
def ofWord? : String → Option FieldKind
  | "scalar" => some scalar
  | "unsupported" => some scalar
  | "enum" => some enumeration
  | "relation" => some relation
  | "object" => some relation
  | _ => none

theorem ofWord?_word (kind : FieldKind) : ofWord? kind.word = some kind := by
  cases kind <;> rfl

/-- Checks a kind. -/
def decode : Decoder FieldKind
  | .str s => match ofWord? s with
    | some kind => .accepted kind
    | none => .reject .notKind
  | _ => .reject .notKind

end FieldKind

/-! ## Fields -/

/-- A field of an entity. `declaredKind` is empty when the description left the kind open. -/
structure Field where
  name : String
  declaredKind : Option FieldKind
  typeName : String
  isList : Bool
  isRequired : Bool
  hasDefaultValue : Bool
  isId : Bool
  isUnique : Bool
  relationName : Option String
  relationFromFields : List String
  relationToFields : List String
  documentation : Option String
deriving DecidableEq, Repr

namespace Field

/-- The kind of a field; a field without a declared kind is a scalar. -/
def kind (f : Field) : FieldKind := f.declaredKind.getD .scalar

/-- Whether the field relates its entity to another. -/
def isRelation (f : Field) : Bool := f.kind = .relation

/-- Whether the field holds a value of an enumeration. -/
def isEnum (f : Field) : Bool := f.kind = .enumeration

/-- Whether the field may be left out of a payload. -/
def isOptional (f : Field) : Bool := !f.isRequired || f.hasDefaultValue

/-- Whether the field alone identifies a row. -/
def isSingleKey (f : Field) : Bool := f.isId || f.isUnique

/-- How a description names the kind of a field. -/
def kindLabel (f : Field) : String :=
  match f.declaredKind with
  | some kind => kind.word
  | none => "FieldKind.SCALAR"

/-- A short description of the field. -/
def describe (f : Field) : String :=
  let flag := if f.isList then "[]" else if f.isRequired then "" else "?"
  s!"<Field {f.name}: {f.typeName}{flag} ({f.kindLabel})>"

/-! ## Checking -/

/-- A list of names, for which null stands when it is empty. -/
def decodeCarriers : Decoder (List String)
  | .null => .accepted []
  | v => Decoder.list Decoder.string v

/-- Checks the description of a field. -/
def decode : Decoder Field :=
  Record.ofMapping "FieldInfo" fun entries =>
    Field.mk <$> Record.required entries ["name"] Decoder.nonEmptyString
      <*> Record.withDefault entries ["kind"] none (fun v => (FieldKind.decode v).map some)
      <*> Record.required entries ["type", "type_name"] Decoder.nonEmptyString
      <*> Record.withDefault entries ["isList", "is_list"] false Decoder.bool
      <*> Record.withDefault entries ["isRequired", "is_required"] true Decoder.bool
      <*> Record.withDefault entries ["hasDefaultValue", "has_default_value"] false Decoder.bool
      <*> Record.withDefault entries ["isId", "is_id"] false Decoder.bool
      <*> Record.withDefault entries ["isUnique", "is_unique"] false Decoder.bool
      <*> Record.withDefault entries ["relationName", "relation_name"] none
        (Decoder.orNull Decoder.string)
      <*> Record.withDefault entries ["relationFromFields", "relation_from_fields"] []
        decodeCarriers
      <*> Record.withDefault entries ["relationToFields", "relation_to_fields"] [] decodeCarriers
      <*> Record.withDefault entries ["documentation"] none (Decoder.orNull Decoder.string)

/-- Assigns one attribute of a field, checking the value for it. -/
def assign (f : Field) (name : String) (v : Value) : Checked Field :=
  let checked {α : Type} (decode : Decoder α) (set : α → Field) : Checked Field :=
    ((decode v).map set).under (.key name)
  match name with
  | "name" => checked Decoder.nonEmptyString fun x => { f with name := x }
  | "kind" => checked FieldKind.decode fun x => { f with declaredKind := some x }
  | "type_name" => checked Decoder.nonEmptyString fun x => { f with typeName := x }
  | "is_list" => checked Decoder.bool fun x => { f with isList := x }
  | "is_required" => checked Decoder.bool fun x => { f with isRequired := x }
  | "has_default_value" => checked Decoder.bool fun x => { f with hasDefaultValue := x }
  | "is_id" => checked Decoder.bool fun x => { f with isId := x }
  | "is_unique" => checked Decoder.bool fun x => { f with isUnique := x }
  | "relation_name" => checked (Decoder.orNull Decoder.string) fun x => { f with relationName := x }
  | "relation_from_fields" => checked decodeCarriers fun x => { f with relationFromFields := x }
  | "relation_to_fields" => checked decodeCarriers fun x => { f with relationToFields := x }
  | "documentation" =>
    checked (Decoder.orNull Decoder.string) fun x => { f with documentation := x }
  | _ => assignUnknown name

end Field

end ModelSchemas
