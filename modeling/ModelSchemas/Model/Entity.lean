import ModelSchemas.Model.Field
import ModelSchemas.Model.Names

/-!
# Entities

An entity has fields in order of emission, and groups of fields that identify a row together. Fields
are looked up in an index by name, which is built when the names of the fields are found distinct.
An assignment that breaks this keeps the assigned value and the index of the last accepted state.
-/

namespace ModelSchemas

open Document

/-! ## Groups -/

/-- A group of field names, with the name of its constraint if it has one. -/
structure KeyGroup where
  name : Option String
  fields : List String
deriving DecidableEq, Repr

namespace KeyGroup

/-- Checks a group under the model name `model`. -/
def decode (model : String) : Decoder KeyGroup :=
  Record.ofMapping model fun entries =>
    KeyGroup.mk <$> Record.withDefault entries ["name"] none (Decoder.orNull Decoder.string)
      <*> Record.required entries ["fields"] (Decoder.nonEmptyList Decoder.string)

/-- Assigns one attribute of a group, checking the value for it. -/
def assign (g : KeyGroup) (name : String) (v : Value) : Checked KeyGroup :=
  match name with
  | "name" =>
    ((Decoder.orNull Decoder.string v).map fun x => { g with name := x }).under (.key name)
  | "fields" =>
    ((Decoder.nonEmptyList Decoder.string v).map fun x => { g with fields := x }).under (.key name)
  | _ => assignUnknown name

/-- Checks a primary key. -/
def decodePrimaryKey : Decoder KeyGroup := decode "PrimaryKeyInfo"

/-- Checks a unique group. -/
def decodeUniqueIndex : Decoder KeyGroup := decode "UniqueIndexInfo"

end KeyGroup

/-! ## Entities -/

/-- An entity. `indexed` holds the fields of the last accepted state; look-ups read it. -/
structure Entity where
  name : String
  fields : List Field
  primaryKey : Option KeyGroup
  uniqueIndexes : List KeyGroup
  documentation : Option String
  indexed : List Field
deriving DecidableEq, Repr

namespace Entity

/-- The field of that name in the index. -/
def getField (e : Entity) (name : String) : Option Field := e.indexed.find? fun f => f.name = name

/-- The scalar and enumeration fields, in order. -/
def scalarFields (e : Entity) : List Field := e.fields.filter fun f => !f.isRelation

/-- The relation fields, in order. -/
def relationFields (e : Entity) : List Field := e.fields.filter Field.isRelation

/-- The relation fields that hold lists, in order. -/
def listRelationFields (e : Entity) : List Field :=
  e.fields.filter fun f => f.isRelation && f.isList

/-- The fields that carry the key of some relation, in order of first mention. -/
def foreignKeyNames (e : Entity) : List String :=
  Names.distinct (e.relationFields.flatMap Field.relationFromFields)

/-- A short description of the entity. -/
def describe (e : Entity) : String :=
  s!"<Entity {e.name} ({e.fields.length} fields, {e.relationFields.length} relations)>"

/-! ## Checking -/

/-- Builds the index if the names of the fields are distinct. -/
def reindex (e : Entity) : Checked Entity :=
  match Names.repeated (e.fields.map Field.name) with
  | [] => .accepted { e with indexed := e.fields }
  | names => .reject (.broken (.duplicateFields e.name names))

/-- Turns the bare form of the unique groups, a list of lists of names, into the full form. A full
form that says something is kept. -/
def adoptUniqueFields (entries : Entries) : Checked Entries :=
  let given? (key : String) : Option Value := (entries.get? key).filter Value.isTruthy
  if (given? "uniqueIndexes").isSome || (given? "unique_indexes").isSome then .accepted entries
  else match (given? "uniqueFields").or (given? "unique_fields") with
    | none => .accepted entries
    | some (.list groups) =>
      .accepted (entries.set "uniqueIndexes"
        (.list (groups.map fun group => .mapping [("fields", group)])))
    | some given => .reject (.broken (.uniqueFieldsNotList given))

/-- Checks the properties of an entity, without an index. -/
def decodeProperties (entries : Entries) : Checked Entity :=
  (fun name fields primaryKey uniqueIndexes documentation =>
      ⟨name, fields, primaryKey, uniqueIndexes, documentation, []⟩) <$>
    Record.required entries ["name"] Decoder.nonEmptyString
      <*> Record.withDefault entries ["fields"] [] (Decoder.list Field.decode)
      <*> Record.withDefault entries ["primaryKey", "primary_key"] none
        (Decoder.orNull KeyGroup.decodePrimaryKey)
      <*> Record.withDefault entries ["uniqueIndexes", "unique_indexes"] []
        (Decoder.list KeyGroup.decodeUniqueIndex)
      <*> Record.withDefault entries ["documentation"] none (Decoder.orNull Decoder.string)

/-- Checks the description of an entity. -/
def decode : Decoder Entity :=
  Record.ofMapping "EntityInfo" fun entries =>
    ((adoptUniqueFields entries).andThen decodeProperties).andThen reindex

/-- Checks a value for one attribute and puts it in its place, without touching the index. -/
def setAttribute (e : Entity) (name : String) (v : Value) : Checked Entity :=
  let checked {α : Type} (decode : Decoder α) (set : α → Entity) : Checked Entity :=
    ((decode v).map set).under (.key name)
  match name with
  | "name" => checked Decoder.nonEmptyString fun x => { e with name := x }
  | "fields" => checked (Decoder.list Field.decode) fun x => { e with fields := x }
  | "primary_key" =>
    checked (Decoder.orNull KeyGroup.decodePrimaryKey) fun x => { e with primaryKey := x }
  | "unique_indexes" =>
    checked (Decoder.list KeyGroup.decodeUniqueIndex) fun x => { e with uniqueIndexes := x }
  | "documentation" =>
    checked (Decoder.orNull Decoder.string) fun x => { e with documentation := x }
  | _ => assignUnknown name

end Entity

end ModelSchemas
