import ModelSchemas.Model.Entity
import ModelSchemas.Model.Enumeration

/-!
# Data models

A data model holds enumerations and entities in the order of declaration. Both are looked up by name
in indexes that are built when the names are found distinct; the enumerations are known in full
before any entity is looked at, since a field may refer to one declared anywhere.
-/

namespace ModelSchemas

open Document

/-- A data model. The two index fields hold what the last accepted state held; look-ups read
them. -/
structure DataModel where
  enums : List Enumeration
  entities : List Entity
  indexedEntities : List Entity
  indexedEnums : List Enumeration
deriving DecidableEq, Repr

namespace DataModel

/-- The entity of that name in the index. -/
def getEntity (m : DataModel) (name : String) : Option Entity :=
  m.indexedEntities.find? fun e => e.name = name

/-- The values of the enumeration of that name in the index. -/
def enumValues (m : DataModel) (name : String) : Option (List String) :=
  (m.indexedEnums.find? fun e => e.name = name).map Enumeration.values

/-- The names of the entities, in order. -/
def entityNames (m : DataModel) : List String := m.entities.map Entity.name

/-- A short description of the model. -/
def describe (m : DataModel) : String :=
  s!"<DataModel {m.entities.length} entities, {m.enums.length} enums>"

/-! ## Checking -/

/-- Builds the indexes if the names of the entities are distinct, and then those of the
enumerations. -/
def reindex (m : DataModel) : Checked DataModel :=
  match Names.repeated m.entityNames with
  | name :: names => .reject (.broken (.duplicateEntities (name :: names)))
  | [] =>
    match Names.repeated (m.enums.map Enumeration.name) with
    | name :: names => .reject (.broken (.duplicateEnums (name :: names)))
    | [] => .accepted { m with indexedEntities := m.entities, indexedEnums := m.enums }

/-- Checks the description of a data model. -/
def decode : Decoder DataModel :=
  Record.ofMapping "DataModel" fun entries =>
    (Checked.and (fun enums entities => DataModel.mk enums entities [] [])
      (Record.withDefault entries ["enums"] [] (Decoder.list Enumeration.decode))
      (Record.withDefault entries ["models", "entities"] [] (Decoder.list Entity.decode))).andThen
      reindex

/-- Checks a value for one attribute and puts it in its place, without touching the indexes. -/
def setAttribute (m : DataModel) (name : String) (v : Value) : Checked DataModel :=
  match name with
  | "enums" =>
    ((Decoder.list Enumeration.decode v).map fun x => { m with enums := x }).under (.key name)
  | "entities" =>
    ((Decoder.list Entity.decode v).map fun x => { m with entities := x }).under (.key name)
  | _ => assignUnknown name

end DataModel

end ModelSchemas
