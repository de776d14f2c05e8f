import ModelSchemas.Model.DataModel
import ModelSchemas.Schema.Code
import ModelSchemas.Schema.Pass

/-!
# Relations

The pieces of the filter, include and create schemas that refer to other entities. Entities refer to
each other, often in cycles. A filter refers to the filter schema of another entity directly only
when that entity has been emitted before; a reference to the entity itself or to one that is still
to come is deferred. A nested create is written as a comment only, since its schema would lead back
into itself; connecting by a unique key is supported.
-/

namespace ModelSchemas

namespace Schema

/-! ## Filters -/

/-- Whether a reference from `current` to `target` has to wait until it is used. -/
def needsLazy (p : Pass) (alwaysLazy : Bool) (current target : String) : Bool :=
  alwaysLazy || target = current || !p.isEmitted target

/-- How the filter of an entity refers to the filter schema of a related one. -/
inductive FilterReference where
  /-- Some, none or every one of the related rows. -/
  | many
  /-- One row, the schema being bound already. -/
  | bound
  /-- One row, the schema being looked up on use. -/
  | deferred
deriving DecidableEq, Repr

/-- The client type of one key of a filter. -/
def clientFilterType (entity field : String) : String :=
  s!"Prisma.{entity}WhereInput{keyAccess field}"

/-- How the filter of an entity refers to the target of one of its relations. -/
def filterReference (p : Pass) (alwaysLazy : Bool) (entity : String) (f : Field) :
    FilterReference :=
  if f.isList then .many
  else if needsLazy p alwaysLazy entity f.typeName then .deferred
  else .bound

/-- A single reference from an entity to itself carries its type, which cannot be inferred. -/
def selfTyped (entity : String) (f : Field) (expression : String) : String :=
  if f.typeName = entity then
    s!"{expression} as z.ZodType<{clientFilterType entity f.name}>"
  else expression

/-- The text of a filter reference. -/
def FilterReference.render (entity : String) (f : Field) : FilterReference → String
  | many => s!"whereRelationLazy(() => {Part.filter.constant f.typeName})"
  | bound => selfTyped entity f (Part.filter.constant f.typeName)
  | deferred => selfTyped entity f (lazyReference (Part.filter.constant f.typeName))

/-- The filter of a relation field. -/
def relationFilter (p : Pass) (alwaysLazy : Bool) (entity : String) (f : Field) : String :=
  (filterReference p alwaysLazy entity f).render entity f

/-- The filter of a scalar field: the property of the object schema, or for a list the client
type. -/
def scalarFilter (entity : String) (f : Field) : String :=
  if f.isList then s!"z.custom<{clientFilterType entity f.name}>()"
  else s!"{Part.object.constant entity}.shape{keyAccess f.name}"

/-! ## Includes -/

/-- The include flag of a relation; the choice of arguments stays reserved. -/
def includeDirective (f : Field) : String :=
  let arguments := (if f.isList then Part.findManyArgs else Part.findUniqueArgs).constant f.typeName
  s!"z.union([z.boolean()/*, {lazyReference arguments}*/])"

/-- The selector of counts over all list relations of an entity, if it has any. -/
def countSelectLines (e : Entity) (unit : String) : List String :=
  match e.listRelationFields with
  | [] => []
  | relations =>
    [s!"{unit}_count: z.union([z.boolean(), z.object(\x7b",
      s!"{unit}{unit}select: z.object(\x7b"] ++
    (relations.map fun f =>
      s!"{unit}{unit}{unit}{f.name}: z.union([z.boolean()/*, z.object(\x7b where: " ++
        s!"{Part.filter.constant f.typeName}.optional() \x7d).strip()*/]).optional(),") ++
    [s!"{unit}{unit}\x7d).partial().strip() satisfies " ++
        s!"z.ZodType<Prisma.{e.name}CountOutputTypeSelect>,",
      s!"{unit}\x7d).strip() satisfies z.ZodType<Prisma.{e.name}CountOutputTypeDefaultArgs>]),"]

/-! ## Creates -/

/-- The fields that a create payload leaves out: ids and the carriers of relations. -/
def createOmitted (e : Entity) : List String :=
  (e.scalarFields.filter fun f => f.isId || e.foreignKeyNames.contains f.name).map Field.name

/-- Whether the relation field `other` of the target points back through the same relation as `f`:
by the name of the relation if it has one, else by the entity that it refers to. -/
def pointsBack (owner : Entity) (f other : Field) : Bool :=
  match f.relationName with
  | some name => other.relationName = some name
  | none => other.typeName = owner.name

/-- The relation fields of the target that point back at the owner, without the field itself. -/
def backRelations (m : DataModel) (owner : Entity) (f : Field) : List String :=
  match m.getEntity f.typeName with
  | none => []
  | some target =>
    (target.relationFields.filter fun other =>
      !(target.name = owner.name && other.name = f.name) && pointsBack owner f other).map Field.name

/-- A deferred reference to one row, or to one or several. -/
def oneOrMany (reference : String) (isList : Bool) : String :=
  let single := lazyReference reference
  if isList then s!"z.union([{single}, {single}.array()])" else single

/-- An object literal of flags, without its braces. -/
def trueFlags (names : List String) : String :=
  String.intercalate ", " (names.map fun name => s!"{name}: true")

/-- The nested create, as a comment. -/
def nestedCreateComment (m : DataModel) (owner : Entity) (f : Field) : String :=
  let create := Part.createInput.constant f.typeName
  let create := match backRelations m owner f with
    | [] => create
    | names => s!"{create}.omit(\x7b {trueFlags names} \x7d)"
  s!"// create: {oneOrMany create f.isList}.optional(),"

/-- The payload of a relation in the create input of its owner. -/
def relationCreate (m : DataModel) (owner : Entity) (f : Field) (unit : String) : String :=
  let lines :=
    ["z.object(\x7b", s!"{unit}{unit}{nestedCreateComment m owner f}",
      s!"{unit}{unit}connect: {oneOrMany (Part.uniqueFilter.constant f.typeName) f.isList}" ++
        ".optional(),",
      s!"{unit}\x7d).strip()"]
  let expression := String.intercalate "\n" lines
  if f.isList || f.isOptional then s!"{expression}.optional()" else expression

end Schema

end ModelSchemas
