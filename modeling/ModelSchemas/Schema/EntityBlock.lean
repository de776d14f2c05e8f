import ModelSchemas.Model.Settings
import ModelSchemas.Schema.FieldExpression
import ModelSchemas.Schema.Relation
import ModelSchemas.Schema.UniqueKeys

/-!
# The block of an entity

For each entity the document declares, in this order: the object schema, the filter under its public
name and its body, the unique filter, the include directive, the create and update inputs, and the
arguments of the five operations. Of the state of the pass only the set of emitted entities matters
to a block.
-/

namespace ModelSchemas

namespace Schema

/-! ## Parts of a block -/

/-- One indentation step. -/
def indentUnit (s : Settings) : String := spaces s.indentSize

/-- The schema of an object with the scalar and enumeration fields. -/
def objectSchema (enums : EnumLookup) (unit : String) (e : Entity) : List String :=
  [s!"export const {Part.object.constant e.name} = z.object(\x7b"] ++
    (e.scalarFields.map fun f =>
      s!"{unit}{f.name}: {String.ofList (fieldExpression enums f)},") ++
    ["\x7d).strip();", ""]

/-- The filter: its public name, and its body with fields, relations and connectives. -/
def filterSchema (p : Pass) (alwaysLazy : Bool) (unit : String) (e : Entity) : List String :=
  let filter := Part.filter.constant e.name
  let body := Part.filterBody.constant e.name
  let self := lazyReference filter
  [s!"export const {filter}: z.ZodType<Prisma.{e.name}WhereInput> = {lazyReference body};", "",
    s!"const {body} = z.object(\x7b"] ++
    (e.scalarFields.map fun f => s!"{unit}{f.name}: {scalarFilter e.name f},") ++
    (e.relationFields.map fun f => s!"{unit}{f.name}: {relationFilter p alwaysLazy e.name f},") ++
    [s!"{unit}AND: z.union([{self}, {self}.array()]),", s!"{unit}OR: {self}.array(),",
      s!"{unit}NOT: z.union([{self}, {self}.array()]),", "\x7d).partial().strip();", ""]

/-- The filter by one combination of unique fields. -/
def uniqueBranch (unit : String) (entity : String) (fields : List Field) : List String :=
  ["z.intersection(", s!"{unit}z.object(\x7b"] ++
    (fields.map fun f => s!"{unit}{unit}{f.name}: {scalarFilter entity f},") ++
    [s!"{unit}\x7d),", s!"{unit}{Part.filter.constant entity}", ")"]

/-- Appends a text to the last line. -/
def appendToLast (suffix : String) : List String → List String
  | [] => []
  | [line] => [line ++ suffix]
  | line :: rest => line :: appendToLast suffix rest

/-- Puts a text in front of the first line. -/
def prependToFirst (lead : String) : List String → List String
  | [] => []
  | line :: rest => (lead ++ line) :: rest

/-- The branches of a union, one below the other, with a comma after each but the last. -/
def unionBranches (width : Int) : List (List String) → List String
  | [] => []
  | [branch] => indentLines width branch
  | branch :: rest => appendToLast "," (indentLines width branch) ++ unionBranches width rest

/-- The unique filter: one branch for each combination, or the general filter if there is none. -/
def uniqueFilterSchema (width : Int) (unit : String) (e : Entity) : List String :=
  let filter := Part.filter.constant e.name
  let unique := Part.uniqueFilter.constant e.name
  let cast := s!"z.ZodType<Prisma.{e.name}WhereUniqueInput>"
  match (uniqueCombos e).map (uniqueBranch unit e.name) with
  | [] => [s!"export const {unique} = {filter} as {cast};", ""]
  | branches =>
    let body := match branches with
      | [branch] => branch
      | branches => ["z.union(["] ++ unionBranches width branches ++ ["])"]
    prependToFirst s!"export const {unique} = " (appendToLast s!" as {cast};" body) ++ [""]

/-- The include directive. -/
def includeSchema (unit : String) (e : Entity) : List String :=
  let directive := Part.inclusion.constant e.name
  match e.relationFields with
  | [] => [s!"export const {directive} = z.object(\x7b\x7d).strip();", ""]
  | relations =>
    [s!"export const {directive} = z.object(\x7b"] ++
      (relations.map fun f => s!"{unit}{f.name}: {includeDirective f},") ++
      countSelectLines e unit ++
      [s!"\x7d).partial().strip() satisfies z.ZodType<Prisma.{e.name}Include>;", ""]

/-- The create input: the object schema less ids and carriers, and the relation payloads. -/
def createInputSchema (m : DataModel) (unit : String) (e : Entity) : List String :=
  let base := Part.object.constant e.name
  let base := match createOmitted e with
    | [] => base
    | names => s!"{base}.omit(\x7b {trueFlags names} \x7d)"
  [s!"export const {Part.createInput.constant e.name} = {base}.extend(\x7b"] ++
    (e.relationFields.map fun f => s!"{unit}{f.name}: {relationCreate m e f unit},") ++
    ["\x7d);", ""]

/-- The update input: the create input with every property left open. -/
def updateInputSchema (e : Entity) : List String :=
  [s!"export const {Part.updateInput.constant e.name} = " ++
    s!"{Part.createInput.constant e.name}.partial();", ""]

/-- The arguments of the five operations, by the constant that holds their schema. -/
def argumentMembers (e : Entity) : List (Part × List String) :=
  let includes := Part.inclusion.constant e.name
  let filter := Part.filter.constant e.name
  let unique := Part.uniqueFilter.constant e.name
  [(.findManyArgs,
      [s!"include: {includes}.default(\x7b\x7d)", s!"where: {filter}.optional()",
        s!"cursor: {unique}.optional()", "take: z.number().optional()",
        "skip: z.number().optional()"]),
    (.findUniqueArgs, [s!"include: {includes}", s!"where: {unique}"]),
    (.createArgs, [s!"data: {Part.createInput.constant e.name}"]),
    (.updateArgs, [s!"data: {Part.updateInput.constant e.name}", s!"where: {unique}"]),
    (.deleteArgs, [s!"include: {includes}.optional()", s!"where: {unique}"])]

/-- The schemas of the arguments. -/
def argumentSchemas (unit : String) (e : Entity) : List String :=
  (argumentMembers e).flatMap fun (part, members) =>
    [s!"export const {part.constant e.name} = z.object(\x7b"] ++
      (members.map fun member => s!"{unit}{member},") ++
      [s!"\x7d).strip() satisfies z.ZodType<Prisma.{e.name}{part.suffix}>;", ""]

/-! ## The whole block -/

/-- The lines of the block of an entity. -/
def entityBlock (m : DataModel) (s : Settings) (p : Pass) (e : Entity) : List String :=
  let unit := indentUnit s
  [s!"// {e.name}"] ++ objectSchema m.enumValues unit e ++
    filterSchema p s.alwaysLazyReferences unit e ++ uniqueFilterSchema s.indentSize unit e ++
    includeSchema unit e ++ createInputSchema m unit e ++ updateInputSchema e ++
    argumentSchemas unit e

/-- The pass after the fields of an entity have been looked at. -/
def Pass.recordFields (enums : EnumLookup) (p : Pass) (fields : List Field) : Pass :=
  fields.foldl (Pass.recordField enums) p

/-- Emits an entity: its block is appended, the enumerations that its fields use are remembered, and
it counts as emitted from now on. -/
def Pass.emit (m : DataModel) (s : Settings) (p : Pass) (e : Entity) : Pass :=
  ((p.append (entityBlock m s p e)).recordFields m.enumValues e.scalarFields).markEmitted e.name

@[simp] theorem Pass.lines_recordFields (enums : EnumLookup) (p : Pass) (fields : List Field) :
    (p.recordFields enums fields).lines = p.lines := by
  induction fields generalizing p with
  | nil => rfl
  | cons f rest ih => exact (ih _).trans (Pass.lines_recordField enums p f)

@[simp] theorem Pass.isEmitted_recordFields (enums : EnumLookup) (p : Pass) (fields : List Field)
    (name : String) : (p.recordFields enums fields).isEmitted name = p.isEmitted name := by
  induction fields generalizing p with
  | nil => rfl
  | cons f rest ih => exact (ih _).trans (Pass.isEmitted_recordField enums p f name)

theorem Pass.append_recordFields (enums : EnumLookup) (p : Pass) (lines : List String)
    (fields : List Field) :
    (p.append lines).recordFields enums fields = (p.recordFields enums fields).append lines := by
  induction fields generalizing p with
  | nil => rfl
  | cons f rest ih =>
    show ((p.append lines).recordField enums f).recordFields enums rest = _
    rw [Pass.append_recordField, ih]
    rfl

/-- Emitting an entity appends its block. -/
theorem Pass.lines_emit (m : DataModel) (s : Settings) (p : Pass) (e : Entity) :
    (p.emit m s e).lines = p.lines ++ entityBlock m s p e := by
  simp [Pass.emit]

/-- Emitting an entity remembers the enumerations of its fields. -/
theorem Pass.enumUsage_emit (m : DataModel) (s : Settings) (p : Pass) (e : Entity) :
    (p.emit m s e).enumUsage = (p.recordFields m.enumValues e.scalarFields).enumUsage := by
  simp [Pass.emit, Pass.append_recordFields]

/-- Emitting an entity adds its name to the emitted ones. -/
theorem Pass.isEmitted_emit (m : DataModel) (s : Settings) (p : Pass) (e : Entity)
    (name : String) : (p.emit m s e).isEmitted name = (p.isEmitted name || name == e.name) := by
  simp [Pass.emit]

/-- What building the expressions of several fields has to say. -/
def fieldsLog (enums : EnumLookup) (p : Pass) : List Field → Log
  | [] => []
  | f :: rest => fieldLog enums p f ++ fieldsLog enums (p.recordField enums f) rest

/-- What emitting an entity has to say. -/
def emitLog (m : DataModel) (p : Pass) (e : Entity) : Log :=
  fieldsLog m.enumValues p e.scalarFields ++ uniqueCombosLog e ++
    [⟨.debug, "zodgen.templates", s!"Emitted entity '{e.name}'."⟩]

end Schema

end ModelSchemas
