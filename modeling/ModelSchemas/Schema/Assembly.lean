import ModelSchemas.Schema.EntityBlock

/-!
# The schema document

One pass over a data model emits every entity in the order of declaration. The document then holds
the imports, the schemas of the enumerations that were used in the order of first use, the helpers
shared by all blocks, the header comment, and the blocks. Every pass starts from an empty state, so
the same model and settings give the same text.
-/

namespace ModelSchemas

namespace Schema

/-! ## Sections -/

/-- The imports of the document. -/
def importLines (s : Settings) : List String :=
  [s!"import \x7b z \x7d from {quoteSingle s.schemaModule};",
    s!"import type \x7b Prisma \x7d from {quoteSingle s.clientModule};"]

/-- The literals of an enumeration, as the elements of an array literal. -/
def enumLiterals (values : List String) : String :=
  String.intercalate ", " (values.map quoteSingle)

/-- The schema of one enumeration. -/
def enumLine (name : String) (values : List String) : String :=
  s!"export const {enumSchemaName name} = z.enum([{enumLiterals values}] as const);"

/-- The schemas of the enumerations that were used. -/
def enumLines (p : Pass) : List String := p.enumUsage.map fun (name, values) => enumLine name values

/-- The helpers that all blocks share. -/
def helperLines (unit : String) : List String :=
  ["type WhereRelationFilter<T> = \x7b", s!"{unit}some?: T;", s!"{unit}none?: T;",
    s!"{unit}every?: T;", "\x7d;", "",
    "const whereRelationLazy = <T>(getSchema: () => z.ZodType<T>): " ++
      "z.ZodType<WhereRelationFilter<T>> =>",
    s!"{unit}z.object(\x7b", s!"{unit}{unit}some: z.lazy(getSchema),",
    s!"{unit}{unit}none: z.lazy(getSchema),", s!"{unit}{unit}every: z.lazy(getSchema),",
    s!"{unit}\x7d)", s!"{unit}{unit}.partial()", s!"{unit}{unit}.strip();", "",
    "const includeRelationLazy = <Schema extends z.ZodTypeAny>(",
    s!"{unit}getArgsSchema: () => Schema", "): z.ZodType<boolean | z.infer<Schema>> =>",
    s!"{unit}z.union([z.boolean(), z.lazy(getArgsSchema)]) as " ++
      "z.ZodType<boolean | z.infer<Schema>>;",
    ""]

/-- The header comment, one comment line for each of its lines. -/
def headerLines (s : Settings) : List String :=
  if s.headerComment = "" then []
  else
    (Text.lines s.headerComment.toList).map
      (fun line => String.ofList (Text.trimEnd ("// " ++ line))) ++ [""]

/-! ## The document -/

/-- One pass over the model. -/
def runPass (m : DataModel) (s : Settings) : Pass := m.entities.foldl (Pass.emit m s) .empty

/-- The lines of the document after a pass. -/
def documentLines (s : Settings) (p : Pass) : List String :=
  importLines s ++ [""] ++
    (if p.enumUsage.isEmpty then [] else enumLines p ++ [""]) ++
    helperLines (indentUnit s) ++ headerLines s ++ p.lines

/-- Lines as a text that ends with exactly one line feed. -/
def closeText (lines : List String) : String :=
  let text := (String.intercalate "\n" lines).toList
  String.ofList ((text.reverse.dropWhile (· = '\n')).reverse ++ ['\n'])

/-- The text of the document after a pass. -/
def documentText (s : Settings) (p : Pass) : String := closeText (documentLines s p)

/-- The schema document of a data model. -/
def render (m : DataModel) (s : Settings) : String := documentText s (runPass m s)

/-! ## Log -/

/-- What emitting several entities has to say. -/
def entitiesLog (m : DataModel) (s : Settings) (p : Pass) : List Entity → Log
  | [] => []
  | e :: rest => emitLog m p e ++ entitiesLog m s (p.emit m s e) rest

/-- What assembling the document has to say. -/
def assemblyLog (m : DataModel) (s : Settings) : Log :=
  let source := "zodgen.templates"
  let p := runPass m s
  let lineCount := (documentText s p).toList.count '\n'
  let lazyWord := if s.alwaysLazyReferences then "True" else "False"
  [⟨.debug, source,
      s!"SchemaAssembler initialised ({m.entities.length} entities, always_lazy={lazyWord})."⟩] ++
    entitiesLog m s .empty m.entities ++
    [⟨.info, source, s!"Assembled {p.emitted.length} entities and {p.enumUsage.length} enum " ++
      s!"schema(s) into {lineCount} lines."⟩]

end Schema

end ModelSchemas
