import ModelSchemas.Validation.Record

/-!
# Settings

The settings of a generation run and of the placement of its output, and what the generator tells a
host about itself. Both are strict: a key that is no setting is an error.
-/

namespace ModelSchemas

open Document

/-! ## Settings -/

/-- The settings of one run. -/
structure Settings where
  schemaModule : String
  clientModule : String
  outputDir : String
  outputFileName : String
  headerComment : String
  indentSize : Int
  alwaysLazyReferences : Bool
  writeManifest : Bool
deriving DecidableEq, Repr

namespace Settings

/-- The settings of a run that sets none. -/
def default : Settings where
  schemaModule := "zod"
  clientModule := "@prisma/client"
  outputDir := "node_modules/@prisma/zod"
  outputFileName := "index.ts"
  headerComment := "Auto-generated by zodgen. Do not edit manually."
  indentSize := 2
  alwaysLazyReferences := false
  writeManifest := false

/-- A bare file name has no separator of either kind. -/
def isBareFileName (name : String) : Bool :=
  !name.toList.contains '/' && !name.toList.contains '\\'

/-- Checks the name of the output file. -/
def decodeFileName : Decoder String := fun v =>
  (Decoder.nonEmptyString v).andThen fun name =>
    if isBareFileName name then .accepted name
    else .reject (.broken (.fileNameWithSeparator name))

/-- Checks the width of one indentation step. -/
def decodeIndentSize : Decoder Int := Decoder.intBetween 1 8

/-- The spellings of the settings. -/
def properties : List (List String) :=
  [["schema_module"], ["client_module"], ["output_dir"], ["output_file_name"], ["header_comment"],
   ["indent_size"], ["always_lazy_references"], ["write_manifest"]]

/-- Checks a description of settings. -/
def decode : Decoder Settings :=
  Record.ofMapping "GenerationConfig" fun entries =>
    let settings := Settings.mk
      <$> Record.withDefault entries ["schema_module"] default.schemaModule Decoder.nonEmptyString
      <*> Record.withDefault entries ["client_module"] default.clientModule Decoder.nonEmptyString
      <*> Record.withDefault entries ["output_dir"] default.outputDir Decoder.nonEmptyString
      <*> Record.withDefault entries ["output_file_name"] default.outputFileName decodeFileName
      <*> Record.withDefault entries ["header_comment"] default.headerComment Decoder.string
      <*> Record.withDefault entries ["indent_size"] default.indentSize decodeIndentSize
      <*> Record.withDefault entries ["always_lazy_references"] default.alwaysLazyReferences
        Decoder.bool
      <*> Record.withDefault entries ["write_manifest"] default.writeManifest Decoder.bool
    .and (fun settings _ => settings) settings (Record.closed entries properties)

/-- Assigns one setting, checking the value for it. -/
def assign (s : Settings) (name : String) (v : Value) : Checked Settings :=
  let checked {α : Type} (decode : Decoder α) (set : α → Settings) : Checked Settings :=
    ((decode v).map set).under (.key name)
  match name with
  | "schema_module" => checked Decoder.nonEmptyString fun x => { s with schemaModule := x }
  | "client_module" => checked Decoder.nonEmptyString fun x => { s with clientModule := x }
  | "output_dir" => checked Decoder.nonEmptyString fun x => { s with outputDir := x }
  | "output_file_name" => checked decodeFileName fun x => { s with outputFileName := x }
  | "header_comment" => checked Decoder.string fun x => { s with headerComment := x }
  | "indent_size" => checked decodeIndentSize fun x => { s with indentSize := x }
  | "always_lazy_references" => checked Decoder.bool fun x => { s with alwaysLazyReferences := x }
  | "write_manifest" => checked Decoder.bool fun x => { s with writeManifest := x }
  | _ => assignUnknown name

end Settings

/-! ## The generator -/

/-- What the generator tells a host about itself. -/
structure GeneratorInfo where
  version : String
  prettyName : String
  defaultOutput : String
deriving DecidableEq, Repr

namespace GeneratorInfo

/-- The version of the generator. -/
def currentVersion : String := "1.0.0"

/-- The name of the generator for people. -/
def defaultPrettyName : String := "Zod Schema Generator"

/-- What the generator says about itself under some settings. -/
def ofSettings (s : Settings) : GeneratorInfo := ⟨currentVersion, defaultPrettyName, s.outputDir⟩

/-- The spellings of the properties. -/
def properties : List (List String) :=
  [["version"], ["prettyName", "pretty_name"], ["defaultOutput", "default_output"]]

/-- Checks a description of a generator. -/
def decode : Decoder GeneratorInfo :=
  Record.ofMapping "GeneratorManifest" fun entries =>
    let info := GeneratorInfo.mk
      <$> Record.required entries ["version"] Decoder.string
      <*> Record.withDefault entries ["prettyName", "pretty_name"] defaultPrettyName Decoder.string
      <*> Record.required entries ["defaultOutput", "default_output"] Decoder.string
    .and (fun info _ => info) info (Record.closed entries properties)

/-- Assigns one property, checking the value for it. -/
def assign (g : GeneratorInfo) (name : String) (v : Value) : Checked GeneratorInfo :=
  let checked (set : String → GeneratorInfo) : Checked GeneratorInfo :=
    ((Decoder.string v).map set).under (.key name)
  match name with
  | "version" => checked fun x => { g with version := x }
  | "pretty_name" => checked fun x => { g with prettyName := x }
  | "default_output" => checked fun x => { g with defaultOutput := x }
  | _ => assignUnknown name

/-- The description as a document under the spellings that hosts read. -/
def toValue (g : GeneratorInfo) : Value :=
  .mapping [("version", .str g.version), ("prettyName", .str g.prettyName),
    ("defaultOutput", .str g.defaultOutput)]

end GeneratorInfo

end ModelSchemas
