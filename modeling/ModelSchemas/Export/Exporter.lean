import ModelSchemas.Diagnostics.Log
import ModelSchemas.Export.Manifest
import ModelSchemas.Files.Save
import ModelSchemas.Hash.Sha256
import ModelSchemas.Model.Settings
import ModelSchemas.Schema.Code
import ModelSchemas.Text.Utf8

/-!
# Placing the output

An export writes a document to its place in the output directory, and a manifest beside it if one is
wanted. What goes wrong is recorded: a fault on the way to the document makes the export fail, while
a fault of the manifest is only a warning. Several exports may share one ledger, in which records
and errors add up.
-/

namespace ModelSchemas

open Files

/-! ## Plans and ledgers -/

/-- Where and how a document is placed. The directory has no two dots. -/
structure ExportPlan where
  settings : Settings
  directory : Path
  atomic : Bool
  withManifest : Bool
  timestamp : String

/-- What exports have recorded so far. -/
structure ExportLedger where
  records : List FileRecord
  errors : List String
  warnings : List String

/-- A ledger in which nothing is recorded. -/
def ExportLedger.empty : ExportLedger := ⟨[], [], []⟩

/-- What an export has to show: the path of the document if nothing has gone wrong, the manifest of
all records, and what went wrong. -/
structure ExportResult where
  success : Bool
  outputPath : Option Path
  manifest : ExportManifest
  errors : List String
  warnings : List String

namespace ExportPlan

/-- The name of the manifest in the output directory. -/
def manifestName : String := "manifest.json"

/-- Where the document is written. -/
def target (plan : ExportPlan) : Path := plan.directory.follow plan.settings.outputFileName

/-- Where the manifest is written. -/
def manifestPath (plan : ExportPlan) : Path := plan.directory.child manifestName

/-- The record of a text written to a place. -/
def record (name : String) (p : Path) (text : String) : FileRecord :=
  let bytes := Utf8.encode text
  ⟨name, p.render, bytes.length, Schema.countLines text, Sha256.hexDigest bytes⟩

/-- The manifest of some records. -/
def manifest (plan : ExportPlan) (records : List FileRecord) : ExportManifest where
  generatorVersion := GeneratorInfo.currentVersion
  exportTimestamp := plan.timestamp
  outputDirectory := plan.directory.render
  schemaModule := plan.settings.schemaModule
  clientModule := plan.settings.clientModule
  totalFiles := records.length
  totalBytes := FileRecord.total FileRecord.sizeBytes records
  totalLines := FileRecord.total FileRecord.lineCount records
  files := records

/-- The result that a ledger shows after an export. -/
def result (plan : ExportPlan) (written : Bool) (ledger : ExportLedger) : ExportResult where
  success := ledger.errors.isEmpty
  outputPath := if ledger.errors.isEmpty && written then some plan.target else none
  manifest := plan.manifest ledger.records
  errors := ledger.errors
  warnings := ledger.warnings

/-! ## Log -/

/-- Who speaks of exports. -/
def source : String := "zodgen.exporters"

/-- Who speaks of single files. -/
def fileSource : String := "zodgen.utils"

/-- What is said when an exporter is set up. -/
def setupLog (plan : ExportPlan) : Log :=
  let word (b : Bool) : String := if b then "True" else "False"
  let atomic := word plan.atomic
  let withManifest := word plan.withManifest
  [⟨.debug, source, s!"OutputExporter initialised: output_dir={plan.directory.render}, " ++
    s!"atomic={atomic}, manifest={withManifest}."⟩]

/-- What is said of a directory that is there. -/
def directoryLog (p : Path) : Log :=
  [⟨.debug, fileSource, s!"Ensured directory exists: {p.render}"⟩]

/-- What is said of a file that was written. -/
def fileLog (p : Path) (r : FileRecord) : Log :=
  [⟨.debug, fileSource, s!"Wrote {r.sizeBytes} bytes to {p.render}"⟩,
    ⟨.debug, source, s!"Wrote file: {r.relativePath} ({r.sizeBytes} bytes, {r.lineCount} lines)."⟩]

/-- What is said at the end of an export. Durations are not measured and count as zero. -/
def closingLog (r : ExportResult) : Log :=
  let timer : LogEntry := ⟨.info, fileSource, "Timer [write_output]: 0.0000 seconds"⟩
  let last : LogEntry :=
    if r.success then
      ⟨.info, source, s!"Export completed: {r.manifest.totalFiles} file(s), " ++
        s!"{r.manifest.totalBytes} bytes, 0.000s."⟩
    else ⟨.error, source, s!"Export completed with {r.errors.length} error(s) in 0.000s."⟩
  [timer, last]

/-- The error of a fault on the way to the document. -/
def fatalMessage (fault : Fault) : String :=
  s!"Fatal export error: {fault.kind.className}: {fault.message}"

/-! ## Exporting -/

variable {m : Type → Type} [Monad m]

/-- Writes a text to a path under a name, after making the directory that holds it. -/
def writeText (fs : Calls m) (plan : ExportPlan) (name : String) (p : Path) (text : String) :
    m (Except Fault FileRecord × Log) := do
  match ← ensureDirectory fs p.parent with
  | .error fault => return (.error fault, [])
  | .ok () =>
    match ← saveFile fs plan.atomic p (Utf8.encode text) with
    | .error fault => return (.error fault, directoryLog p.parent)
    | .ok () =>
      let r := record name p text
      return (.ok r, directoryLog p.parent ++ fileLog p r)

/-- Writes the document, after making the output directory. -/
def writeDocument (fs : Calls m) (plan : ExportPlan) (text : String) :
    m (Except Fault FileRecord × Log) := do
  match ← ensureDirectory fs plan.directory with
  | .error fault => return (.error fault, [])
  | .ok () =>
    let (outcome, log) ← writeText fs plan plan.settings.outputFileName plan.target text
    return (outcome, directoryLog plan.directory ++ log)

/-- The ledger after the manifest was written or not, and what there is to say. A fault is a
warning. -/
def noteManifest (ledger : ExportLedger) : Except Fault FileRecord × Log → ExportLedger × Log
  | (.ok r, log) => ({ ledger with records := ledger.records ++ [r] }, log)
  | (.error fault, log) =>
    ({ ledger with
        warnings := ledger.warnings ++ [s!"Could not write manifest: {fault.message}"] },
      log ++ [⟨.warning, source, s!"Failed to write manifest: {fault.message}"⟩])

/-- The text of the manifest of some records. -/
def manifestText (plan : ExportPlan) (records : List FileRecord) : String :=
  (plan.manifest records).toJson 2

/-- Writes the manifest of what is recorded. -/
def writeManifest (fs : Calls m) (plan : ExportPlan) (ledger : ExportLedger) :
    m (ExportLedger × Log) := do
  let text := plan.manifestText ledger.records
  return noteManifest ledger (← writeText fs plan manifestName plan.manifestPath text)

/-- Exports a text: the result, the ledger for further exports, and what there is to say. -/
def run (fs : Calls m) (plan : ExportPlan) (ledger : ExportLedger) (text : String) :
    m (ExportResult × ExportLedger × Log) := do
  let (outcome, log) ← writeDocument fs plan text
  match outcome with
  | .error fault =>
    let ledger := { ledger with errors := ledger.errors ++ [fatalMessage fault] }
    let result := plan.result false ledger
    return (result, ledger, log ++ [⟨.error, source, fatalMessage fault⟩] ++ closingLog result)
  | .ok r =>
    let ledger := { ledger with records := ledger.records ++ [r] }
    let (ledger, manifestLog) ←
      if plan.withManifest then writeManifest fs plan ledger else pure (ledger, [])
    let result := plan.result true ledger
    return (result, ledger, log ++ manifestLog ++ closingLog result)

end ExportPlan

end ModelSchemas
