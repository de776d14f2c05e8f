import ModelSchemas.Export.Exporter
import ModelSchemas.Host.Ingestion
import ModelSchemas.Host.ModelFile
import ModelSchemas.Host.Report
import ModelSchemas.Schema.Assembly

/-!
# The pipeline

A run of the pipeline takes up to four steps: it loads a model file, reads the model and the
settings from it, assembles the document, and exports it. The first step that fails is the last one
taken. A dry run does not export. Only the export changes files; everything before it is a function
of what stands at the path of the model file, and of the limits of the machine, which may give up on
an assembly. That is recorded as a failure of the step; a breakdown, which only an export may come
to, is not caught, so that there is no report then.
-/

namespace ModelSchemas

open Document Files

/-! ## Requests -/

/-- What is asked of a run apart from its model: the directory that relative paths start at, where
to put the output if not where the settings say, settings that win over those of the document,
whether to leave out the export, and how to write files. -/
structure Request where
  base : Path
  output : Option Path
  overrides : Entries
  dryRun : Bool
  atomic : Bool
  timestamp : String

namespace Request

/-- Where the output goes, as the request or the settings say it. -/
def outputPath (q : Request) (s : Settings) : Path := q.output.getD (q.base.follow s.outputDir)

/-- The plan of an export to a directory under some settings. -/
def exportPlan (q : Request) (s : Settings) (directory : Path) : ExportPlan :=
  ⟨s, directory, q.atomic, s.writeManifest, q.timestamp⟩

end Request

/-! ## Overrides -/

namespace Ingestion

/-- The document with settings laid over its own. Settings that say nothing count as none; others
have to be a mapping. -/
def override (doc overrides : Entries) : Except IngestionFault Entries :=
  if overrides.isEmpty then .ok doc
  else
    let key := (settingsKey? doc).getD "config"
    let given := (doc.get? key).getD .null
    match given with
    | .mapping entries => .ok (doc.set key (.mapping (Entries.update entries overrides)))
    | given =>
      if given.isTruthy then .error (.notMapping key given)
      else .ok (doc.set key (.mapping (Entries.update [] overrides)))

/-- The checked model and settings of a document under overrides. -/
def runWith (doc overrides : Entries) : Except IngestionFault (DataModel × Settings) := do
  run (← override doc overrides)

/-- What reading a document under overrides has to say. -/
def logWith (doc overrides : Entries) : Log :=
  match override doc overrides with
  | .ok doc => log doc
  | .error _ => []

end Ingestion

namespace Pipeline

/-! ## Steps -/

/-- The steps of a run. -/
inductive Step where
  | loading
  | parsing
  | assembling
  | exporting
deriving DecidableEq, Repr

/-- The name of a step in reports. -/
def Step.name : Step → String
  | loading => "Load Model File"
  | parsing => "Parse Model"
  | assembling => "Assemble Schemas"
  | exporting => "Export to Filesystem"

/-- The record of a step. Durations are not measured and count as zero. -/
def Step.metric (step : Step) (success : Bool) (detail : String) : StepMetric :=
  ⟨step.name, success, 0.0, detail⟩

/-- A report with one more step. -/
def addStep (r : Report) (metric : StepMetric) : Report := { r with steps := r.steps ++ [metric] }

/-- A report at the end of its run: it is a success if nothing went wrong. -/
def finish (r : Report) : Report :=
  { r with
    success := r.ingestionErrors.isEmpty && r.generationErrors.isEmpty && r.exportErrors.isEmpty }

/-! ## Log -/

/-- Who speaks of the pipeline. -/
def source : String := "zodgen.generator"

/-- What is said when a pipeline is set up. -/
def setupLog (q : Request) : Log :=
  let atomic := if q.atomic then "True" else "False"
  [⟨.debug, source, s!"SchemaGenerator initialised: atomic_writes={atomic}."⟩]

/-- What is said when a step has been timed. -/
def timerLog (label : String) : Log :=
  [⟨.info, "zodgen.utils", s!"Timer [{label}]: 0.0000 seconds"⟩]

/-- What is said after an export. -/
def exportLog (r : ExportResult) : Log :=
  match r.outputPath with
  | some p => [⟨.info, source, s!"Export complete: {p.render} in 0.000s."⟩]
  | none => [⟨.error, source, s!"Export finished with {r.errors.length} error(s) in 0.000s."⟩]

/-! ## Limits -/

/-- Why the machine gave up on an assembly, and what had been said until then. -/
structure AssemblyFault where
  className : String
  message : String
  log : Log

/-- The error of an assembly that was given up. -/
def AssemblyFault.fatalMessage (fault : AssemblyFault) : String :=
  s!"Fatal generation error: {fault.className}: {fault.message}"

/-- The assemblies that the machine gives up. -/
abbrev Limits := DataModel → Settings → Option AssemblyFault

/-- A machine that gives up no assembly. -/
def Limits.none : Limits := fun _ _ => Option.none

/-! ## Assembling and exporting -/

/-- The detail of an assembly. -/
def assemblyDetail (r : Report) : String :=
  let lines := Report.grouped r.totalLines
  s!"{r.totalEntities} entities, ~{lines} lines"

/-- Assembles the document. -/
def assemble (m : DataModel) (s : Settings) (r : Report) : Report :=
  let p := Schema.runPass m s
  let text := Schema.documentText s p
  let r := { r with
    outputText := text
    totalEntities := p.emitted.length
    totalEnumsUsed := p.enumUsage.length
    totalLines := Schema.countLines text
    totalBytes := (Utf8.encode text).length }
  addStep r (Step.assembling.metric true (assemblyDetail r))

/-- What assembling the document has to say. -/
def assembleLog (m : DataModel) (s : Settings) (r : Report) : Log :=
  Schema.assemblyLog m s ++ timerLog "assemble" ++
    [⟨.info, source, s!"Schema assembly: {assemblyDetail r} in 0.000s."⟩]

/-- The report of a run whose assembly was given up. -/
def assemblyFailure (r : Report) (fault : AssemblyFault) : Report :=
  finish (addStep { r with generationErrors := r.generationErrors ++ [fault.fatalMessage] }
    (Step.assembling.metric false "assembly failed"))

/-- What an assembly that was given up has to say. -/
def assemblyFailureLog (fault : AssemblyFault) : Log :=
  fault.log ++ [⟨.error, source, fault.fatalMessage⟩] ++ timerLog "assemble" ++
    [⟨.info, source, "Schema assembly: assembly failed in 0.000s."⟩]

/-- The detail of an export. -/
def exportDetail (manifest : ExportManifest) : String :=
  let bytes := Report.grouped manifest.totalBytes
  s!"{manifest.totalFiles} file(s), {bytes} bytes"

/-- Takes the result of an export into a report. -/
def addExport (r : Report) (result : ExportResult) : Report :=
  let path := match result.outputPath with
    | some p => p.render
    | none => ""
  addStep
    { r with
      exportErrors := r.exportErrors ++ result.errors
      manifest := some result.manifest
      outputPath := path }
    (Step.exporting.metric result.success (exportDetail result.manifest))

variable {m : Type → Type} [Monad m]

/-- Assembles the document of a model and exports it unless the run is dry. -/
def generate (fs : Calls m) (q : Request) (model : DataModel) (s : Settings) (r : Report)
    (limits : Limits := .none) : m (Report × Log) := do
  match limits model s with
  | some fault => return (assemblyFailure r fault, assemblyFailureLog fault)
  | none =>
    let r := assemble model s r
    let log := assembleLog model s r
    if q.dryRun then return (finish r, log ++ [⟨.info, source, "Dry run — nothing written."⟩])
    else
      let plan := q.exportPlan s (← fs.resolve (q.outputPath s))
      let (result, _, placed) ← plan.run fs .empty r.outputText
      return (finish (addExport r result),
        log ++ plan.setupLog ++ placed ++ timerLog "export" ++ exportLog result)

/-! ## Loading and parsing -/

/-- The report of a run whose model file could not be loaded. -/
def loadFailure (fault : LoadFault) : Report :=
  finish (addStep { Report.empty with ingestionErrors := [fault.message] }
    (Step.loading.metric false fault.message))

/-- The report after the model file has been loaded. -/
def loaded (p : Path) : Report := addStep .empty (Step.loading.metric true s!"from {p.name}")

/-- The report of a run whose document was not accepted. -/
def parseFailure (r : Report) (fault : IngestionFault) : Report :=
  finish (addStep { r with ingestionErrors := [fault.message] }
    (Step.parsing.metric false "parse failed"))

/-- The report after the model has been read. -/
def parsed (r : Report) (model : DataModel) : Report :=
  addStep r (Step.parsing.metric true
    s!"{model.entities.length} entities, {model.enums.length} enums")

/-- Runs the pipeline on what was found at the path of a model file. -/
def runOn (fs : Calls m) (q : Request) (p : Path) (found : Option Entry)
    (limits : Limits := .none) : m (Report × Log) := do
  let log := ModelFile.loadLog p found ++ timerLog "load_model"
  match ModelFile.load p found with
  | .error fault => return (loadFailure fault, log)
  | .ok doc =>
    let log := log ++
      [⟨.info, source, s!"Loaded model file: {p.render} ({doc.length} top-level keys)."⟩] ++
      Ingestion.logWith doc q.overrides ++ timerLog "parse_model"
    match Ingestion.runWith doc q.overrides with
    | .error fault =>
      return (parseFailure (loaded p) fault,
        log ++ [⟨.error, source, s!"Model ingestion failed: {fault.message}"⟩])
    | .ok (model, s) =>
      let (r, more) ← generate fs q model s (parsed (loaded p) model) limits
      return (r, log ++ more)

/-- Runs the pipeline on a model file. -/
def run (fs : Calls m) (q : Request) (p : Path) (limits : Limits := .none) : m (Report × Log) := do
  runOn fs q p (← fs.look p) limits

end Pipeline

end ModelSchemas
