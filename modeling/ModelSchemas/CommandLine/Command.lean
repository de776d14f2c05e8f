import ModelSchemas.CommandLine.Options
import ModelSchemas.Host.Pipeline

/-!
# The command

What a command line does: it shows the version or what the generator says about itself, or runs the
pipeline on a model file. The exit code says how a run went. The document goes to the standard
output instead of a file if that is asked for, and only if the run was a success. A breakdown is not
caught here either.
-/

namespace ModelSchemas

open Document Files

namespace CommandLine

/-! ## Outcomes -/

/-- How a command ends. -/
inductive ExitCode where
  | success
  | misuse
  | generationError
  | exportError
  | inputError
deriving DecidableEq, Repr

/-- The number of an exit code. -/
def ExitCode.number : ExitCode → Nat
  | success => 0
  | misuse => 2
  | generationError => 2
  | exportError => 3
  | inputError => 4

/-- The exit code that a report asks for. -/
def ExitCode.ofReport (r : Report) : ExitCode :=
  if !r.ingestionErrors.isEmpty then inputError
  else if !r.generationErrors.isEmpty then generationError
  else if !r.exportErrors.isEmpty then exportError
  else success

/-- What a command leaves besides files: its exit code, its standard output, its log, and whether it
was called in a way that calls for a reminder of its options. -/
structure Outcome where
  exitCode : ExitCode
  output : String
  log : Log
  needsUsage : Bool

/-- Who speaks of the command. -/
def source : String := "zodgen"

/-! ## Options at work -/

namespace Options

/-- The entries of the log that are shown: none if the command is quiet, otherwise the more the
higher the verbosity. -/
def shown (o : Options) (log : Log) : Log :=
  if o.quiet then []
  else if o.verbosity = 0 then log.atLeast .warning
  else if o.verbosity = 1 then log.atLeast .info
  else log

/-- The settings that the options lay over those of the document. -/
def overrides (o : Options) : Entries :=
  let text (key : String) (value : Option String) : Entries :=
    (value.map fun v => (key, Value.str v)).toList
  let switch (key : String) (on : Bool) : Entries := if on then [(key, .bool true)] else []
  text "output_file_name" o.fileName ++ text "schema_module" o.schemaModule ++
    text "client_module" o.clientModule ++ switch "always_lazy_references" o.alwaysLazy ++
    switch "write_manifest" o.writeManifest

/-- Whether the run writes no files. -/
def isDry (o : Options) : Bool := o.dryRun || o.stdout

/-- The output directory that the options give. An empty one is none. -/
def outputPath (o : Options) (base : Path) : Option Path :=
  match o.output with
  | some text => if text = "" then none else some (base.follow text)
  | none => none

/-- What the options ask of the pipeline, with the output directory that they have come to. -/
def pipelineRequest (o : Options) (base : Path) (output : Option Path) (timestamp : String) :
    Request where
  base := base
  output := output
  overrides := o.overrides
  dryRun := o.isDry
  atomic := true
  timestamp := timestamp

/-- What goes to the standard output after a run. -/
def reportOutput (o : Options) (r : Report) : String :=
  if o.stdout && r.success then r.outputText
  else if o.quiet then ""
  else r.summary ++ "\n"

end Options

/-! ## Log -/

/-- What is said before a run. -/
def openingLog (model : Path) (q : Request) : Log :=
  let output := match q.output with
    | some p => p.render
    | none => "(from config)"
  let dry : Log := if q.dryRun then
      [⟨.info, source, "Dry-run mode: files will not be written to disk."⟩]
    else []
  [⟨.info, source, s!"Model:   {model.render}"⟩, ⟨.info, source, s!"Output:  {output}"⟩] ++ dry

/-- What is said after a run. -/
def closingLog (r : Report) : Log :=
  let code := ExitCode.ofReport r
  let last : LogEntry :=
    if code = .success then ⟨.info, source, "Generation completed successfully."⟩
    else ⟨.error, source, s!"Generation failed with exit code {code.number}."⟩
  r.ingestionErrors.map (fun error => ⟨.error, source, error⟩) ++ [last]

/-- A command that ends with a complaint about its input. -/
def refuse (o : Options) (message : String) (needsUsage : Bool) : Outcome :=
  ⟨.inputError, "", o.shown [⟨.error, source, message⟩], needsUsage⟩

/-! ## Running -/

/-- The page about the generator. -/
def manifestPage : String :=
  Json.render ⟨.ascii, some 2⟩ (GeneratorInfo.ofSettings .default).toValue ++ "\n"

/-- The page about the version. -/
def versionPage : String := s!"zodgen v{GeneratorInfo.currentVersion}\n"

/-- The page about the options. -/
def helpPage : String :=
  "usage: zodgen [-h] [--version] [-m PATH] [-o DIR] [--manifest] [--stdout] [--dry-run]\n" ++
    "              [--file-name NAME] [--schema-module MODULE] [--client-module MODULE]\n" ++
    "              [--always-lazy] [--write-manifest] [-v] [-q]\n"

variable {m : Type → Type} [Monad m]

/-- Runs the pipeline on a model file, once the output directory has been resolved. -/
def Options.runPipeline (fs : Calls m) (o : Options) (base : Path) (timestamp : String)
    (model : Path) (limits : Pipeline.Limits := .none) : m (Request × Report × Log) := do
  let output ← (o.outputPath base).mapM fs.resolve
  let q := o.pipelineRequest base output timestamp
  let (r, log) ← Pipeline.run fs q model limits
  return (q, r, log)

/-- What a command leaves after the pipeline was run. -/
def Options.outcomeOf (o : Options) (model : Path) : Request × Report × Log → Outcome
  | (q, r, log) =>
    ⟨ExitCode.ofReport r, o.reportOutput r,
      o.shown (openingLog model q ++ Pipeline.setupLog q ++ log ++ closingLog r), false⟩

/-- Generates from a model file that is there. -/
def generate (fs : Calls m) (o : Options) (base : Path) (timestamp : String) (model : Path)
    (limits : Pipeline.Limits := .none) : m Outcome := do
  return o.outcomeOf model (← o.runPipeline fs base timestamp model limits)

/-- Carries out what the options ask for. Paths start at `base`. -/
def runOptions (fs : Calls m) (base : Path) (timestamp : String) (o : Options)
    (limits : Pipeline.Limits := .none) : m Outcome := do
  if o.manifest then return ⟨.success, manifestPage, [], false⟩
  match o.model with
  | none => return refuse o "A model file is required. Use -m/--model or --manifest." true
  | some text =>
    let model ← fs.resolve (base.follow text)
    match ← fs.look model with
    | some (.file _) => generate fs o base timestamp model limits
    | _ => return refuse o s!"Model file not found: {model.render}" false

/-- Carries out a command line. -/
def run (fs : Calls m) (base : Path) (timestamp : String) (arguments : List String)
    (limits : Pipeline.Limits := .none) : m Outcome :=
  match Invocation.ofArguments arguments with
  | .run options => runOptions fs base timestamp options limits
  | .showHelp => return ⟨.success, helpPage, [], false⟩
  | .showVersion => return ⟨.success, versionPage, [], false⟩
  | .misused _ => return ⟨.misuse, "", [], true⟩

end CommandLine

end ModelSchemas
