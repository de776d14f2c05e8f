import ModelSchemas.Decimal.Fixed
import ModelSchemas.Export.Manifest

/-!
# Reports

A report says how a run of the pipeline went: which steps it took, what they produced, and what went
wrong. `Report.summary` is the page that is shown to people.
-/

namespace ModelSchemas

/-- One step of a run. -/
structure StepMetric where
  stepName : String
  success : Bool
  elapsedSeconds : Float
  detail : String

/-- How a run went. -/
structure Report where
  success : Bool
  outputPath : String
  outputText : String
  totalEntities : Int
  totalEnumsUsed : Int
  totalLines : Int
  totalBytes : Int
  totalElapsedSeconds : Float
  steps : List StepMetric
  ingestionErrors : List String
  generationErrors : List String
  exportErrors : List String
  manifest : Option ExportManifest

namespace Report

/-- The report of a run that has done nothing yet. -/
def empty : Report := ⟨false, "", "", 0, 0, 0, 0, 0.0, [], [], [], [], none⟩

/-! ## Summary -/

/-- A text with spaces after it up to a width. -/
def padRight (width : Nat) (t : Text) : Text := t ++ List.replicate (width - t.length) ' '

/-- A text with spaces before it up to a width. -/
def padLeft (width : Nat) (t : Text) : Text := List.replicate (width - t.length) ' ' ++ t

/-- A duration in seconds with three decimal places. -/
def seconds (x : Float) : Text := Decimal.fixed 3 x

/-- A line of the page width made of one character. -/
def rule (c : Char) : String := String.ofList (List.replicate 60 c)

/-- A number with its thousands grouped. -/
def grouped (n : Int) : String := String.ofList (Decimal.grouped n)

/-- The line of one step. -/
def stepLine (step : StepMetric) : String :=
  let icon := if step.success then "✓" else "✗"
  let name := String.ofList (padRight 24 step.stepName.toList)
  let time := String.ofList (padLeft 7 (seconds step.elapsedSeconds))
  s!"    {icon} {name} {time}s  {step.detail}"

/-- The section of one kind of error, if there are any. -/
def errorSection (title : String) (errors : List String) : List String :=
  if errors.isEmpty then []
  else [rule '─', s!"  {title} ({errors.length}):"] ++ errors.map fun error => s!"    ✗ {error}"

/-- The lines of the page. -/
def summaryLines (r : Report) : List String :=
  let status := if r.success then "✅ SUCCESS" else "❌ FAILED"
  let output := if r.outputPath = "" then "(not written)" else r.outputPath
  let time := String.ofList (seconds r.totalElapsedSeconds)
  [rule '=', "  zodgen — Generation Report", rule '=', s!"  Status:           {status}",
    s!"  Output:           {output}", s!"  Entities:         {r.totalEntities}",
    s!"  Enums used:       {r.totalEnumsUsed}", s!"  Total lines:      {grouped r.totalLines}",
    s!"  Total bytes:      {grouped r.totalBytes}", s!"  Total time:       {time}s", rule '─'] ++
    (if r.steps.isEmpty then [] else "  Pipeline Steps:" :: r.steps.map stepLine) ++
    errorSection "Ingestion Errors" r.ingestionErrors ++
    errorSection "Generation Errors" r.generationErrors ++
    errorSection "Export Errors" r.exportErrors ++ [rule '=']

/-- The page as one text. -/
def summary (r : Report) : String := String.intercalate "\n" r.summaryLines

end Report

end ModelSchemas
