import ModelSchemas.Diagnostics.Log
import ModelSchemas.Document.Json.Reader
import ModelSchemas.Document.Yaml.Reader
import ModelSchemas.Files.Tree
import ModelSchemas.Text.Utf8

/-!
# Model files

A model file holds one mapping in JSON or YAML. The extension of its name says which; under any
other extension the file is read as JSON and, if that fails in any way, as YAML.

Of YAML the reader takes a subset. Directives, tags, anchors and aliases are refused as invalid
YAML, where a full reader would resolve them, and a plain scalar that is spelled like a date stays a
string, where a full reader would make a date of it. What follows holds of model files in that
subset.
-/

namespace ModelSchemas

open Document Files

/-! ## Faults -/

/-- Why a model file could not be loaded. -/
inductive LoadFault where
  | missing (p : Path)
  | notFile (p : Path)
  | notText (fault : Utf8.Fault)
  | badJson (p : Path) (text : Text) (fault : Json.Fault)
  | badYaml (p : Path) (fault : Yaml.Fault)
  | notObject (given : Value)
  | notMapping (given : Value)

namespace LoadFault

/-- The wording of a fault. Numbers out of range are no matter of the file's syntax, so that its
name is left out. -/
def message : LoadFault → String
  | missing p => s!"Model file not found: {p.render}"
  | notFile p => s!"Model path is not a file: {p.render}"
  | notText fault => fault.message
  | badJson p text fault =>
    match fault with
    | .syntaxFault .. => s!"Invalid JSON in {p.render}: {fault.message text}"
    | .tooManyDigits _ => fault.message text
  | badYaml p fault => if fault.isSyntactic then s!"Invalid YAML in {p.render}" else fault.message
  | notObject given => s!"Expected a JSON object at top level, got {given.kindName}."
  | notMapping given => s!"Expected a YAML mapping at top level, got {given.kindName}."

end LoadFault

namespace ModelFile

/-! ## Formats -/

/-- The formats of model files. -/
inductive Format where
  | json
  | yaml
  | unknown (extension : String)
deriving DecidableEq, Repr

/-- The format that the extension of a path says, in letters of either case. -/
def format (p : Path) : Format :=
  let lower := String.ofList (p.extension.toList.map Char.toLower)
  if lower = ".yaml" || lower = ".yml" then .yaml
  else if lower = ".json" then .json
  else .unknown lower

/-- What is said of a file whose format is not known. -/
def Format.log : Format → Log
  | unknown extension =>
    [⟨.info, "zodgen.generator", s!"Unknown extension '{extension}' — trying JSON then YAML."⟩]
  | _ => []

/-! ## Reading -/

/-- The text of a file, with its line ends unified. -/
def text (bytes : List UInt8) : Except LoadFault Text :=
  match Utf8.decode bytes with
  | .ok t => .ok t.unifyLineEnds
  | .error fault => .error (.notText fault)

/-- Reads the content of a file as JSON. -/
def readJson (p : Path) (bytes : List UInt8) : Except LoadFault Entries := do
  let t ← text bytes
  match Json.read t with
  | .ok (.mapping entries) => return entries
  | .ok given => .error (.notObject given)
  | .error fault => .error (.badJson p t fault)

/-- Reads the content of a file as YAML. -/
def readYaml (p : Path) (bytes : List UInt8) : Except LoadFault Entries := do
  match Yaml.read (← text bytes) with
  | .ok (.mapping entries) => return entries
  | .ok given => .error (.notMapping given)
  | .error fault => .error (.badYaml p fault)

/-- Reads the content of a file in some format. -/
def readAs (p : Path) (bytes : List UInt8) : Format → Except LoadFault Entries
  | .json => readJson p bytes
  | .yaml => readYaml p bytes
  | .unknown _ =>
    match readJson p bytes with
    | .ok entries => .ok entries
    | .error _ => readYaml p bytes

/-- Reads what was found at the path of a model file. -/
def load (p : Path) : Option Entry → Except LoadFault Entries
  | none => .error (.missing p)
  | some .directory => .error (.notFile p)
  | some (.file bytes) => readAs p bytes (format p)

/-- What reading has to say about what was found. -/
def loadLog (p : Path) : Option Entry → Log
  | some (.file _) => (format p).log
  | _ => []

end ModelFile

end ModelSchemas
