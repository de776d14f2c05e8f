import ModelSchemas.Diagnostics.Log
import ModelSchemas.Model.DataModel
import ModelSchemas.Model.Settings

/-!
# Ingestion

A document describes a data model and the settings of a run. The model stands under a key of its
own, or its parts stand at the top; the settings stand under the first present of three keys, and
are the default ones when none is present or the value is null.
-/

namespace ModelSchemas

open Document

/-! ## Faults -/

/-- Why a document is not accepted. -/
inductive IngestionFault where
  | notMapping (key : String) (given : Value)
  | noModel
  | invalidModel (issues : List Issue)
  | invalidSettings (issues : List Issue)

namespace IngestionFault

/-- The headline of a fault's wording. The lines that tell of each issue are left out; the issues
themselves are given by `issues`. -/
def message : IngestionFault → String
  | notMapping key given => s!"'{key}' must be a mapping, got {given.kindName}."
  | noModel =>
    "Cannot find a data model in input. Expected top-level key: " ++
      "'datamodel', 'model', 'models' or 'entities'."
  | invalidModel issues => "Data model validation failed: " ++ headline issues "DataModel"
  | invalidSettings issues => "Config validation failed: " ++ headline issues "GenerationConfig"

/-- The issues of an input that did not validate. -/
def issues : IngestionFault → List Issue
  | invalidModel issues | invalidSettings issues => issues
  | _ => []

end IngestionFault

namespace Ingestion

/-! ## Finding the parts -/

/-- The keys under which a document may hold its model. -/
def modelKeys : List String := ["datamodel", "model"]

/-- The keys that make the document itself the model. -/
def partKeys : List String := ["models", "entities", "enums"]

/-- The keys under which a document may hold its settings. -/
def settingsKeys : List String := ["config", "generator", "generator_config"]

/-- The part of the document that describes the model. -/
def findModel (doc : Entries) : Except IngestionFault Entries :=
  match modelKeys.findSome? fun key => (doc.get? key).map (key, ·) with
  | some (_, .mapping entries) => .ok entries
  | some (key, given) => .error (.notMapping key given)
  | none => if partKeys.any doc.has then .ok doc else .error .noModel

/-- The entities under the key by which they are checked. -/
def withModelsKey (model : Entries) : Entries :=
  match model.get? "entities" with
  | some entities =>
    if model.has "models" then model else (model.erase "entities").set "models" entities
  | none => model

/-- The first present of the settings keys. -/
def settingsKey? (doc : Entries) : Option String := settingsKeys.find? doc.has

/-- The settings as the document gives them; null counts as absent. -/
def findSettings? (doc : Entries) : Option Value :=
  match (settingsKey? doc).bind doc.get? with
  | some .null => none
  | found => found

/-! ## Reading a document -/

/-- The checked model and settings of a document. -/
def run (doc : Entries) : Except IngestionFault (DataModel × Settings) := do
  let model ← findModel doc
  match DataModel.decode (.mapping (withModelsKey model)) with
  | .rejected issues => .error (.invalidModel issues)
  | .accepted model =>
    match Settings.decode ((findSettings? doc).getD (.mapping [])) with
    | .rejected issues => .error (.invalidSettings issues)
    | .accepted settings => return (model, settings)

/-- What reading a document has to say. -/
def log (doc : Entries) : Log :=
  match findModel doc, findSettings? doc with
  | .ok _, none =>
    [⟨.info, "zodgen.generator", "No generator config found in input — using defaults."⟩]
  | _, _ => []

end Ingestion

end ModelSchemas
