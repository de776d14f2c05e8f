import ModelSchemas.Validation.Scalar

/-!
# Checking records

A record is a mapping whose properties are found under one of several spellings, of which the first
that is present counts. A property may be required or have a default; a strict record takes no other
keys.
-/

namespace ModelSchemas

open Document

namespace Record

variable {α : Type}

/-- The first spelling that is present, with the value under it. -/
def find? (entries : Entries) (spellings : List String) : Option (String × Value) :=
  spellings.findSome? fun spelling => (entries.get? spelling).map (spelling, ·)

/-- A property that must be present. When it is not, the issue names its first spelling. -/
def required (entries : Entries) (spellings : List String) (decode : Decoder α) : Checked α :=
  match find? entries spellings with
  | some (spelling, v) => (decode v).under (.key spelling)
  | none => .rejected [⟨(spellings.take 1).map .key, .missing⟩]

/-- A property that has a value of its own when it is not present. -/
def withDefault (entries : Entries) (spellings : List String) (absent : α) (decode : Decoder α) :
    Checked α :=
  match find? entries spellings with
  | some (spelling, v) => (decode v).under (.key spelling)
  | none => .accepted absent

/-- The keys that no property of a record takes. -/
def unusedKeys (entries : Entries) (properties : List (List String)) : List String :=
  let used := properties.filterMap fun spellings => (find? entries spellings).map (·.1)
  (entries.map (·.1)).filter fun key => !used.contains key

/-- Rejects every key that no property takes. -/
def closed (entries : Entries) (properties : List (List String)) : Checked Unit :=
  match unusedKeys entries properties with
  | [] => .accepted ()
  | keys => .rejected (keys.map fun key => ⟨[.key key], .extraForbidden⟩)

/-- A mapping, read as the model `name`. -/
def ofMapping (name : String) (decode : Entries → Checked α) : Decoder α
  | .mapping entries => decode entries
  | _ => .reject (.notModel name)

end Record

/-- An attribute assignment: the attribute is unknown, or the value is checked for it. -/
def assignUnknown {α : Type} (name : String) : Checked α :=
  .rejected [⟨[.key name], .noSuchAttribute name⟩]

end ModelSchemas
