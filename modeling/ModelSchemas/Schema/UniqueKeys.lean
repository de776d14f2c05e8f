import ModelSchemas.Document.Display
import ModelSchemas.Model.Entity
import ModelSchemas.Schema.Pass

/-!
# Unique keys

The sets of fields that identify one row of an entity. The candidates are, in order: each field that
is an id or unique on its own, each unique group, the primary key, and all single fields together
when there are several. A candidate that names a field which the entity lacks is dropped, and of
candidates with the same set of names only the first stays.
-/

namespace ModelSchemas

namespace Schema

open Document

/-! ## Candidates -/

/-- Where a candidate comes from. -/
inductive KeySource where
  | single
  | uniqueGroup
  | primaryKey
  | combined
deriving DecidableEq, Repr

/-- The words for a source. -/
def KeySource.words : KeySource → String
  | single => "singleton"
  | uniqueGroup => "unique group"
  | primaryKey => "primary key"
  | combined => "combined"

/-- Names that may identify a row, and where they come from. -/
structure KeyCandidate where
  source : KeySource
  names : List String
deriving DecidableEq, Repr

/-- The names of the fields that identify a row on their own, in field order. -/
def singleKeyNames (e : Entity) : List String := (e.fields.filter Field.isSingleKey).map Field.name

/-- The candidates of an entity, in order. -/
def keyCandidates (e : Entity) : List KeyCandidate :=
  let singles := singleKeyNames e
  singles.map (fun name => ⟨.single, [name]⟩) ++
    e.uniqueIndexes.map (fun group => ⟨.uniqueGroup, group.fields⟩) ++
    (e.primaryKey.toList.map fun group => ⟨.primaryKey, group.fields⟩) ++
    (if 1 < singles.length then [⟨.combined, singles⟩] else [])

/-! ## Combinations -/

/-- Whether two lists hold the same names, whatever their order. -/
def sameNames (a b : List String) : Bool := a.all b.contains && b.all a.contains

/-- The candidates that stay, as distinct names with their fields. `seen` holds the names of those
that stay already. -/
def keptKeys (e : Entity) (seen : List (List String)) : List KeyCandidate → List (List Field)
  | [] => []
  | candidate :: rest =>
    let names := Names.distinct candidate.names
    if names.isEmpty || seen.any (sameNames names) then keptKeys e seen rest
    else match names.mapM e.getField with
      | none => keptKeys e seen rest
      | some fields => fields :: keptKeys e (names :: seen) rest

/-- The combinations of fields that identify a row, in order. -/
def uniqueCombos (e : Entity) : List (List Field) := keptKeys e [] (keyCandidates e)

/-! ## Log -/

/-- What dropping candidates has to say. -/
def droppedKeysLog (e : Entity) (seen : List (List String)) : List KeyCandidate → Log
  | [] => []
  | candidate :: rest =>
    let names := Names.distinct candidate.names
    if names.isEmpty || seen.any (sameNames names) then droppedKeysLog e seen rest
    else match names.mapM e.getField with
      | some _ => droppedKeysLog e (names :: seen) rest
      | none =>
        let unknown := names.filter fun name => (e.getField name).isNone
        ⟨.debug, "zodgen.uniques", s!"Dropping {candidate.source.words} combination " ++
          s!"{String.ofList (displayNames names)} on '{e.name}': unknown field(s) " ++
          s!"{String.ofList (displayNames unknown)}."⟩ :: droppedKeysLog e seen rest

/-- What finding the combinations has to say. -/
def uniqueCombosLog (e : Entity) : Log :=
  droppedKeysLog e [] (keyCandidates e) ++
    [⟨.debug, "zodgen.uniques",
      s!"Entity '{e.name}': {(uniqueCombos e).length} unique combination(s)."⟩]

end Schema

end ModelSchemas
