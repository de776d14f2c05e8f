import ModelSchemas.Proofs.Host.Course

/-!
# Settings laid over a document

A run may bring settings of its own, which are laid over those of the document key by key. The
parsing step then reads the document that holds the settings so made. Settings of a document that
are neither null nor a mapping are an error, with one exception: those that say nothing, such as an
empty list, give way to settings that are laid over them.
-/

namespace ModelSchemas

open Document Files

/-! ## Entries -/

namespace Document.Entries

theorem has_eq_isSome (entries : Entries) (key : String) :
    entries.has key = (entries.get? key).isSome := rfl

theorem get?_erase (entries : Entries) (key other : String) :
    get? (erase entries key) other = if other = key then none else get? entries other := by
  induction entries with
  | nil => simp [erase]
  | cons e rest ih =>
    obtain ⟨k, v⟩ := e
    rw [erase] at ih ⊢
    by_cases hk : k = key
    · subst hk
      rw [List.filter_cons_of_neg (by simp), ih, get?_cons]
      by_cases hother : other = k
      · simp [hother]
      · simp [hother]
    · rw [List.filter_cons_of_pos (by simpa using hk), get?_cons, get?_cons, ih]
      by_cases hother : other = k
      · subst hother
        simp [hk]
      · simp [hother]

/-- **Laying over.** The last value that is laid over a key counts, and what nothing is laid over
stays. -/
theorem get?_update (entries other : Entries) (key : String) :
    get? (update entries other) key = (get? other.reverse key).or (get? entries key) := by
  induction other generalizing entries with
  | nil => rfl
  | cons e rest ih =>
    obtain ⟨k, v⟩ := e
    have hupdate : update entries ((k, v) :: rest) = update (set entries k v) rest := rfl
    have hreverse : get? ((k, v) :: rest).reverse key =
        (get? rest.reverse key).or (get? [(k, v)] key) := by
      rw [List.reverse_cons, get?, List.lookup_append]
      rfl
    rw [hupdate, ih, hreverse, Option.or_assoc, get?_set, get?_cons]
    by_cases hkey : key = k
    · simp [hkey]
    · simp [hkey]

/-- Two mappings hold the same under these keys. -/
def AgreeOn (keys : List String) (entries other : Entries) : Prop :=
  ∀ key ∈ keys, entries.get? key = other.get? key

theorem AgreeOn.subset {keys fewer : List String} {entries other : Entries}
    (h : AgreeOn keys entries other) (hsub : fewer ⊆ keys) : AgreeOn fewer entries other :=
  fun key hkey => h key (hsub hkey)

end Document.Entries

/-! ## Reading -/

/-- A property is found by its spellings alone. -/
theorem Record.find?_congr {spellings : List String} {entries other : Entries}
    (h : entries.AgreeOn spellings other) :
    Record.find? entries spellings = Record.find? other spellings := by
  unfold Record.find?
  induction spellings with
  | nil => rfl
  | cons spelling rest ih =>
    rw [List.findSome?_cons, List.findSome?_cons, h spelling List.mem_cons_self,
      ih (h.subset (List.subset_cons_self _ _))]

theorem DataModel.decode_congr {entries other : Entries}
    (h : entries.AgreeOn Ingestion.partKeys other) :
    DataModel.decode (.mapping entries) = DataModel.decode (.mapping other) := by
  have henums : Record.find? entries ["enums"] = Record.find? other ["enums"] :=
    Record.find?_congr (h.subset (by decide))
  have hentities : Record.find? entries ["models", "entities"] =
      Record.find? other ["models", "entities"] := Record.find?_congr (h.subset (by decide))
  simp only [DataModel.decode, Record.ofMapping, Record.withDefault, henums, hentities]

namespace Ingestion

/-- The checked model of a document. -/
def readModel (doc : Entries) : Except IngestionFault DataModel :=
  match findModel doc with
  | .error fault => .error fault
  | .ok model =>
    match DataModel.decode (.mapping (withModelsKey model)) with
    | .rejected issues => .error (.invalidModel issues)
    | .accepted model => .ok model

/-- The checked settings of a value. -/
def readSettings (given : Value) : Except IngestionFault Settings :=
  match Settings.decode given with
  | .rejected issues => .error (.invalidSettings issues)
  | .accepted settings => .ok settings

/-- Reading a document reads its model and then its settings. -/
theorem run_eq (doc : Entries) :
    run doc = match readModel doc with
      | .error fault => .error fault
      | .ok model =>
        (readSettings ((findSettings? doc).getD (.mapping []))).map fun settings =>
          (model, settings) := by
  unfold run readModel readSettings
  cases findModel doc with
  | error fault => rfl
  | ok model =>
    simp only [bind, Except.bind]
    cases DataModel.decode (.mapping (withModelsKey model)) with
    | rejected issues => rfl
    | accepted model =>
      cases Settings.decode ((findSettings? doc).getD (.mapping [])) with
      | rejected issues => rfl
      | accepted settings => rfl

theorem agreeOn_withModelsKey {model other : Entries} (h : model.AgreeOn partKeys other) :
    (withModelsKey model).AgreeOn partKeys (withModelsKey other) := by
  have hentities := h "entities" (by decide)
  have hmodels : model.has "models" = other.has "models" :=
    congrArg Option.isSome (h "models" (by decide))
  unfold withModelsKey
  rw [hentities, hmodels]
  split
  · split_ifs
    · exact h
    · intro key hkey
      simp only [Entries.get?_set, Entries.get?_erase, h key hkey]
  · exact h

/-- The model of a document stands under the keys of the model. -/
theorem readModel_congr {doc other : Entries} (h : doc.AgreeOn (modelKeys ++ partKeys) other) :
    readModel doc = readModel other := by
  have hparts : doc.AgreeOn partKeys other := h.subset (List.subset_append_right _ _)
  have hfound : Record.find? doc modelKeys = Record.find? other modelKeys :=
    Record.find?_congr (h.subset (List.subset_append_left _ _))
  have hhas : partKeys.any doc.has = partKeys.any other.has := by
    rw [Bool.eq_iff_iff, List.any_eq_true, List.any_eq_true]
    refine exists_congr fun key => and_congr_right fun hkey => ?_
    rw [Entries.has_eq_isSome, Entries.has_eq_isSome, hparts key hkey]
  unfold Record.find? at hfound
  unfold readModel findModel
  rw [hfound, hhas]
  cases modelKeys.findSome? fun key => (other.get? key).map (key, ·) with
  | some found =>
    obtain ⟨key, given⟩ := found
    cases given <;> rfl
  | none =>
    -- the document is its own model, and the keys that are not of a model do not count
    by_cases hany : partKeys.any other.has
    · simp only [if_pos hany, DataModel.decode_congr (agreeOn_withModelsKey hparts)]
    · simp only [if_neg hany]

/-! ## Settings -/

/-- The value under the first present of the settings keys. -/
def settingsValue? (doc : Entries) : Option Value := (settingsKey? doc).bind doc.get?

theorem findSettings?_eq (doc : Entries) :
    findSettings? doc = match settingsValue? doc with
      | some .null => none
      | found => found := rfl

/-- The settings of a document as a mapping: empty if there are none or if they are null, and
nothing if they are not a mapping. -/
def settingsEntries? (doc : Entries) : Option Entries :=
  match settingsValue? doc with
  | none | some .null => some []
  | some given => given.entries?

/-- The document with these settings in the place of its own. -/
def withSettings (doc entries : Entries) : Entries :=
  doc.set ((settingsKey? doc).getD "config") (.mapping entries)

/-- The key that is found is still found when it is set. -/
theorem find?_set {keys : List String} {doc : Entries} {key : String}
    (h : keys.find? doc.has = some key) (value : Value) :
    keys.find? (doc.set key value).has = some key := by
  induction keys with
  | nil => cases h
  | cons first rest ih =>
    have hhas : (doc.set key value).has first = (decide (first = key) || doc.has first) := by
      rw [Entries.has_eq_isSome, Entries.get?_set]
      by_cases hkey : first = key
      · simp [hkey]
      · simp [hkey, Entries.has_eq_isSome]
    by_cases hfirst : first = key
    · have hfound : (doc.set key value).has first = true := by simpa [hfirst] using hhas
      rw [List.find?_cons_of_pos hfound, hfirst]
    · have hnot : ¬doc.has first := by
        intro hfound
        rw [List.find?_cons_of_pos hfound] at h
        exact hfirst (Option.some.inj h)
      rw [List.find?_cons_of_neg hnot] at h
      rw [List.find?_cons_of_neg (by simp [hhas, hfirst, hnot]), ih h]

theorem settingsKey?_withSettings (doc entries : Entries) :
    settingsKey? (withSettings doc entries) = some ((settingsKey? doc).getD "config") := by
  unfold withSettings
  cases hkey : settingsKey? doc with
  | some key => exact find?_set hkey _
  | none =>
    have hset : (doc.set "config" (.mapping entries)).has "config" = true := by
      rw [Entries.has_eq_isSome, Entries.get?_set, if_pos rfl]
      rfl
    exact List.find?_cons_of_pos hset

theorem findSettings?_withSettings (doc entries : Entries) :
    findSettings? (withSettings doc entries) = some (.mapping entries) := by
  rw [findSettings?, settingsKey?_withSettings, Option.bind_some, withSettings, Entries.get?_set,
    if_pos rfl]

theorem agreeOn_withSettings (doc entries : Entries) :
    (withSettings doc entries).AgreeOn (modelKeys ++ partKeys) doc := by
  have hkey : (settingsKey? doc).getD "config" ∈ settingsKeys := by
    cases hfound : settingsKey? doc with
    | none => decide
    | some key => exact List.mem_of_find?_eq_some hfound
  have hdisjoint : ∀ key ∈ modelKeys ++ partKeys, key ∉ settingsKeys := by decide
  intro key hmem
  rw [withSettings, Entries.get?_set, if_neg]
  rintro rfl
  exact hdisjoint _ hmem hkey

/-- Settings that are no mapping are found as they are. -/
theorem exists_given_of_settingsEntries? {doc : Entries} (h : settingsEntries? doc = none) :
    ∃ given, settingsValue? doc = some given ∧ findSettings? doc = some given ∧
      given.entries? = none := by
  rw [settingsEntries?] at h
  rw [findSettings?_eq]
  cases hvalue : settingsValue? doc with
  | none =>
    rw [hvalue] at h
    cases h
  | some given =>
    rw [hvalue] at h
    cases given with
    | null | mapping own => cases h
    | _ => exact ⟨_, rfl, rfl, rfl⟩

/-- Other settings are read as the mapping that they are or stand for. -/
theorem getD_findSettings? {doc entries : Entries} (h : settingsEntries? doc = some entries) :
    (findSettings? doc).getD (.mapping []) = .mapping entries := by
  rw [settingsEntries?] at h
  rw [findSettings?_eq]
  cases hvalue : settingsValue? doc with
  | none =>
    rw [hvalue] at h
    cases h
    rfl
  | some given =>
    rw [hvalue] at h
    cases given with
    | null | mapping own =>
      cases h
      rfl
    | _ => cases h

/-- A document may spell out the settings that it has. -/
theorem run_withSettings {doc entries : Entries} (h : settingsEntries? doc = some entries) :
    run (withSettings doc entries) = run doc := by
  rw [run_eq, run_eq, readModel_congr (agreeOn_withSettings doc entries),
    findSettings?_withSettings, getD_findSettings? h, Option.getD_some]

/-- Settings that are not a mapping are not accepted. -/
theorem exists_fault_of_run {doc : Entries} (h : settingsEntries? doc = none) :
    ∃ fault, run doc = .error fault := by
  obtain ⟨given, -, hfind, hentries⟩ := exists_given_of_settingsEntries? h
  have hsettings : ∃ fault, readSettings given = .error fault := by
    cases given with
    | mapping own => cases hentries
    | _ => exact ⟨_, rfl⟩
  obtain ⟨fault, hfault⟩ := hsettings
  rw [run_eq, hfind, Option.getD_some, hfault]
  cases readModel doc with
  | error other => exact ⟨other, rfl⟩
  | ok model => exact ⟨fault, rfl⟩

/-! ## Overrides -/

/-- The overrides take the place of settings that are not a mapping: these say nothing, and
there are overrides. -/
def HidesSettings (doc overrides : Entries) : Prop :=
  overrides ≠ [] ∧ ∃ given, settingsValue? doc = some given ∧ given.isTruthy = false

theorem runWith_nil (doc : Entries) : runWith doc [] = run doc := rfl

/-- Overrides are laid over the value under the key that the settings stand under, or would. -/
theorem get?_settingsKey? (doc : Entries) :
    doc.get? ((settingsKey? doc).getD "config") = settingsValue? doc := by
  unfold settingsValue?
  cases hkey : settingsKey? doc with
  | some key => rfl
  | none =>
    have habsent : ¬doc.has "config" := List.find?_eq_none.mp hkey "config" (by decide)
    exact Option.not_isSome_iff_eq_none.mp habsent

section

variable {doc overrides : Entries} (hne : overrides ≠ [])

include hne

theorem override_of_mapping {entries : Entries}
    (h : settingsValue? doc = some (.mapping entries)) :
    override doc overrides = .ok (withSettings doc (Entries.update entries overrides)) := by
  have hempty : overrides.isEmpty = false := by simpa using hne
  unfold override
  rw [hempty, if_neg Bool.false_ne_true]
  dsimp only
  rw [get?_settingsKey?, h]
  rfl

theorem override_of_entries?_eq_none {given : Value} (h : (settingsValue? doc).getD .null = given)
    (hentries : given.entries? = none) :
    override doc overrides =
      if given.isTruthy then .error (.notMapping ((settingsKey? doc).getD "config") given)
      else .ok (withSettings doc (Entries.update [] overrides)) := by
  have hempty : overrides.isEmpty = false := by simpa using hne
  unfold override
  rw [hempty, if_neg Bool.false_ne_true]
  dsimp only
  rw [get?_settingsKey?, h]
  cases given with
  | mapping own => cases hentries
  | _ => rfl

/-- Overrides that are laid over a value that says nothing are all the settings. -/
theorem runWith_of_not_isTruthy {given : Value} (h : (settingsValue? doc).getD .null = given)
    (hentries : given.entries? = none) (hsilent : given.isTruthy = false) :
    runWith doc overrides = run (withSettings doc (Entries.update [] overrides)) := by
  rw [runWith, override_of_entries?_eq_none hne h hentries, hsilent, if_neg Bool.false_ne_true]
  rfl

end

/-- Overrides are laid over the settings of a document key by key. -/
theorem runWith_of_settingsEntries? {doc entries : Entries}
    (h : settingsEntries? doc = some entries) (overrides : Entries) :
    runWith doc overrides = run (withSettings doc (Entries.update entries overrides)) := by
  by_cases hne : overrides = []
  · rw [hne, runWith_nil]
    exact (run_withSettings h).symm
  · unfold settingsEntries? at h
    cases hvalue : settingsValue? doc with
    | none =>
      rw [hvalue] at h
      cases h
      have hgiven : (settingsValue? doc).getD .null = .null := by rw [hvalue, Option.getD_none]
      exact runWith_of_not_isTruthy hne hgiven rfl rfl
    | some given =>
      rw [hvalue] at h
      cases given with
      | null =>
        cases h
        have hgiven : (settingsValue? doc).getD .null = .null := by rw [hvalue, Option.getD_some]
        exact runWith_of_not_isTruthy hne hgiven rfl rfl
      | mapping own =>
        cases h
        rw [runWith, override_of_mapping hne hvalue]
        rfl
      | _ => cases h

/-- Overrides take the place of settings that say nothing. -/
theorem runWith_of_hidesSettings {doc overrides : Entries} (h : settingsEntries? doc = none)
    (hides : HidesSettings doc overrides) :
    runWith doc overrides = run (withSettings doc (Entries.update [] overrides)) := by
  obtain ⟨given, hvalue, -, hentries⟩ := exists_given_of_settingsEntries? h
  obtain ⟨hne, given', hvalue', hsilent⟩ := hides
  obtain rfl := Option.some.inj (hvalue.symm.trans hvalue')
  have hgiven : (settingsValue? doc).getD .null = given := by rw [hvalue, Option.getD_some]
  exact runWith_of_not_isTruthy hne hgiven hentries hsilent

/-- Other settings that are not a mapping are not accepted, overridden or not. -/
theorem exists_fault_of_runWith {doc overrides : Entries} (h : settingsEntries? doc = none)
    (hides : ¬HidesSettings doc overrides) : ∃ fault, runWith doc overrides = .error fault := by
  by_cases hne : overrides = []
  · rw [hne, runWith_nil]
    exact exists_fault_of_run h
  · obtain ⟨given, hvalue, -, hentries⟩ := exists_given_of_settingsEntries? h
    have hgiven : (settingsValue? doc).getD .null = given := by rw [hvalue, Option.getD_some]
    cases htruthy : given.isTruthy with
    | false => exact absurd ⟨hne, given, hvalue, htruthy⟩ hides
    | true =>
      refine ⟨.notMapping ((settingsKey? doc).getD "config") given, ?_⟩
      rw [runWith, override_of_entries?_eq_none hne hgiven hentries, htruthy, if_pos rfl]
      rfl

end Ingestion

/-! ## Runs -/

namespace Pipeline

open Ingestion

variable {limits : Limits} {machine : Machine} {q : Request} {p : Path} {d after : Disk}
  {outcome : Except Breakdown Report} {r : Report}

/-- What a report says of a parsing step that comes to this: a fault is the error of the run, which
goes no further, and a model that was read is counted. -/
def TellsParsing (r : Report) : Except IngestionFault (DataModel × Settings) → Prop
  | .error fault => Tells r ⟨[.loading], some .parsing⟩ ∧ r.ingestionErrors = [fault.message]
  | .ok (model, _) =>
    Step.parsing.metric true s!"{model.entities.length} entities, {model.enums.length} enums" ∈
        r.steps ∧
      r.ingestionErrors = []

/-- A run whose document is not accepted fails in the parsing step, and that is all it does. -/
theorem Outcome.of_fault (h : Outcome limits machine q p d outcome after) {doc : Entries}
    (hload : ModelFile.load p (d.tree.look p) = .ok doc) {fault : IngestionFault}
    (hfault : runWith doc q.overrides = .error fault) :
    ∃ r, outcome = .ok r ∧ Tells r ⟨[.loading], some .parsing⟩ ∧
      r.ingestionErrors = [fault.message] ∧ after = d := by
  have hprepared : prepare limits q.overrides p (d.tree.look p) =
      .error (parseFailure (loaded p) fault) := by
    simp only [prepare, hload, hfault]
  obtain ⟨houtcome, hafter⟩ := h.of_error hprepared
  have hloaded : Tells (loaded p) ⟨[.loading], none⟩ :=
    Tells.empty.addStep (by decide) (by decide) _
  exact ⟨_, houtcome, hloaded.parseFailure fault, rfl, hafter⟩

/-- A step that is taken later keeps the record of the parsing step. -/
theorem TellsParsing.addStep {read : DataModel × Settings} {r' : Report}
    (h : TellsParsing r (.ok read)) (metric : StepMetric)
    (hsteps : r'.steps = r.steps ++ [metric]) (herrors : r'.ingestionErrors = r.ingestionErrors) :
    TellsParsing r' (.ok read) := by
  refine ⟨?_, herrors.trans h.2⟩
  rw [hsteps]
  exact List.mem_append_left _ h.1

/-- A run whose document is accepted keeps the record of the parsing step to its end. -/
theorem Outcome.of_read (h : Outcome limits machine q p d (.ok r) after) {doc : Entries}
    (hload : ModelFile.load p (d.tree.look p) = .ok doc) {model : DataModel} {s : Settings}
    (hread : runWith doc q.overrides = .ok (model, s)) : TellsParsing r (.ok (model, s)) := by
  have hparsed : TellsParsing (parsed (loaded p) model) (.ok (model, s)) :=
    ⟨List.mem_append_right _ List.mem_cons_self, rfl⟩
  have hassembled : TellsParsing (assemble model s (parsed (loaded p) model)) (.ok (model, s)) :=
    hparsed.addStep _ (steps_assemble model s _) (errors_assemble .ingestion model s _)
  cases hlimit : limits model s with
  | some fault =>
    have hprepared : prepare limits q.overrides p (d.tree.look p) =
        .error (assemblyFailure (parsed (loaded p) model) fault) := by
      simp only [prepare, hload, hread, hlimit]
    obtain ⟨hr, -⟩ := h.of_error hprepared
    cases hr
    exact hparsed.addStep _ rfl rfl
  | none =>
    have hprepared : prepare limits q.overrides p (d.tree.look p) =
        .ok (s, assemble model s (parsed (loaded p) model)) := by
      simp only [prepare, hload, hread, hlimit]
    generalize assemble model s (parsed (loaded p) model) = assembled at hprepared hassembled
    cases h with
    | stopped prepared => cases prepared.symm.trans hprepared
    | dry _ prepared =>
      cases prepared.symm.trans hprepared
      exact hassembled
    | exported _ prepared =>
      cases prepared.symm.trans hprepared
      exact hassembled.addStep _ rfl rfl

theorem Outcome.tellsParsing (h : Outcome limits machine q p d (.ok r) after) {doc : Entries}
    (hload : ModelFile.load p (d.tree.look p) = .ok doc) :
    TellsParsing r (runWith doc q.overrides) := by
  cases hparse : runWith doc q.overrides with
  | error fault =>
    obtain ⟨_, hr, htells, herrors, -⟩ := h.of_fault hload hparse
    cases hr
    exact ⟨htells, herrors⟩
  | ok read => exact h.of_read hload hparse

/-- A run that breaks down has read its document. -/
theorem Outcome.exists_read {b : Breakdown} (h : Outcome limits machine q p d (.error b) after)
    {doc : Entries} (hload : ModelFile.load p (d.tree.look p) = .ok doc) :
    ∃ read, runWith doc q.overrides = .ok read := by
  cases hparse : runWith doc q.overrides with
  | error fault =>
    obtain ⟨r, hr, -⟩ := h.of_fault hload hparse
    cases hr
  | ok read => exact ⟨read, rfl⟩

/-- **Overrides.** Where the settings of a loaded document are absent, null or a mapping, the
parsing step reads the document with the overrides laid over these settings, and for every key the
last override counts. Where they are something else, the run fails in the parsing step and leaves
the disk alone, unless they say nothing and there are overrides: then these are all the settings. A
run that comes to a report tells in it what the parsing step came to, and one that breaks down has
got past that step. -/
theorem overrides_laid_over (limits : Limits) (machine : Machine) (q : Request) (p : Path)
    (d : Disk) {doc : Entries} (hload : ModelFile.load p (d.tree.look p) = .ok doc) :
    let told := run (Disk.calls machine) q p limits d
    (∀ r log, told.1 = .ok (r, log) → TellsParsing r (runWith doc q.overrides)) ∧
    (∀ b, told.1 = .error b → ∃ read, runWith doc q.overrides = .ok read) ∧
    (∀ entries, settingsEntries? doc = some entries →
      runWith doc q.overrides =
          Ingestion.run (withSettings doc (Entries.update entries q.overrides)) ∧
        ∀ key, (Entries.update entries q.overrides).get? key =
          (Entries.get? q.overrides.reverse key).or (entries.get? key)) ∧
    (settingsEntries? doc = none → HidesSettings doc q.overrides →
      runWith doc q.overrides =
        Ingestion.run (withSettings doc (Entries.update [] q.overrides))) ∧
    (settingsEntries? doc = none → ¬HidesSettings doc q.overrides →
      ∃ r log, told = (.ok (r, log), d) ∧
        r.steps.map (fun metric => (metric.stepName, metric.success)) =
          [("Load Model File", true), ("Parse Model", false)] ∧
        r.ingestionErrors ≠ [] ∧ r.success = false ∧ r.outputText = "") := by
  intro told
  have houtcome : Outcome limits machine q p d (told.1.map Prod.fst) told.2 := outcome_run rfl
  refine ⟨fun r log htold => ?_, fun b htold => ?_,
    fun entries h => ⟨runWith_of_settingsEntries? h q.overrides, fun key => ?_⟩,
    runWith_of_hidesSettings, fun h hides => ?_⟩
  · rw [htold] at houtcome
    exact houtcome.tellsParsing hload
  · rw [htold] at houtcome
    exact houtcome.exists_read hload
  · exact Entries.get?_update entries q.overrides key
  · obtain ⟨fault, hfault⟩ := exists_fault_of_runWith h hides
    obtain ⟨r, hr, htells, herrors, hafter⟩ := houtcome.of_fault hload hfault
    obtain ⟨log, htold⟩ := exists_log_of_map_eq_ok hr
    have hne : r.ingestionErrors ≠ [] := by
      rw [herrors]
      exact List.cons_ne_nil _ _
    have hsuccess : r.success = false := by
      rw [hr] at houtcome
      rw [Bool.eq_false_iff]
      intro hsuccess
      exact hne (houtcome.success_iff.mp hsuccess).1
    have htext : r.outputText = "" :=
      Decidable.of_not_not fun htext => absurd (htells.text.mp htext) (by decide)
    exact ⟨r, log, Prod.ext htold hafter, htells.steps, hne, hsuccess, htext⟩

/-- A disk with one model file, which declares nothing and gives a list for its settings. -/
def listDisk (settings : List UInt8) : Disk :=
  .ofTree ⟨[(⟨["m.json"]⟩, .file ([123, 34, 109, 111, 100, 101, 108, 115, 34, 58, 91, 93, 44, 34,
    99, 111, 110, 102, 105, 103, 34, 58, 91] ++ settings ++ [93, 125]))]⟩ "tag"

/-- A dry run with these overrides. -/
def dryRequest (overrides : Entries) : Request := ⟨.root, none, overrides, true, true, "noon"⟩

/-- A document that is loaded and passes a test. -/
theorem exists_load_of_any {found : Except LoadFault Entries} {test : Entries → Bool}
    (h : found.toOption.any test = true) : ∃ doc, found = .ok doc ∧ test doc = true := by
  cases found with
  | error fault => cases h
  | ok doc => exact ⟨doc, rfl, h⟩

/-- A list with an item is refused, whatever is laid over it. -/
theorem list_item_refused :
    let d := listDisk [49]
    let q := dryRequest [("indent_size", .int 4)]
    (∃ doc, ModelFile.load ⟨["m.json"]⟩ (d.tree.look ⟨["m.json"]⟩) = .ok doc ∧
      settingsEntries? doc = none ∧ ¬HidesSettings doc q.overrides) ∧
    ∃ r log, run (Disk.calls .sound) q ⟨["m.json"]⟩ .none d = (.ok (r, log), d) ∧
      r.ingestionErrors ≠ [] ∧ r.outputText = "" := by
  intro d q
  have hgiven : (ModelFile.load ⟨["m.json"]⟩ (d.tree.look ⟨["m.json"]⟩)).toOption.any (fun doc =>
      (settingsEntries? doc).isNone && (settingsValue? doc).all Value.isTruthy) = true := by
    decide +kernel
  obtain ⟨doc, hload, hdoc⟩ := exists_load_of_any hgiven
  obtain ⟨hentries, htruthy⟩ := Bool.and_eq_true_iff.mp hdoc
  have hnone : settingsEntries? doc = none := Option.isNone_iff_eq_none.mp hentries
  have hides : ¬HidesSettings doc q.overrides := by
    rintro ⟨-, given, hvalue, hsilent⟩
    rw [hvalue, Option.all_some, hsilent] at htruthy
    cases htruthy
  obtain ⟨-, -, -, -, hrefused⟩ := overrides_laid_over .none .sound q ⟨["m.json"]⟩ d hload
  obtain ⟨r, log, htold, -, herrors, -, htext⟩ := hrefused hnone hides
  exact ⟨⟨doc, hload, hnone, hides⟩, r, log, htold, herrors, htext⟩

/-- An empty list is no mapping either, but it is refused only where nothing is laid over it. -/
theorem empty_list_hidden :
    let d := listDisk []
    let told := fun overrides => run (Disk.calls .sound) (dryRequest overrides) ⟨["m.json"]⟩ .none d
    (∃ doc, ModelFile.load ⟨["m.json"]⟩ (d.tree.look ⟨["m.json"]⟩) = .ok doc ∧
      settingsEntries? doc = none) ∧
    (∃ r log after, told [] = (.ok (r, log), after) ∧ r.ingestionErrors ≠ []) ∧
    ∃ r log after, told [("indent_size", .int 4)] = (.ok (r, log), after) ∧ r.success = true := by
  intro d told
  have hgiven : (ModelFile.load ⟨["m.json"]⟩ (d.tree.look ⟨["m.json"]⟩)).toOption.any (fun doc =>
      (settingsEntries? doc).isNone) = true := by decide +kernel
  obtain ⟨doc, hload, hdoc⟩ := exists_load_of_any hgiven
  have hrefused : ((told []).1.toOption.any fun both =>
      !both.1.ingestionErrors.isEmpty) = true := by
    decide +kernel
  have haccepted : ((told [("indent_size", .int 4)]).1.toOption.any fun both =>
      both.1.success) = true := by
    decide +kernel
  obtain ⟨⟨r, log⟩, htold, herrors⟩ := exists_of_any (run _ _ _ _) d hrefused
  obtain ⟨⟨r', log'⟩, htold', hsuccess⟩ := exists_of_any (run _ _ _ _) d haccepted
  refine ⟨⟨doc, hload, Option.isNone_iff_eq_none.mp hdoc⟩, ⟨r, log, _, htold, ?_⟩,
    r', log', _, htold', hsuccess⟩
  simpa using herrors

end Pipeline

end ModelSchemas
