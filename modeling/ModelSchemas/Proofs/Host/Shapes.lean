import Mathlib.Data.List.Find
import ModelSchemas.Proofs.Host.Overriding

/-!
# Shapes of documents

A document may hold its model under a key of its own, or be its own model; the settings stand beside
it in either case. The shape says nothing: documents that hold the same model and the same settings
are read alike, down to the issues of one that is not accepted. The entities of a model may also
stand under the word for models.
-/

namespace ModelSchemas

open Document

namespace Document.Entries

theorem has_eq_false_iff {entries : Entries} {key : String} :
    entries.has key = false ↔ entries.get? key = none := by
  rw [has_eq_isSome, Option.isSome_eq_false_iff, Option.isNone_iff_eq_none]

/-- The entries with those under `old` put under `new`, each at its place. -/
def rename (entries : Entries) (old new : String) : Entries :=
  entries.map fun e => (if e.1 = old then new else e.1, e.2)

theorem get?_rename {entries : Entries} {old new : String} (hnew : entries.get? new = none)
    (key : String) :
    get? (entries.rename old new) key =
      if key = new then entries.get? old else if key = old then none else entries.get? key := by
  induction entries with
  | nil => simp [rename]
  | cons e rest ih =>
    obtain ⟨k, v⟩ := e
    rw [get?_cons] at hnew
    split_ifs at hnew with hk
    have hrename : rename ((k, v) :: rest) old new =
        (if k = old then new else k, v) :: rename rest old new := rfl
    rw [hrename, get?_cons, ih hnew, get?_cons, get?_cons]
    by_cases hold : k = old
    · subst hold
      by_cases hkey : key = new
      · simp [hkey]
      · by_cases hfirst : key = k
        · subst hfirst
          simp [hkey]
        · simp [hkey, hfirst]
    · have hold' : old ≠ k := Ne.symm hold
      by_cases hfirst : key = k
      · subst hfirst
        simp [hold, Ne.symm hk]
      · simp [hold, hold', hfirst]

end Document.Entries

namespace Ingestion

/-! ## Shapes -/

/-- A mapping that is a model wherever it stands: it holds a part of a model, and nothing that a
document holds beside its model. -/
structure IsEmbeddable (model : Entries) : Prop where
  hasPart : partKeys.any model.has = true
  free : ∀ key ∈ modelKeys ++ settingsKeys, model.has key = false

/-- The document holds this model and these settings. What it holds under keys that do not count is
left open, and so is the order of its keys. -/
inductive Holds (model : Entries) (settings : Value) (doc : Entries) : Prop where
  /-- The model stands under a key of its own. -/
  | nested {key settingsKey : String} (hkey : key ∈ modelKeys)
      (hsettings : settingsKey ∈ settingsKeys)
      (h : doc.AgreeOn (modelKeys ++ settingsKeys)
        [(key, .mapping model), (settingsKey, settings)])
  /-- The document is its own model. -/
  | flat {settingsKey : String} (hsettings : settingsKey ∈ settingsKeys)
      (h : doc.AgreeOn (modelKeys ++ partKeys ++ settingsKeys) (model.set settingsKey settings))

/-! ## Reading a shape -/

/-- The checked model of a mapping. -/
def readPart (model : Entries) : Except IngestionFault DataModel :=
  match DataModel.decode (.mapping (withModelsKey model)) with
  | .rejected issues => .error (.invalidModel issues)
  | .accepted model => .ok model

theorem readModel_of_findModel {doc model : Entries} (h : findModel doc = .ok model) :
    readModel doc = readPart model := by
  rw [readModel, h]
  rfl

/-- The settings stand under the only settings key that is present. -/
theorem settingsValue?_eq_some {doc : Entries} {settingsKey : String} {settings : Value}
    (hsettings : settingsKey ∈ settingsKeys)
    (h : ∀ key ∈ settingsKeys, doc.get? key = if key = settingsKey then some settings else none) :
    settingsValue? doc = some settings := by
  have hhas : ∀ key ∈ settingsKeys, doc.has key = decide (key = settingsKey) := by
    intro key hkey
    rw [Entries.has_eq_isSome, h key hkey]
    by_cases heq : key = settingsKey
    · simp [heq]
    · simp [heq]
  have honly : ∀ own ∈ settingsKeys,
      settingsKeys.find? (fun key => decide (key = own)) = some own := by decide
  have hfind : settingsKey? doc = some settingsKey :=
    (List.find?_congr hhas).trans (honly settingsKey hsettings)
  rw [settingsValue?, hfind, Option.bind_some, h settingsKey hsettings, if_pos rfl]

/-- A mapping that is a model is one at the top of a document. -/
theorem IsEmbeddable.findModel_eq {model : Entries} (h : IsEmbeddable model) :
    findModel model = .ok model := by
  have habsent : ∀ key ∈ modelKeys, model.get? key = none := fun key hkey =>
    Entries.has_eq_false_iff.mp (h.free key (List.mem_append_left _ hkey))
  have hnone : (modelKeys.findSome? fun key => (model.get? key).map (key, ·)) = none := by
    rw [List.findSome?_eq_none_iff]
    intro key hkey
    rw [habsent key hkey, Option.map_none]
  rw [findModel, hnone]
  exact if_pos h.hasPart

variable {model doc : Entries} {settings : Value}

namespace Holds

/-- A document gives out the model that it holds. -/
theorem readModel_eq (hmodel : IsEmbeddable model) (h : Holds model settings doc) :
    readModel doc = readPart model := by
  cases h with
  | @nested key settingsKey hkey hsettings h =>
    refine readModel_of_findModel ?_
    have hne : ∀ own ∈ settingsKeys, "datamodel" ≠ own ∧ "model" ≠ own := by decide
    obtain ⟨hdatamodel, hword⟩ := hne settingsKey hsettings
    have hfound : Record.find? doc modelKeys = some (key, .mapping model) := by
      rw [Record.find?_congr (h.subset (List.subset_append_left _ _))]
      simp only [modelKeys, List.mem_cons, List.not_mem_nil, or_false] at hkey
      rcases hkey with rfl | rfl
      · simp [Record.find?, modelKeys, Entries.get?_cons]
      · simp [Record.find?, modelKeys, Entries.get?_cons, hdatamodel]
    rw [Record.find?] at hfound
    rw [findModel, hfound]
  | @flat settingsKey hsettings h =>
    have hne : ∀ own ∈ settingsKeys, ∀ key ∈ modelKeys ++ partKeys, key ≠ own := by decide
    have hagree : doc.AgreeOn (modelKeys ++ partKeys) model := by
      intro key hkey
      rw [h key (List.mem_append_left _ hkey), Entries.get?_set,
        if_neg (hne settingsKey hsettings key hkey)]
    rw [readModel_congr hagree, readModel_of_findModel hmodel.findModel_eq]

/-- A document gives out the settings that it holds. -/
theorem settingsValue?_eq (hmodel : IsEmbeddable model) (h : Holds model settings doc) :
    settingsValue? doc = some settings := by
  cases h with
  | nested hkey hsettings h =>
    refine settingsValue?_eq_some hsettings fun other hother => ?_
    have hne : ∀ key ∈ modelKeys, ∀ other ∈ settingsKeys, other ≠ key := by decide
    rw [h other (List.mem_append_right _ hother), Entries.get?_cons, if_neg (hne _ hkey _ hother),
      Entries.get?_cons, Entries.get?_nil]
  | flat hsettings h =>
    refine settingsValue?_eq_some hsettings fun other hother => ?_
    have hfree := hmodel.free other (List.mem_append_right _ hother)
    rw [h other (List.mem_append_right _ hother), Entries.get?_set,
      Entries.has_eq_false_iff.mp hfree]

/-- A key that does not count may be set to anything. -/
theorem set (h : Holds model settings doc) {key : String}
    (hkey : key ∉ modelKeys ++ partKeys ++ settingsKeys) (value : Value) :
    Holds model settings (doc.set key value) := by
  have hset : ∀ other ∈ modelKeys ++ partKeys ++ settingsKeys,
      (doc.set key value).get? other = doc.get? other := by
    intro other hother
    rw [Entries.get?_set, if_neg]
    rintro rfl
    exact hkey hother
  cases h with
  | nested hmodelKey hsettings h =>
    refine .nested hmodelKey hsettings fun other hother => ?_
    have hsub : modelKeys ++ settingsKeys ⊆ modelKeys ++ partKeys ++ settingsKeys := by decide
    rw [hset other (hsub hother), h other hother]
  | flat hsettings h =>
    refine .flat hsettings fun other hother => ?_
    rw [hset other hother, h other hother]

end Holds

/-! ## Renaming -/

section

variable (hmodels : model.get? "models" = none)

include hmodels

/-- The entities are put under the word for models before the model is checked. -/
theorem withModelsKey_rename :
    withModelsKey (model.rename "entities" "models") = model.rename "entities" "models" := by
  have hentities : (model.rename "entities" "models").get? "entities" = none := by
    rw [Entries.get?_rename hmodels, if_neg (by decide), if_pos rfl]
  rw [withModelsKey, hentities]

theorem get?_withModelsKey (key : String) :
    (withModelsKey model).get? key = (model.rename "entities" "models").get? key := by
  have hhas : model.has "models" = false := by
    rw [Entries.has_eq_isSome, hmodels, Option.isSome_none]
  rw [Entries.get?_rename hmodels, withModelsKey, hhas]
  cases hentities : model.get? "entities" with
  | none =>
    dsimp only
    split_ifs with hkey hkey'
    · rw [hkey, hmodels]
    · rw [hkey', hentities]
    · rfl
  | some entities =>
    dsimp only
    rw [if_neg Bool.false_ne_true, Entries.get?_set, Entries.get?_erase]

theorem readPart_rename : readPart (model.rename "entities" "models") = readPart model := by
  rw [readPart, readPart, withModelsKey_rename hmodels]
  rw [DataModel.decode_congr fun key _ => (get?_withModelsKey hmodels key).symm]

theorem IsEmbeddable.rename (h : IsEmbeddable model) :
    IsEmbeddable (model.rename "entities" "models") where
  hasPart := by
    obtain ⟨key, hkey, hhas⟩ := List.any_eq_true.mp h.hasPart
    rw [Entries.has_eq_isSome] at hhas
    refine List.any_eq_true.mpr ?_
    by_cases hentities : key = "entities"
    · refine ⟨"models", by decide, ?_⟩
      rw [Entries.has_eq_isSome, Entries.get?_rename hmodels, if_pos rfl, ← hentities, hhas]
    · refine ⟨key, hkey, ?_⟩
      have hkey' : key ≠ "models" := by
        rintro rfl
        rw [hmodels] at hhas
        cases hhas
      rw [Entries.has_eq_isSome, Entries.get?_rename hmodels, if_neg hkey', if_neg hentities, hhas]
  free := by
    intro key hkey
    have hne : ∀ key ∈ modelKeys ++ settingsKeys, key ≠ "models" ∧ key ≠ "entities" := by decide
    obtain ⟨hkey₁, hkey₂⟩ := hne key hkey
    rw [Entries.has_eq_false_iff, Entries.get?_rename hmodels, if_neg hkey₁, if_neg hkey₂,
      ← Entries.has_eq_false_iff, h.free key hkey]

end

/-! ## Reading alike -/

theorem run_congr {doc other : Entries} (hmodel : readModel doc = readModel other)
    (hsettings : settingsValue? doc = settingsValue? other) : run doc = run other := by
  rw [run_eq, run_eq, hmodel, findSettings?_eq, findSettings?_eq, hsettings]

/-- **Shapes.** All documents that hold a model and settings are read alike, whether the model
stands under a key of its own or is the document, whichever key the settings stand under, and
whatever stands under keys that do not count: they give the same model and settings, or the same
fault with the same issues. So do the documents that hold the model with its entities put under the
word for models, if it did not use this word. -/
theorem shapes_read_alike (hmodel : IsEmbeddable model) (h : Holds model settings doc) :
    (∀ other, Holds model settings other → run other = run doc) ∧
    (model.get? "models" = none →
      ∀ other, Holds (model.rename "entities" "models") settings other → run other = run doc) := by
  constructor
  · intro other hother
    refine run_congr ?_ ?_
    · rw [hother.readModel_eq hmodel, h.readModel_eq hmodel]
    · rw [hother.settingsValue?_eq hmodel, h.settingsValue?_eq hmodel]
  · intro hmodels other hother
    have hrenamed := hmodel.rename hmodels
    refine run_congr ?_ ?_
    · rw [hother.readModel_eq hrenamed, h.readModel_eq hmodel, readPart_rename hmodels]
    · rw [hother.settingsValue?_eq hrenamed, h.settingsValue?_eq hmodel]

/-- A model that calls its entities by that word, and has a key that does not count. -/
def plainModel : Entries :=
  [("entities", .list [.mapping [("name", .str "User")]]), ("enums", .list []), ("version", .int 2)]

/-- Settings that are not accepted. -/
def wideSettings : Value := .mapping [("indent_size", .int 9)]

/-- All shapes of the plain model end with the same fault. -/
theorem plain_model_read_alike :
    let nested : Entries := [("model", .mapping plainModel), ("generator", wideSettings)]
    let flat : Entries := plainModel.set "config" wideSettings
    let renamed : Entries := [("datamodel", .mapping (plainModel.rename "entities" "models")),
      ("generator_config", wideSettings)]
    IsEmbeddable plainModel ∧ Holds plainModel wideSettings nested ∧
      plainModel.get? "models" = none ∧
      run (flat.set "comment" .null) = run nested ∧ run renamed = run nested := by
  intro nested flat renamed
  have hmodel : IsEmbeddable plainModel := ⟨by decide, by decide⟩
  have hmodels : plainModel.get? "models" = none := Entries.has_eq_false_iff.mp (by decide)
  have hnested : Holds plainModel wideSettings nested :=
    .nested (by decide) (by decide) fun _ _ => rfl
  have hflat : Holds plainModel wideSettings flat := .flat (by decide) fun _ _ => rfl
  have hrenamed : Holds (plainModel.rename "entities" "models") wideSettings renamed :=
    .nested (by decide) (by decide) fun _ _ => rfl
  obtain ⟨hshapes, hrename⟩ := shapes_read_alike hmodel hnested
  exact ⟨hmodel, hnested, hmodels, hshapes _ (hflat.set (by decide) .null),
    hrename hmodels renamed hrenamed⟩

end Ingestion

end ModelSchemas
