import ModelSchemas.Proofs.Model.Acceptance
import ModelSchemas.Proofs.Model.Records

/-!
# Accepted entities

What the checks leave of an entity that they accept: the names of its fields are distinct, its index
holds exactly its fields, and none of its key groups is empty. Each entity of an accepted model has
been accepted on its own. The look-ups by name can then be read as questions about the declarations.
-/

namespace ModelSchemas

open Document

/-- An accepted group names fields. -/
theorem KeyGroup.fields_ne_nil_of_decode {model : String} {v : Value} {g : KeyGroup}
    (h : KeyGroup.decode model v = .accepted g) : g.fields ≠ [] := by
  cases v with
  | mapping entries =>
    obtain ⟨-, hfields⟩ := decode_eq_accepted.mp h
    exact Record.of_required (P := fun fields : List String => fields ≠ [])
      (fun _ _ => Decoder.ne_nil_of_nonEmptyList) hfields
  | _ => cases h

/-- Among items of distinct names, the search by name finds exactly the item of that name. -/
theorem find?_eq_some_of_nodup {α : Type} {nameOf : α → String} {items : List α}
    (hnodup : (items.map nameOf).Nodup) {name : String} {item : α} :
    (items.find? fun item => nameOf item = name) = some item ↔
      item ∈ items ∧ nameOf item = name := by
  constructor
  · intro h
    exact ⟨List.mem_of_find?_eq_some h, by simpa using List.find?_some h⟩
  · rintro ⟨hmem, hname⟩
    obtain ⟨found, hfound⟩ : ∃ found, (items.find? fun item => nameOf item = name) = some found :=
      Option.isSome_iff_exists.mp (List.find?_isSome.mpr ⟨item, hmem, by simp [hname]⟩)
    have hsame : nameOf found = name := by simpa using List.find?_some hfound
    have heq : found = item :=
      List.inj_on_of_nodup_map hnodup (List.mem_of_find?_eq_some hfound) hmem
        (hsame.trans hname.symm)
    rw [hfound, heq]

namespace Entity

/-- The names of the fields are distinct and the index is up to date. -/
structure IsIndexed (e : Entity) : Prop where
  fieldNames : (e.fields.map Field.name).Nodup
  fields : e.indexed = e.fields

/-- The check on the whole entity accepts it exactly if the names of its fields are distinct, and
then all it does is to bring the index up to date. -/
theorem reindex_eq_accepted {e e' : Entity} :
    e.reindex = .accepted e' ↔
      (e.fields.map Field.name).Nodup ∧ e' = { e with indexed := e.fields } := by
  unfold reindex
  rw [← Names.repeated_eq_nil]
  cases hnames : Names.repeated (e.fields.map Field.name) with
  | nil => simp [eq_comm]
  | cons name names => simp [Checked.reject]

theorem IsIndexed.of_reindex {e e' : Entity} (h : e.reindex = .accepted e') : e'.IsIndexed := by
  obtain ⟨hnodup, rfl⟩ := reindex_eq_accepted.mp h
  exact ⟨hnodup, rfl⟩

/-- A description is accepted exactly if its properties are, once the bare form of the unique groups
is adopted, and the names of the fields are distinct. -/
theorem decode_eq_accepted {entries : Entries} {e : Entity} :
    decode (.mapping entries) = .accepted e ↔
      ∃ (adopted : Entries) (read : Entity), adoptUniqueFields entries = .accepted adopted ∧
        read.IsReadFrom adopted ∧ (read.fields.map Field.name).Nodup ∧
        e = { read with indexed := read.fields } := by
  constructor
  · intro h
    obtain ⟨read, hproperties, hreindex⟩ := Checked.andThen_eq_accepted.mp h
    obtain ⟨adopted, hadopted, hread⟩ := Checked.andThen_eq_accepted.mp hproperties
    obtain ⟨hnodup, he⟩ := reindex_eq_accepted.mp hreindex
    exact ⟨adopted, read, hadopted, decodeProperties_eq_accepted.mp hread, hnodup, he⟩
  · rintro ⟨adopted, read, hadopted, hread, hnodup, he⟩
    have hproperties := decodeProperties_eq_accepted.mpr hread
    exact Checked.andThen_eq_accepted.mpr
      ⟨read, Checked.andThen_eq_accepted.mpr ⟨adopted, hadopted, hproperties⟩,
        reindex_eq_accepted.mpr ⟨hnodup, he⟩⟩

/-- Every accepted description gives an indexed entity. -/
theorem IsIndexed.of_decode {description : Value} {e : Entity}
    (h : Entity.decode description = .accepted e) : e.IsIndexed := by
  cases description with
  | mapping entries =>
    obtain ⟨adopted, read, -, -, hnodup, rfl⟩ := decode_eq_accepted.mp h
    exact ⟨hnodup, rfl⟩
  | _ => cases h

/-- The groups of fields that identify a row together: the unique groups, and the primary key. -/
def keyGroups (e : Entity) : List KeyGroup := e.uniqueIndexes ++ e.primaryKey.toList

/-- Every group of an entity that was read names fields. -/
theorem IsReadFrom.fields_ne_nil {entries : Entries} {e : Entity} (h : e.IsReadFrom entries) :
    ∀ g ∈ e.keyGroups, g.fields ≠ [] := by
  have hindexes : ∀ g ∈ e.uniqueIndexes, g.fields ≠ [] := by
    refine Record.of_withDefault (P := fun groups => ∀ g ∈ groups, KeyGroup.fields g ≠ [])
      (by simp) (fun v xs hxs g hg => ?_) h.uniqueIndexes
    obtain ⟨item, hitem⟩ := Decoder.exists_of_mem_list hxs hg
    exact KeyGroup.fields_ne_nil_of_decode hitem
  have hprimary : ∀ g, e.primaryKey = some g → g.fields ≠ [] := by
    refine Record.of_withDefault (P := fun primary => ∀ g, primary = some g → g.fields ≠ [])
      (by simp) (fun v x hx g hg => ?_) h.primaryKey
    subst hg
    exact KeyGroup.fields_ne_nil_of_decode (Decoder.eq_of_orNull hx)
  intro g hg
  rcases List.mem_append.mp hg with hg | hg
  · exact hindexes g hg
  · exact hprimary g (Option.mem_toList.mp hg)

/-- Every group of an accepted entity names fields. -/
theorem fields_ne_nil_of_mem_keyGroups {description : Value} {e : Entity}
    (h : Entity.decode description = .accepted e) : ∀ g ∈ e.keyGroups, g.fields ≠ [] := by
  cases description with
  | mapping entries =>
    obtain ⟨adopted, read, -, hread, -, rfl⟩ := decode_eq_accepted.mp h
    exact hread.fields_ne_nil
  | _ => cases h

end Entity

namespace DataModel

/-- The look-up of an entity finds exactly the declared ones. -/
theorem IsIndexed.getEntity_eq_some {m : DataModel} (hm : m.IsIndexed) {name : String}
    {e : Entity} : m.getEntity name = some e ↔ e ∈ m.entities ∧ e.name = name := by
  unfold getEntity
  rw [hm.entities]
  exact find?_eq_some_of_nodup hm.entityNames

theorem IsIndexed.getEntity_eq_none {m : DataModel} (hm : m.IsIndexed) {name : String}
    (h : name ∉ m.entityNames) : m.getEntity name = none := by
  rw [Option.eq_none_iff_forall_ne_some]
  intro e he
  obtain ⟨hmem, hname⟩ := hm.getEntity_eq_some.mp he
  exact h (hname ▸ List.mem_map_of_mem hmem)

/-- The entities of an accepted model are indexed. -/
theorem isIndexed_of_mem {description : Value} {m : DataModel}
    (h : DataModel.decode description = .accepted m) {e : Entity} (he : e ∈ m.entities) :
    e.IsIndexed := by
  cases description with
  | mapping entries =>
    obtain ⟨-, hentities, -⟩ := decode_eq_accepted.mp h
    refine Record.of_withDefault (P := fun entities => ∀ e ∈ entities, Entity.IsIndexed e)
      (by simp) (fun v xs hxs e he => ?_) hentities e he
    obtain ⟨item, hitem⟩ := Decoder.exists_of_mem_list hxs he
    exact .of_decode hitem
  | _ => cases h

end DataModel

end ModelSchemas
