import ModelSchemas.Model.Assignment
import ModelSchemas.Proofs.Model.AcceptedEntities
import ModelSchemas.Proofs.Model.Rejection

/-!
# Look-ups under assignment

An entity looks its fields up in an index, and a data model its entities and enumerations. An
assignment may leave such an object with names that clash: then the assigned value stays, but the
indexes are those of the last accepted state, and every later assignment is reported as failed
until one repairs the names. Entities and data models are two instances of one argument.
-/

namespace ModelSchemas

open Document

/-! ## Objects under assignment -/

/-- A kind of object with items that are looked up by name: its checks, and the words for what they
do. -/
structure Indexing (α : Type) where
  /-- Checks a value for one attribute and puts it in its place. -/
  setAttribute : α → String → Value → Checked α
  /-- Checks the whole object and builds its indexes. -/
  reindex : α → Checked α
  /-- The attribute takes the value, and this is the object with the value in its place. -/
  Stores : α → String → Value → α → Prop
  /-- The objects are the same but for their indexes. -/
  SameAttributes : α → α → Prop
  SameIndexes : α → α → Prop
  /-- The names of the items are distinct. -/
  NamesDistinct : α → Prop
  /-- Every look-up gives the item of that name that the object holds, or nothing. -/
  LookUpsCurrent : α → Prop

/-- An object under assignment, as it is now and as it was when it was last accepted. -/
structure Tracked (α : Type) where
  now : α
  accepted : α

namespace Indexing

variable {α : Type} (k : Indexing α)

/-- One assignment. -/
def assign (a : α) (name : String) (v : Value) : Assigned α :=
  Assigned.run a (k.setAttribute a name v) k.reindex

/-! The three ways in which an assignment may go. -/

section Ways

variable {k} {a next indexed : α} {name : String} {v : Value} {issues : List Issue}

/-- The value is not taken. -/
theorem assign_of_rejected (h : k.setAttribute a name v = .rejected issues) :
    k.assign a name v = ⟨a, issues⟩ := by
  unfold assign Assigned.run
  rw [h]

/-- The value is stored and the object is accepted. -/
theorem assign_of_accepted (h : k.setAttribute a name v = .accepted next)
    (hreindex : k.reindex next = .accepted indexed) : k.assign a name v = ⟨indexed, []⟩ := by
  unfold assign Assigned.run
  rw [h]
  dsimp only
  rw [hreindex]

/-- The value is stored and the object is not accepted. -/
theorem assign_of_broken (h : k.setAttribute a name v = .accepted next)
    (hreindex : k.reindex next = .rejected issues) : k.assign a name v = ⟨next, issues⟩ := by
  unfold assign Assigned.run
  rw [h]
  dsimp only
  rw [hreindex]

end Ways

/-- The object after one more assignment, which was accepted if there are no issues. -/
def track (t : Tracked α) (assignment : String × Value) : Tracked α :=
  let result := k.assign t.now assignment.1 assignment.2
  ⟨result.after, if result.issues.isEmpty then result.after else t.accepted⟩

/-- An accepted object after some assignments. -/
def trackAll (start : α) (assignments : List (String × Value)) : Tracked α :=
  assignments.foldl k.track ⟨start, start⟩

/-- What one more assignment does to an object under assignment. -/
structure Follows (t : Tracked α) (name : String) (v : Value) (result : Assigned α) : Prop where
  /-- An unknown attribute, or a value that it does not take, changes nothing. -/
  rejected : (∀ next, ¬k.Stores t.now name v next) → result.after = t.now ∧ result.issues ≠ []
  /-- A value that is taken is stored. -/
  stored : ∀ next, k.Stores t.now name v next → k.SameAttributes result.after next
  /-- It is accepted exactly if the names are distinct then. -/
  accepted_iff : ∀ next, k.Stores t.now name v next →
    (result.issues = [] ↔ k.NamesDistinct result.after)
  /-- The indexes follow what is accepted. -/
  current : result.issues = [] → k.LookUpsCurrent result.after
  /-- They do not follow what is not. -/
  kept : result.issues ≠ [] → k.SameIndexes result.after t.accepted

/-- What the argument needs to know about the checks. -/
structure Lawful : Prop where
  stores_iff {a : α} {name : String} {v : Value} {next : α} :
    k.Stores a name v next ↔ k.setAttribute a name v = .accepted next
  explained_setAttribute (a : α) (name : String) (v : Value) :
    (k.setAttribute a name v).Explained
  explained_reindex (a : α) : (k.reindex a).Explained
  sameIndexes_of_setAttribute {a : α} {name : String} {v : Value} {next : α} :
    k.setAttribute a name v = .accepted next → k.SameIndexes next a
  isAccepted_reindex {a : α} : (∃ b, k.reindex a = .accepted b) ↔ k.NamesDistinct a
  of_reindex {a b : α} : k.reindex a = .accepted b →
    k.SameAttributes b a ∧ (k.NamesDistinct b ↔ k.NamesDistinct a) ∧ k.LookUpsCurrent b
  sameAttributes_refl (a : α) : k.SameAttributes a a
  sameIndexes_refl (a : α) : k.SameIndexes a a
  sameIndexes_trans {a b c : α} : k.SameIndexes a b → k.SameIndexes b c → k.SameIndexes a c

namespace Lawful

variable {k}

/-- One assignment to an object whose indexes are those of its last accepted state. -/
theorem follows (hk : k.Lawful) {t : Tracked α} (ht : k.SameIndexes t.now t.accepted)
    (name : String) (v : Value) : k.Follows t name v (k.assign t.now name v) := by
  cases hset : k.setAttribute t.now name v with
  | rejected issues =>
    have hne : issues ≠ [] := (hk.explained_setAttribute t.now name v).ne_nil hset
    have hnone : ∀ next, ¬k.Stores t.now name v next := by
      intro next hnext
      have haccepted := hk.stores_iff.mp hnext
      rw [hset] at haccepted
      cases haccepted
    rw [assign_of_rejected hset]
    exact {
      rejected := fun _ => ⟨rfl, hne⟩
      stored := fun next hnext => absurd hnext (hnone next)
      accepted_iff := fun next hnext => absurd hnext (hnone next)
      current := fun hnil => absurd hnil hne
      kept := fun _ => ht }
  | accepted stored =>
    have hstores : k.Stores t.now name v stored := hk.stores_iff.mpr hset
    have honly : ∀ next, k.Stores t.now name v next → next = stored := by
      intro next hnext
      have haccepted := hk.stores_iff.mp hnext
      rw [hset] at haccepted
      cases haccepted
      rfl
    cases hreindex : k.reindex stored with
    | accepted indexed =>
      obtain ⟨hsame, hnames, hcurrent⟩ := hk.of_reindex hreindex
      have hdistinct : k.NamesDistinct indexed :=
        hnames.mpr (hk.isAccepted_reindex.mp ⟨indexed, hreindex⟩)
      rw [assign_of_accepted hset hreindex]
      exact {
        rejected := fun hnone => absurd hstores (hnone stored)
        stored := fun next hnext => by rw [honly next hnext]; exact hsame
        accepted_iff := fun _ _ => iff_of_true rfl hdistinct
        current := fun _ => hcurrent
        kept := fun hne => absurd rfl hne }
    | rejected issues =>
      -- the object is left as it is stored: neither setting an attribute nor a failed check
      -- touches an index
      have hne : issues ≠ [] := (hk.explained_reindex stored).ne_nil hreindex
      have hclash : ¬k.NamesDistinct stored := by
        intro hdistinct
        obtain ⟨indexed, haccepted⟩ := hk.isAccepted_reindex.mpr hdistinct
        rw [hreindex] at haccepted
        cases haccepted
      rw [assign_of_broken hset hreindex]
      exact {
        rejected := fun hnone => absurd hstores (hnone stored)
        stored := fun next hnext => by rw [honly next hnext]; exact hk.sameAttributes_refl stored
        accepted_iff := fun _ _ => iff_of_false hne hclash
        current := fun hnil => absurd hnil hne
        kept := fun _ => hk.sameIndexes_trans (hk.sameIndexes_of_setAttribute hset) ht }

/-- An assignment leaves the indexes of the last accepted state. -/
theorem sameIndexes_track (hk : k.Lawful) {t : Tracked α} (ht : k.SameIndexes t.now t.accepted)
    (assignment : String × Value) :
    k.SameIndexes (k.track t assignment).now (k.track t assignment).accepted := by
  have hfollows := hk.follows ht assignment.1 assignment.2
  unfold track
  by_cases hnil : (k.assign t.now assignment.1 assignment.2).issues = []
  · simp only [hnil, List.isEmpty_nil, if_true]
    exact hk.sameIndexes_refl _
  · have hempty : (k.assign t.now assignment.1 assignment.2).issues.isEmpty = false := by
      simpa using hnil
    simp only [hempty, Bool.false_eq_true, if_false]
    exact hfollows.kept hnil

/-- So do any number of assignments. -/
theorem sameIndexes_trackAll (hk : k.Lawful) (start : α) (assignments : List (String × Value)) :
    k.SameIndexes (k.trackAll start assignments).now (k.trackAll start assignments).accepted := by
  unfold trackAll
  have hstart : k.SameIndexes (Tracked.mk start start).now (Tracked.mk start start).accepted :=
    hk.sameIndexes_refl start
  generalize Tracked.mk start start = t at hstart ⊢
  induction assignments generalizing t with
  | nil => exact hstart
  | cons assignment rest ih => exact ih _ (hk.sameIndexes_track hstart assignment)

end Lawful

end Indexing

/-! ## Entities -/

namespace Entity

/-- The attributes of an entity, each with the values that it takes. -/
inductive Stores (e : Entity) : String → Value → Entity → Prop where
  | name {v : Value} {x : String} (taken : Decoder.nonEmptyString v = .accepted x) :
    Stores e "name" v { e with name := x }
  | fields {v : Value} {x : List Field} (taken : Decoder.list Field.decode v = .accepted x) :
    Stores e "fields" v { e with fields := x }
  | primaryKey {v : Value} {x : Option KeyGroup}
      (taken : Decoder.orNull KeyGroup.decodePrimaryKey v = .accepted x) :
    Stores e "primary_key" v { e with primaryKey := x }
  | uniqueIndexes {v : Value} {x : List KeyGroup}
      (taken : Decoder.list KeyGroup.decodeUniqueIndex v = .accepted x) :
    Stores e "unique_indexes" v { e with uniqueIndexes := x }
  | documentation {v : Value} {x : Option String}
      (taken : Decoder.orNull Decoder.string v = .accepted x) :
    Stores e "documentation" v { e with documentation := x }

/-- The entity as a kind of object with items that are looked up by name. -/
def indexing : Indexing Entity where
  setAttribute := setAttribute
  reindex := reindex
  Stores := Stores
  SameAttributes e e' := { e with indexed := e'.indexed } = e'
  SameIndexes e e' := e.indexed = e'.indexed
  NamesDistinct e := (e.fields.map Field.name).Nodup
  LookUpsCurrent e := ∀ name f, e.getField name = some f ↔ f ∈ e.fields ∧ f.name = name

theorem stores_iff {e : Entity} {name : String} {v : Value} {next : Entity} :
    e.Stores name v next ↔ e.setAttribute name v = .accepted next := by
  constructor
  · rintro (h | h | h | h | h) <;> simp [setAttribute, h, Checked.map, Checked.under]
  · intro h
    unfold setAttribute at h
    dsimp only at h
    split at h
    · obtain ⟨x, taken, rfl⟩ := Checked.map_eq_accepted (Checked.under_eq_accepted h)
      exact .name taken
    · obtain ⟨x, taken, rfl⟩ := Checked.map_eq_accepted (Checked.under_eq_accepted h)
      exact .fields taken
    · obtain ⟨x, taken, rfl⟩ := Checked.map_eq_accepted (Checked.under_eq_accepted h)
      exact .primaryKey taken
    · obtain ⟨x, taken, rfl⟩ := Checked.map_eq_accepted (Checked.under_eq_accepted h)
      exact .uniqueIndexes taken
    · obtain ⟨x, taken, rfl⟩ := Checked.map_eq_accepted (Checked.under_eq_accepted h)
      exact .documentation taken
    · cases h

theorem IsIndexed.lookUpsCurrent {e : Entity} (he : e.IsIndexed) : indexing.LookUpsCurrent e := by
  intro name f
  unfold getField
  rw [he.fields]
  exact find?_eq_some_of_nodup he.fieldNames

theorem isAccepted_reindex {e : Entity} :
    (∃ e', e.reindex = .accepted e') ↔ indexing.NamesDistinct e := by
  constructor
  · rintro ⟨e', h⟩
    exact (reindex_eq_accepted.mp h).1
  · exact fun h => ⟨_, reindex_eq_accepted.mpr ⟨h, rfl⟩⟩

theorem lawful_indexing : indexing.Lawful where
  stores_iff := stores_iff
  explained_setAttribute := explained_setAttribute
  explained_reindex := explained_reindex
  sameIndexes_of_setAttribute h := by cases stores_iff.mpr h <;> rfl
  isAccepted_reindex := isAccepted_reindex
  of_reindex h := by
    have hcurrent := (IsIndexed.of_reindex h).lookUpsCurrent
    obtain ⟨-, rfl⟩ := reindex_eq_accepted.mp h
    exact ⟨rfl, Iff.rfl, hcurrent⟩
  sameAttributes_refl _ := rfl
  sameIndexes_refl _ := rfl
  sameIndexes_trans h h' := h.trans h'

end Entity

/-! ## Data models -/

namespace DataModel

/-- The attributes of a data model, each with the values that it takes. -/
inductive Stores (m : DataModel) : String → Value → DataModel → Prop where
  | enums {v : Value} {x : List Enumeration}
      (taken : Decoder.list Enumeration.decode v = .accepted x) :
    Stores m "enums" v { m with enums := x }
  | entities {v : Value} {x : List Entity} (taken : Decoder.list Entity.decode v = .accepted x) :
    Stores m "entities" v { m with entities := x }

/-- The data model as a kind of object with items that are looked up by name. There are two kinds of
items, each with names of its own. -/
def indexing : Indexing DataModel where
  setAttribute := setAttribute
  reindex := reindex
  Stores := Stores
  SameAttributes m m' :=
    { m with indexedEntities := m'.indexedEntities, indexedEnums := m'.indexedEnums } = m'
  SameIndexes m m' := m.indexedEntities = m'.indexedEntities ∧ m.indexedEnums = m'.indexedEnums
  NamesDistinct m := m.entityNames.Nodup ∧ (m.enums.map Enumeration.name).Nodup
  LookUpsCurrent m :=
    (∀ name e, m.getEntity name = some e ↔ e ∈ m.entities ∧ e.name = name) ∧
      ∀ name values, m.enumValues name = some values ↔ ⟨name, values⟩ ∈ m.enums

theorem stores_iff {m : DataModel} {name : String} {v : Value} {next : DataModel} :
    m.Stores name v next ↔ m.setAttribute name v = .accepted next := by
  constructor
  · rintro (h | h) <;> simp [setAttribute, h, Checked.map, Checked.under]
  · intro h
    unfold setAttribute at h
    split at h
    · obtain ⟨x, taken, rfl⟩ := Checked.map_eq_accepted (Checked.under_eq_accepted h)
      exact .enums taken
    · obtain ⟨x, taken, rfl⟩ := Checked.map_eq_accepted (Checked.under_eq_accepted h)
      exact .entities taken
    · cases h

theorem IsIndexed.lookUpsCurrent {m : DataModel} (hm : m.IsIndexed) : indexing.LookUpsCurrent m :=
  ⟨fun _ _ => hm.getEntity_eq_some, fun _ _ => hm.enumValues_eq_some⟩

theorem isAccepted_reindex {m : DataModel} :
    (∃ m', m.reindex = .accepted m') ↔ indexing.NamesDistinct m := by
  constructor
  · rintro ⟨m', h⟩
    obtain ⟨hentities, henums, -⟩ := reindex_eq_accepted.mp h
    exact ⟨hentities, henums⟩
  · rintro ⟨hentities, henums⟩
    exact ⟨_, reindex_eq_accepted.mpr ⟨hentities, henums, rfl⟩⟩

theorem lawful_indexing : indexing.Lawful where
  stores_iff := stores_iff
  explained_setAttribute := explained_setAttribute
  explained_reindex := explained_reindex
  sameIndexes_of_setAttribute h := by cases stores_iff.mpr h <;> exact ⟨rfl, rfl⟩
  isAccepted_reindex := isAccepted_reindex
  of_reindex h := by
    have hcurrent := (IsIndexed.of_reindex h).lookUpsCurrent
    obtain ⟨-, -, rfl⟩ := reindex_eq_accepted.mp h
    exact ⟨rfl, Iff.rfl, hcurrent⟩
  sameAttributes_refl _ := rfl
  sameIndexes_refl _ := ⟨rfl, rfl⟩
  sameIndexes_trans h h' := ⟨h.1.trans h'.1, h.2.trans h'.2⟩

end DataModel

/-! ## Both kinds -/

/-- **Look-ups under assignment.** An accepted entity or data model has distinct names and current
look-ups, and each step of any sequence of assignments to it goes as `Indexing.Follows` says: a
value that is not taken changes nothing; any other is stored, which is accepted exactly if the names
are distinct then; the look-ups are current after every accepted step and the indexes are those of
the last accepted state after every other one. Once its properties are valid, a description is
accepted exactly if the names in it are distinct. -/
theorem lookups_follow_assignments :
    (∀ description e₀, Entity.decode description = .accepted e₀ →
      Entity.indexing.NamesDistinct e₀ ∧ Entity.indexing.LookUpsCurrent e₀ ∧
      ∀ assignments name v,
        let t := Entity.indexing.trackAll e₀ assignments
        Entity.indexing.Follows t name v (Entity.indexing.assign t.now name v)) ∧
    (∀ description m₀, DataModel.decode description = .accepted m₀ →
      DataModel.indexing.NamesDistinct m₀ ∧ DataModel.indexing.LookUpsCurrent m₀ ∧
      ∀ assignments name v,
        let t := DataModel.indexing.trackAll m₀ assignments
        DataModel.indexing.Follows t name v (DataModel.indexing.assign t.now name v)) ∧
    (∀ entries e,
      (Entity.adoptUniqueFields entries).andThen Entity.decodeProperties = .accepted e →
      ((∃ e', Entity.decode (.mapping entries) = .accepted e') ↔
        Entity.indexing.NamesDistinct e)) ∧
    (∀ entries enums entities,
      Record.withDefault entries ["enums"] [] (Decoder.list Enumeration.decode) =
        .accepted enums →
      Record.withDefault entries ["models", "entities"] [] (Decoder.list Entity.decode) =
        .accepted entities →
      ((∃ m', DataModel.decode (.mapping entries) = .accepted m') ↔
        DataModel.indexing.NamesDistinct ⟨enums, entities, [], []⟩)) := by
  refine ⟨?_, ?_, ?_, ?_⟩
  · intro description e₀ accepted
    have hindexed := Entity.IsIndexed.of_decode accepted
    refine ⟨hindexed.fieldNames, hindexed.lookUpsCurrent, fun assignments name v => ?_⟩
    exact Entity.lawful_indexing.follows
      (Entity.lawful_indexing.sameIndexes_trackAll e₀ assignments) name v
  · intro description m₀ accepted
    have hindexed := DataModel.IsIndexed.of_decode accepted
    refine ⟨⟨hindexed.entityNames, hindexed.enumNames⟩, hindexed.lookUpsCurrent,
      fun assignments name v => ?_⟩
    exact DataModel.lawful_indexing.follows
      (DataModel.lawful_indexing.sameIndexes_trackAll m₀ assignments) name v
  · intro entries e properties
    rw [← Entity.isAccepted_reindex]
    show (∃ e', Checked.andThen _ Entity.reindex = .accepted e') ↔ _
    rw [properties]
    rfl
  · intro entries enums entities henums hentities
    rw [← DataModel.isAccepted_reindex]
    show (∃ m', (Checked.and _ _ _).andThen DataModel.reindex = .accepted m') ↔ _
    rw [henums, hentities]
    rfl

/-- A post refuses a null name. Once the names of its fields clash, a new name is stored but not
accepted, and the look-ups are the old ones. A forum that has refused null entities takes new
enumerations, and its look-ups follow. -/
theorem clash_outlasts_assignment :
    let title := Sample.fieldDescription "title" "scalar" "String" false
    let t := Entity.indexing.trackAll Sample.post
      [("name", .null), ("fields", .list [title, title])]
    let refused := Entity.indexing.assign t.now "name" .null
    let renamed := Entity.indexing.assign t.now "name" (.str "Note")
    let forum := DataModel.indexing.trackAll Sample.forum [("entities", .null)]
    let emptied := DataModel.indexing.assign forum.now "enums" (.list [])
    (refused.after = t.now ∧ refused.issues ≠ []) ∧
      (renamed.after.name = "Note" ∧ renamed.issues ≠ [] ∧
        renamed.after.indexed = Sample.post.indexed) ∧
      emptied.issues = [] ∧ ∀ name values, emptied.after.enumValues name ≠ some values := by
  intro title t refused renamed forum emptied
  obtain ⟨hentity, hmodel, -, -⟩ := lookups_follow_assignments
  obtain ⟨-, -, hpost⟩ := hentity _ _ Sample.decode_postDescription
  obtain ⟨-, -, hforum⟩ := hmodel _ _ Sample.decode_description
  have hrefused : Entity.indexing.Follows t "name" .null refused := hpost _ _ _
  have hrenamed : Entity.indexing.Follows t "name" (.str "Note") renamed := hpost _ _ _
  have hemptied : DataModel.indexing.Follows forum "enums" (.list []) emptied := hforum _ _ _
  refine ⟨?_, ?_, ?_⟩
  · refine hrefused.rejected fun next hnext => ?_
    exact nomatch Entity.stores_iff.mp hnext
  · have hstores : Entity.indexing.Stores t.now "name" (.str "Note")
        { t.now with name := "Note" } := .name rfl
    have hsame : { renamed.after with indexed := t.now.indexed } = { t.now with name := "Note" } :=
      hrenamed.stored _ hstores
    obtain ⟨hname, hfields, -⟩ := Entity.mk.inj hsame
    have hfields : renamed.after.fields = t.now.fields := hfields
    have hclash : ¬Entity.indexing.NamesDistinct renamed.after := by
      show ¬(renamed.after.fields.map Field.name).Nodup
      rw [hfields]
      decide +kernel
    have hissues : renamed.issues ≠ [] := mt (hrenamed.accepted_iff _ hstores).mp hclash
    have haccepted : t.accepted.indexed = Sample.post.indexed := by decide +kernel
    exact ⟨hname, hissues, (hrenamed.kept hissues).trans haccepted⟩
  · have hstores : DataModel.indexing.Stores forum.now "enums" (.list [])
        { forum.now with enums := [] } := .enums rfl
    have hsame : { emptied.after with
        indexedEntities := forum.now.indexedEntities, indexedEnums := forum.now.indexedEnums } =
          { forum.now with enums := [] } := hemptied.stored _ hstores
    obtain ⟨henums, -⟩ := DataModel.mk.inj hsame
    have henums : emptied.after.enums = [] := henums
    have hdistinct : DataModel.indexing.NamesDistinct emptied.after := by
      refine ⟨?_, ?_⟩
      · decide +kernel
      · rw [henums]
        exact List.nodup_nil
    have hissues : emptied.issues = [] := (hemptied.accepted_iff _ hstores).mpr hdistinct
    obtain ⟨-, hvalues⟩ := hemptied.current hissues
    refine ⟨hissues, fun name values hfound => ?_⟩
    have hmem := (hvalues name values).mp hfound
    rw [henums] at hmem
    exact List.not_mem_nil hmem

end ModelSchemas
