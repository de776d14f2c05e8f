import ModelSchemas.Proofs.Model.AcceptedEntities
import ModelSchemas.Schema.Relation

/-!
# Relations that point back

A relation between two entities has two sides. The other side of a relation field is found among the
relation fields of its target: by the name of the relation where it has one, and else by the entity
that a field refers to. A name alone does not tell between which entities a relation holds, so that
a field that refers to a third entity is taken for the other side if it carries the same name.
-/

namespace ModelSchemas

namespace Schema

open Document

/-! ## Sides of a relation -/

/-- `other` is a relation field of the target that refers to the owner of `f`, is not `f` itself,
and carries the name of the relation if `f` has one. -/
structure IsOtherSide (owner target : Entity) (f other : Field) : Prop where
  mem : other ∈ target.relationFields
  refersToOwner : other.typeName = owner.name
  ne_self : target = owner → other ≠ f
  sameRelation : ∀ name, f.relationName = some name → other.relationName = some name

/-- `other` is a relation field of the target that carries the name of the relation of `f`, but
refers to another entity than the owner of `f`. -/
structure IsNamesake (owner target : Entity) (f other : Field) : Prop where
  mem : other ∈ target.relationFields
  refersElsewhere : other.typeName ≠ owner.name
  sameRelation : ∃ name, f.relationName = some name ∧ other.relationName = some name

theorem pointsBack_iff {owner : Entity} {f other : Field} :
    pointsBack owner f other ↔
      (∀ name, f.relationName = some name → other.relationName = some name) ∧
        (f.relationName = none → other.typeName = owner.name) := by
  unfold pointsBack
  cases f.relationName with
  | none => simp
  | some name => simp

/-! ## Selecting sides -/

/-- In a model with indexed entities, `f` is a relation field of the owner and refers to the
target. -/
structure Relates (m : DataModel) (owner target : Entity) (f : Field) : Prop where
  indexed : m.IsIndexed
  entities : ∀ e ∈ m.entities, e.IsIndexed
  owner_mem : owner ∈ m.entities
  field_mem : f ∈ owner.relationFields
  target_mem : target ∈ m.entities
  target_name : target.name = f.typeName

theorem eq_of_mem_relationFields {e : Entity} (he : e.IsIndexed) {f other : Field}
    (hf : f ∈ e.relationFields) (hother : other ∈ e.relationFields) (hname : other.name = f.name) :
    other = f :=
  List.inj_on_of_nodup_map he.fieldNames (List.mem_of_mem_filter hother)
    (List.mem_of_mem_filter hf) hname

namespace Relates

variable {m : DataModel} {owner target : Entity} {f other : Field}

/-- Whether a field is `f` can be told by its name and that of its entity. -/
theorem sameNames_iff (h : Relates m owner target f) (hother : other ∈ target.relationFields) :
    target.name = owner.name ∧ other.name = f.name ↔ target = owner ∧ other = f := by
  constructor
  · rintro ⟨htarget, hname⟩
    have heq : target = owner :=
      List.inj_on_of_nodup_map h.indexed.entityNames h.target_mem h.owner_mem htarget
    subst heq
    have hindexed := h.entities target h.target_mem
    exact ⟨rfl, eq_of_mem_relationFields hindexed h.field_mem hother hname⟩
  · rintro ⟨rfl, rfl⟩
    exact ⟨rfl, rfl⟩

/-- Of the relation fields of the target, the other sides and the namesakes are selected. -/
theorem selected_iff (h : Relates m owner target f) (hother : other ∈ target.relationFields) :
    (!(target.name = owner.name && other.name = f.name) && pointsBack owner f other) = true ↔
      IsOtherSide owner target f other ∨ IsNamesake owner target f other := by
  have hselected : (!(target.name = owner.name && other.name = f.name) &&
      pointsBack owner f other) = true ↔
        ¬(target = owner ∧ other = f) ∧ pointsBack owner f other := by
    rw [← h.sameNames_iff hother, Bool.and_eq_true, Bool.not_eq_true', ← Bool.not_eq_true,
      Bool.and_eq_true, decide_eq_true_iff, decide_eq_true_iff]
  rw [hselected, pointsBack_iff]
  constructor
  · rintro ⟨hne, hnamed, hunnamed⟩
    by_cases hrefers : other.typeName = owner.name
    · exact .inl ⟨hother, hrefers, fun heq hfield => hne ⟨heq, hfield⟩, hnamed⟩
    · -- it was not selected for what it refers to, so the relation has a name
      obtain ⟨name, hname⟩ := Option.ne_none_iff_exists'.mp fun hnone => hrefers (hunnamed hnone)
      exact .inr ⟨hother, hrefers, name, hname, hnamed name hname⟩
  · rintro (hside | ⟨-, helsewhere, name, hname, hothername⟩)
    · exact ⟨fun ⟨heq, hfield⟩ => hside.ne_self heq hfield, hside.sameRelation,
        fun _ => hside.refersToOwner⟩
    · refine ⟨?_, fun name' hname' => ?_, fun hnone => ?_⟩
      · rintro ⟨rfl, rfl⟩
        exact helsewhere h.target_name.symm
      · rw [hothername, ← hname', hname]
      · rw [hnone] at hname
        cases hname

theorem backRelations_eq (h : Relates m owner target f) :
    backRelations m owner f =
      (target.relationFields.filter fun other =>
        !(target.name = owner.name && other.name = f.name) && pointsBack owner f other).map
          Field.name := by
  rw [backRelations, h.indexed.getEntity_eq_some.mpr ⟨h.target_mem, h.target_name⟩]

theorem mem_backRelations (h : Relates m owner target f) {name : String} :
    name ∈ backRelations m owner f ↔
      ∃ other, other.name = name ∧
        (IsOtherSide owner target f other ∨ IsNamesake owner target f other) := by
  rw [h.backRelations_eq, List.mem_map]
  refine exists_congr fun other => ?_
  rw [List.mem_filter, and_comm]
  refine and_congr_right fun _ => ?_
  constructor
  · rintro ⟨hother, hselected⟩
    exact (h.selected_iff hother).mp hselected
  · intro hsides
    have hother : other ∈ target.relationFields := hsides.elim (·.mem) (·.mem)
    exact ⟨hother, (h.selected_iff hother).mpr hsides⟩

/-- The names are those of relation fields of the target, in order. -/
theorem sublist_backRelations (h : Relates m owner target f) :
    (backRelations m owner f).Sublist (target.relationFields.map Field.name) := by
  rw [h.backRelations_eq]
  exact List.filter_sublist.map Field.name

theorem nodup_backRelations (h : Relates m owner target f) : (backRelations m owner f).Nodup := by
  have hfields : (target.relationFields.map Field.name).Nodup :=
    (h.entities target h.target_mem).fieldNames.sublist (List.filter_sublist.map Field.name)
  exact hfields.sublist h.sublist_backRelations

/-- Only other sides are found exactly if no field of the target is a namesake. -/
theorem forall_mem_backRelations_iff (h : Relates m owner target f) :
    (∀ name ∈ backRelations m owner f, ∃ other, other.name = name ∧
        IsOtherSide owner target f other) ↔
      ∀ other, ¬IsNamesake owner target f other := by
  constructor
  · intro hsides other hnamesake
    obtain ⟨side, hname, hside⟩ :=
      hsides other.name (h.mem_backRelations.mpr ⟨other, rfl, .inr hnamesake⟩)
    have heq : side = other := eq_of_mem_relationFields (h.entities target h.target_mem)
      hnamesake.mem hside.mem hname
    exact hnamesake.refersElsewhere (heq ▸ hside.refersToOwner)
  · intro hnone name hname
    obtain ⟨other, hother, hside | hnamesake⟩ := h.mem_backRelations.mp hname
    · exact ⟨other, hother, hside⟩
    · exact absurd hnamesake (hnone other)

end Relates

/-- **Back relations.** The fields that are found for a relation field of an accepted model are
named in the order of declaration and once each. They are the other sides of the relation, and in
addition the fields of the target that carry its name and refer to a third entity; there are none of
these exactly if all that is found refers back to the owner. Nothing is found for a target that is
not declared. -/
theorem back_relations_are_sides {description : Value} {m : DataModel}
    (hm : DataModel.decode description = .accepted m) {owner : Entity} (howner : owner ∈ m.entities)
    {f : Field} (hf : f ∈ owner.relationFields) :
    (f.typeName ∉ m.entityNames → backRelations m owner f = []) ∧
    ∀ target ∈ m.entities, target.name = f.typeName →
      (backRelations m owner f).Sublist (target.relationFields.map Field.name) ∧
      (backRelations m owner f).Nodup ∧
      (∀ name, name ∈ backRelations m owner f ↔ ∃ other, other.name = name ∧
        (IsOtherSide owner target f other ∨ IsNamesake owner target f other)) ∧
      ((∀ name ∈ backRelations m owner f, ∃ other, other.name = name ∧
          IsOtherSide owner target f other) ↔
        ∀ other, ¬IsNamesake owner target f other) := by
  have hindexed := DataModel.IsIndexed.of_decode hm
  constructor
  · intro hnone
    rw [backRelations, hindexed.getEntity_eq_none hnone]
  · intro target htarget hname
    have h : Relates m owner target f :=
      ⟨hindexed, fun e he => DataModel.isIndexed_of_mem hm he, howner, hf, htarget, hname⟩
    exact ⟨h.sublist_backRelations, h.nodup_backRelations, fun _ => h.mem_backRelations,
      h.forall_mem_backRelations_iff⟩

/-! ## One name for two relations -/

namespace Press

/-- A field of the relation that all fields here belong to by name. -/
def relation (name type : String) (isList : Bool) : Field :=
  ⟨name, some .relation, type, isList, true, false, false, false, some "Writing", [], [], none⟩

def posts : Field := relation "posts" "Post" true

def author : Field := relation "author" "User" false

def user : Entity := Sample.entity "User" [posts]

def post : Entity := Sample.entity "Post" [author, relation "editor" "Editor" false]

def editor : Entity := Sample.entity "Editor" [posts]

/-- Users write posts and editors edit them, and both relations go by one name. -/
def model : DataModel := ⟨[], [user, post, editor], [user, post, editor], []⟩

/-- The description of such a field. -/
def describe (name type : String) (isList : Bool) : Value :=
  .mapping [("name", .str name), ("kind", .str "object"), ("type", .str type),
    ("isList", .bool isList), ("relationName", .str "Writing")]

/-- The model as it is described. -/
def description : Value :=
  .mapping [("models", .list [
    .mapping [("name", .str "User"), ("fields", .list [describe "posts" "Post" true])],
    .mapping [("name", .str "Post"), ("fields", .list [describe "author" "User" false,
      describe "editor" "Editor" false])],
    .mapping [("name", .str "Editor"), ("fields", .list [describe "posts" "Post" true])]])]

theorem decode_description : DataModel.decode description = .accepted model :=
  Checked.eq_accepted_of_value? (by decide +kernel)

/-- The author is found for the posts of a user. -/
theorem author_points_back :
    DataModel.decode description = .accepted model ∧ user ∈ model.entities ∧
      posts ∈ user.relationFields ∧ post ∈ model.entities ∧ post.name = posts.typeName ∧
      (backRelations model user posts).Nodup ∧ "author" ∈ backRelations model user posts := by
  have huser : user ∈ model.entities := by decide
  have hposts : posts ∈ user.relationFields := by decide
  have hpost : post ∈ model.entities := by decide
  obtain ⟨-, hnodup, hmem, -⟩ :=
    (back_relations_are_sides decode_description huser hposts).2 post hpost rfl
  have hside : IsOtherSide user post posts author :=
    ⟨by decide, rfl, by decide, fun name hname => hname⟩
  exact ⟨decode_description, huser, hposts, hpost, rfl, hnodup,
    (hmem "author").mpr ⟨author, rfl, .inl hside⟩⟩

/-- So is the editor, which does not refer to users at all. -/
theorem editor_taken_for_side :
    DataModel.decode description = .accepted model ∧ user ∈ model.entities ∧
      posts ∈ user.relationFields ∧ post ∈ model.entities ∧ post.name = posts.typeName ∧
      "editor" ∈ backRelations model user posts ∧
      ∀ other ∈ post.relationFields, other.name = "editor" → other.typeName ≠ user.name := by
  refine ⟨decode_description, ?_, ?_, ?_, rfl, ?_, ?_⟩
  · decide
  · decide
  · decide
  · decide
  · decide

end Press

end Schema

end ModelSchemas
