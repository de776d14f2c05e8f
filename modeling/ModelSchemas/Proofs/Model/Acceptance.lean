import Mathlib.Data.List.Nodup
import ModelSchemas.Model.DataModel
import ModelSchemas.Proofs.Validation.Accepted

/-!
# Accepted data models

What the checks on a description leave of a data model that they accept: its names are distinct,
and its indexes hold exactly what it declares. The look-ups of an accepted model can then be read
as questions about its declarations.
-/

namespace ModelSchemas

open Document

namespace DataModel

/-- The check on the whole model accepts it exactly if the names of its entities are distinct, and
those of its enumerations, and then all it does is to bring the indexes up to date. -/
theorem reindex_eq_accepted {m m' : DataModel} :
    m.reindex = .accepted m' ↔
      m.entityNames.Nodup ∧ (m.enums.map Enumeration.name).Nodup ∧
        m' = { m with indexedEntities := m.entities, indexedEnums := m.enums } := by
  unfold reindex
  rw [← Names.repeated_eq_nil, ← Names.repeated_eq_nil]
  split
  · rename_i name names hentities
    simp [hentities, Checked.reject]
  · rename_i hentities
    split
    · rename_i name names henums
      simp [henums, Checked.reject]
    · rename_i henums
      simp [hentities, henums, eq_comm]

/-- The names of the declarations are distinct and the indexes are up to date. -/
structure IsIndexed (m : DataModel) : Prop where
  entityNames : m.entityNames.Nodup
  enumNames : (m.enums.map Enumeration.name).Nodup
  entities : m.indexedEntities = m.entities
  enums : m.indexedEnums = m.enums

theorem IsIndexed.of_reindex {m m' : DataModel} (h : m.reindex = .accepted m') : m'.IsIndexed := by
  obtain ⟨hentities, henums, rfl⟩ := reindex_eq_accepted.mp h
  exact ⟨hentities, henums, rfl, rfl⟩

/-- A description is accepted exactly if each declaration is and their names are distinct. -/
theorem decode_eq_accepted {entries : Entries} {m : DataModel} :
    decode (.mapping entries) = .accepted m ↔
      Record.withDefault entries ["enums"] [] (Decoder.list Enumeration.decode) =
          .accepted m.enums ∧
        Record.withDefault entries ["models", "entities"] [] (Decoder.list Entity.decode) =
          .accepted m.entities ∧
        m.IsIndexed := by
  constructor
  · intro h
    obtain ⟨read, hread, hreindex⟩ := Checked.andThen_eq_accepted.mp h
    obtain ⟨enums, entities, henums, hentities, rfl⟩ := Checked.and_eq_accepted hread
    have hindexed := IsIndexed.of_reindex hreindex
    obtain ⟨-, -, rfl⟩ := reindex_eq_accepted.mp hreindex
    exact ⟨henums, hentities, hindexed⟩
  · rintro ⟨henums, hentities, hindexed⟩
    refine Checked.andThen_eq_accepted.mpr ⟨⟨m.enums, m.entities, [], []⟩, ?_, ?_⟩
    · rw [henums, hentities]
      rfl
    · refine reindex_eq_accepted.mpr ⟨hindexed.entityNames, hindexed.enumNames, ?_⟩
      calc m = ⟨m.enums, m.entities, m.indexedEntities, m.indexedEnums⟩ := rfl
        _ = ⟨m.enums, m.entities, m.entities, m.enums⟩ := by
          rw [hindexed.entities, hindexed.enums]

/-- Every accepted description gives an indexed model. -/
theorem IsIndexed.of_decode {description : Value} {m : DataModel}
    (h : DataModel.decode description = .accepted m) : m.IsIndexed := by
  cases description with
  | mapping entries =>
    obtain ⟨-, -, hindexed⟩ := decode_eq_accepted.mp h
    exact hindexed
  | _ => cases h

/-- The look-up of an enumeration finds exactly the declared ones. -/
theorem IsIndexed.enumValues_eq_some {m : DataModel} (hm : m.IsIndexed) {name : String}
    {values : List String} : m.enumValues name = some values ↔ ⟨name, values⟩ ∈ m.enums := by
  unfold enumValues
  rw [hm.enums, Option.map_eq_some_iff]
  constructor
  · rintro ⟨d, hd, rfl⟩
    have hname : d.name = name := by simpa using List.find?_some hd
    subst hname
    exact List.mem_of_find?_eq_some hd
  · intro hmem
    obtain ⟨d, hd⟩ : ∃ d, m.enums.find? (fun d => d.name = name) = some d :=
      Option.isSome_iff_exists.mp (List.find?_isSome.mpr ⟨_, hmem, by simp⟩)
    have hname : d.name = name := by simpa using List.find?_some hd
    have heq : d = ⟨name, values⟩ :=
      List.inj_on_of_nodup_map hm.enumNames (List.mem_of_find?_eq_some hd) hmem hname
    exact ⟨d, hd, by rw [heq]⟩

end DataModel

/-! ## Small models

A forum in which a user refers to itself, users and posts refer to each other, and a post refers to
an entity that is not declared. One enumeration is used by both entities and one by none. In the
other model an enumeration and an entity share their name. -/

namespace Sample

/-- The description of a field. -/
def fieldDescription (name kind type : String) (isList : Bool) : Value :=
  .mapping [("name", .str name), ("kind", .str kind), ("type", .str type), ("isList", .bool isList)]

/-- The field of such a description. -/
def field (name : String) (kind : FieldKind) (type : String) (isList : Bool) : Field :=
  ⟨name, some kind, type, isList, true, false, false, false, none, [], [], none⟩

/-- The entity that has just these fields. -/
def entity (name : String) (fields : List Field) : Entity := ⟨name, fields, none, [], none, fields⟩

def user : Entity :=
  entity "User"
    [field "role" .enumeration "Role" false, field "inviter" .relation "User" false,
      field "posts" .relation "Post" true]

def post : Entity :=
  entity "Post"
    [field "author" .relation "User" false, field "draft" .relation "Draft" false,
      field "readers" .enumeration "Role" true]

def enums : List Enumeration := [⟨"Idle", ["A"]⟩, ⟨"Role", ["ADMIN", "MEMBER"]⟩]

/-- The forum, accepted. -/
def forum : DataModel := ⟨enums, [user, post], [user, post], enums⟩

/-- The posts as they are described. -/
def postDescription : Value :=
  .mapping [("name", .str "Post"), ("fields", .list [
    fieldDescription "author" "object" "User" false,
    fieldDescription "draft" "object" "Draft" false,
    fieldDescription "readers" "enum" "Role" true])]

/-- The forum as it is described. -/
def description : Value :=
  .mapping [
    ("enums", .list [
      .mapping [("name", .str "Idle"), ("values", .list [.str "A"])],
      .mapping [("name", .str "Role"), ("values", .list [.str "ADMIN", .str "MEMBER"])]]),
    ("models", .list [
      .mapping [("name", .str "User"), ("fields", .list [
        fieldDescription "role" "enum" "Role" false,
        fieldDescription "inviter" "object" "User" false,
        fieldDescription "posts" "object" "Post" true])],
      postDescription])]

/-- A model in which an enumeration and an entity go by one name. -/
def homonyms : DataModel :=
  let enums := [⟨"User", ["A"]⟩]
  let entities := [entity "User" [field "role" .enumeration "User" false]]
  ⟨enums, entities, entities, enums⟩

/-- The homonyms as they are described. -/
def homonymDescription : Value :=
  .mapping [
    ("enums", .list [.mapping [("name", .str "User"), ("values", .list [.str "A"])]]),
    ("models", .list [.mapping [("name", .str "User"), ("fields", .list [
      fieldDescription "role" "enum" "User" false])]])]

theorem decode_postDescription : Entity.decode postDescription = .accepted post :=
  Checked.eq_accepted_of_value? (by decide +kernel)

theorem decode_description : DataModel.decode description = .accepted forum :=
  Checked.eq_accepted_of_value? (by decide +kernel)

end Sample

end ModelSchemas
