import Mathlib.Data.List.Nodup
import Mathlib.Data.List.Pairwise
import ModelSchemas.Proofs.Schema.Declarations
import ModelSchemas.Proofs.Schema.EnumUsage

/-!
# Constants of a document

A document declares one constant for each enumeration that it uses and twelve for each entity. All
their names end alike, so that two of them may meet; here it is said when they do. The checks on a
data model compare enumerations with enumerations and entities with entities, and do not see that.
-/

namespace ModelSchemas

namespace Schema

open Document

/-! ## Names of constants -/

namespace Part

theorem mem_all (part : Part) : part ∈ all := by
  cases part <;> decide

theorem nodup_all : all.Nodup := by decide

/-- Only the empty suffix ends another one. -/
theorem eq_object_or_eq {part other : Part} (h : part.suffix.toList <:+ other.suffix.toList) :
    part = object ∨ part = other := by
  have hall : ∀ part ∈ all, ∀ other ∈ all, part.suffix.toList <:+ other.suffix.toList →
      part = object ∨ part = other := by decide +kernel
  exact hall part (mem_all part) other (mem_all other) h

theorem suffix_injective : Function.Injective suffix := by
  intro part other h
  have hinto : part.suffix.toList <:+ other.suffix.toList := h ▸ List.suffix_rfl
  have hback : other.suffix.toList <:+ part.suffix.toList := h ▸ List.suffix_rfl
  rcases eq_object_or_eq hinto with rfl | heq
  · rcases eq_object_or_eq hback with rfl | heq
    · rfl
    · exact heq.symm
  · exact heq

/-- Every suffix but the empty one makes another name. -/
theorem append_suffix_eq_self {part : Part} {entity : String} :
    entity ++ part.suffix = entity ↔ part = object := by
  rw [← String.toList_inj, String.toList_append, List.append_right_eq_self]
  constructor
  · intro h
    exact suffix_injective (String.toList_inj.mp h)
  · rintro rfl
    rfl

theorem constant_eq_constant {part other : Part} {entity name : String} :
    part.constant entity = other.constant name ↔
      entity.toList ++ part.suffix.toList = name.toList ++ other.suffix.toList := by
  have hshape : ∀ (p : Part) (e : String), p.constant e = e ++ p.suffix ++ "Schema" :=
    fun _ _ => rfl
  rw [hshape, hshape, ← String.toList_inj]
  simp only [String.toList_append, List.append_left_inj]

theorem constant_eq_enumSchemaName {part : Part} {entity name : String} :
    enumSchemaName name = part.constant entity ↔ name = entity ++ part.suffix :=
  @enumSchemaName_inj name (entity ++ part.suffix)

theorem constant_injective (entity : String) :
    Function.Injective fun part : Part => part.constant entity := by
  intro part other h
  have hsuffix := List.append_cancel_left (constant_eq_constant.mp h)
  exact suffix_injective (String.toList_inj.mp hsuffix)

/-- A name that begins with another one, where the suffixes make up for the difference. -/
theorem eq_of_append_suffix {part other : Part} {entity name : String} {middle : List Char}
    (hname : name.toList = entity.toList ++ middle)
    (hsuffix : part.suffix.toList = middle ++ other.suffix.toList) :
    entity = name ∨ (other = object ∧ name = entity ++ part.suffix) := by
  -- the one suffix ends the other: it is empty, or both are the same and nothing lies between
  rcases eq_object_or_eq ⟨middle, hsuffix.symm⟩ with rfl | rfl
  · right
    have hempty : object.suffix.toList = [] := rfl
    rw [hempty, List.append_nil] at hsuffix
    refine ⟨rfl, String.toList_inj.mp ?_⟩
    rw [String.toList_append, hname, hsuffix]
  · left
    have hmiddle : middle = [] := List.self_eq_append_left.mp hsuffix
    rw [hmiddle, List.append_nil] at hname
    exact String.toList_inj.mp hname.symm

/-- Different entities share a constant only if the name of one is the name of the other with a
suffix. -/
theorem constant_eq_constant_iff {part other : Part} {entity name : String} (hne : entity ≠ name) :
    part.constant entity = other.constant name ↔
      (other = object ∧ name = entity ++ part.suffix) ∨
        (part = object ∧ entity = name ++ other.suffix) := by
  have hempty : object.suffix.toList = [] := rfl
  rw [constant_eq_constant]
  constructor
  · intro h
    rcases List.append_eq_append_iff.mp h with ⟨middle, hname, hsuffix⟩ | ⟨middle, hentity, hsuffix⟩
    · exact .inl ((eq_of_append_suffix hname hsuffix).resolve_left hne)
    · exact .inr ((eq_of_append_suffix hentity hsuffix).resolve_left hne.symm)
  · rintro (⟨rfl, rfl⟩ | ⟨rfl, rfl⟩)
    · rw [String.toList_append, hempty, List.append_nil]
    · rw [String.toList_append, hempty, List.append_nil]

end Part

theorem mem_entityConstants {e : Entity} {name : String} :
    name ∈ entityConstants e ↔ ∃ part : Part, part.constant e.name = name := by
  simp [entityConstants, Part.mem_all]

theorem nodup_entityConstants (e : Entity) : (entityConstants e).Nodup :=
  Part.nodup_all.map (Part.constant_injective e.name)

/-! ## Collisions -/

/-- No enumeration in use is called like an entity, with or without one of the suffixes. -/
def EnumsApart (m : DataModel) : Prop :=
  ∀ e ∈ m.entities, ∀ part : Part, e.name ++ part.suffix ∉ usedEnumNames m

/-- No entity is called like another one with a suffix. -/
def EntitiesApart (m : DataModel) : Prop :=
  ∀ e ∈ m.entities, ∀ other ∈ m.entities, ∀ part : Part, part ≠ .object →
    other.name ≠ e.name ++ part.suffix

theorem disjoint_entityConstants_iff {e other : Entity} (hne : e.name ≠ other.name) :
    List.Disjoint (entityConstants e) (entityConstants other) ↔
      ∀ part : Part, part ≠ .object →
        other.name ≠ e.name ++ part.suffix ∧ e.name ≠ other.name ++ part.suffix := by
  constructor
  · intro h part _
    constructor
    · intro hname
      refine h (mem_entityConstants.mpr ⟨part, rfl⟩) (mem_entityConstants.mpr ⟨.object, ?_⟩)
      exact ((Part.constant_eq_constant_iff hne).mpr (.inl ⟨rfl, hname⟩)).symm
    · intro hname
      refine h (mem_entityConstants.mpr ⟨.object, rfl⟩) (mem_entityConstants.mpr ⟨part, ?_⟩)
      exact ((Part.constant_eq_constant_iff hne).mpr (.inr ⟨rfl, hname⟩)).symm
  · intro h name hmem hmem'
    obtain ⟨part, rfl⟩ := mem_entityConstants.mp hmem
    obtain ⟨part', heq⟩ := mem_entityConstants.mp hmem'
    rcases (Part.constant_eq_constant_iff hne).mp heq.symm with ⟨-, hname⟩ | ⟨-, hname⟩
    · refine (h part ?_).1 hname
      rintro rfl
      exact hne (hname.trans (Part.append_suffix_eq_self.mpr rfl)).symm
    · refine (h part' ?_).2 hname
      rintro rfl
      exact hne (hname.trans (Part.append_suffix_eq_self.mpr rfl))

/-- The entities alone: their constants meet exactly when their names do, up to a suffix. -/
theorem nodup_flatMap_entityConstants {m : DataModel} (hm : m.IsIndexed) :
    (m.entities.flatMap entityConstants).Nodup ↔ EntitiesApart m := by
  have hname : ∀ {e other : Entity}, e ∈ m.entities → other ∈ m.entities → e ≠ other →
      e.name ≠ other.name :=
    fun he hother hne heq => hne (List.inj_on_of_nodup_map hm.entityNames he hother heq)
  rw [List.nodup_flatMap]
  constructor
  · -- an entity called like another one with a suffix is a different one
    rintro ⟨-, hpairs⟩ e he other hother part hpart heq
    have hne : e ≠ other := by
      rintro rfl
      exact hpart (Part.append_suffix_eq_self.mp heq.symm)
    have : Std.Symm (Function.onFun List.Disjoint entityConstants) :=
      ⟨fun _ _ h => List.disjoint_symm h⟩
    have hdisjoint := hpairs.forall he hother hne
    exact ((disjoint_entityConstants_iff (hname he hother hne)).mp hdisjoint part hpart).1 heq
  · intro h
    refine ⟨fun e _ => nodup_entityConstants e, ?_⟩
    refine hm.entityNames.of_map.pairwise_of_forall_ne fun e he other hother hne => ?_
    refine (disjoint_entityConstants_iff (hname he hother hne)).mpr fun part hpart => ?_
    exact ⟨h e he other hother part hpart, h other hother e he part hpart⟩

/-- The enumerations against the entities. -/
theorem disjoint_usedEnumNames_entityConstants {m : DataModel} :
    List.Disjoint ((usedEnumNames m).map enumSchemaName) (m.entities.flatMap entityConstants) ↔
      EnumsApart m := by
  constructor
  · intro h e he part hused
    refine h (List.mem_map.mpr ⟨_, hused, rfl⟩) (List.mem_flatMap.mpr ⟨e, he, ?_⟩)
    exact mem_entityConstants.mpr ⟨part, rfl⟩
  · intro h constant hleft hright
    obtain ⟨name, hused, rfl⟩ := List.mem_map.mp hleft
    obtain ⟨e, he, hmem⟩ := List.mem_flatMap.mp hright
    obtain ⟨part, heq⟩ := mem_entityConstants.mp hmem
    exact h e he part (Part.constant_eq_enumSchemaName.mp heq.symm ▸ hused)

/-- **When the constants of a document are distinct.** The document of an accepted model declares
its constants, each on a line of its own. None of them is declared twice exactly if no enumeration
in use is called like an entity, with or without one of the suffixes, and no entity is called like
another one with a suffix. -/
theorem constants_distinct_iff {description : Value} {m : DataModel}
    (accepted : DataModel.decode description = .accepted m) (s : Settings) :
    Declare (documentLines s (runPass m s)) (declaredConstants m s) ∧
      ((declaredConstants m s).Nodup ↔ EnumsApart m ∧ EntitiesApart m) := by
  refine ⟨declare_documentLines m s, ?_⟩
  have hm := DataModel.IsIndexed.of_decode accepted
  have husage : (runPass m s).enumUsage.map (fun entry => enumSchemaName entry.1) =
      (usedEnumNames m).map enumSchemaName := by
    rw [enumUsage_runPass hm, List.map_map]
    rfl
  have hused : ((usedEnumNames m).map enumSchemaName).Nodup :=
    (Names.nodup_distinct _).map fun _ _ => enumSchemaName_inj.mp
  unfold declaredConstants
  rw [husage, List.nodup_append', nodup_flatMap_entityConstants hm,
    disjoint_usedEnumNames_entityConstants]
  constructor
  · rintro ⟨-, hentities, henums⟩
    exact ⟨henums, hentities⟩
  · rintro ⟨henums, hentities⟩
    exact ⟨hused, hentities, henums⟩

/-- The names of the forum do not meet. -/
theorem forum_constants_distinct :
    DataModel.decode Sample.description = .accepted Sample.forum ∧
      (declaredConstants Sample.forum Settings.default).Nodup := by
  refine ⟨Sample.decode_description, ?_⟩
  have distinct := constants_distinct_iff Sample.decode_description Settings.default
  refine distinct.2.mpr ⟨?_, ?_⟩
  · intro e he part
    have hall : ∀ e ∈ Sample.forum.entities, ∀ part ∈ Part.all,
        e.name ++ part.suffix ∉ usedEnumNames Sample.forum := by decide +kernel
    exact hall e he part (Part.mem_all part)
  · intro e he other hother part
    have hall : ∀ e ∈ Sample.forum.entities, ∀ other ∈ Sample.forum.entities, ∀ part ∈ Part.all,
        part ≠ .object → other.name ≠ e.name ++ part.suffix := by decide +kernel
    exact hall e he other hother part (Part.mem_all part)

/-- The checks accept a model whose document declares a constant twice. -/
theorem homonyms_collide :
    DataModel.decode Sample.homonymDescription = .accepted Sample.homonyms ∧
      ¬ (declaredConstants Sample.homonyms Settings.default).Nodup := by
  refine ⟨Checked.eq_accepted_of_value? (by decide +kernel), ?_⟩
  decide +kernel

end Schema

end ModelSchemas
