import ModelSchemas.Model.DataModel
import ModelSchemas.Proofs.Validation.Accepted

/-!
# Accepted descriptions

The description of a field, an enumeration, a group of fields or an entity is accepted exactly if
the check of every property accepts what it finds, and these checks decide all attributes of what
was described. What the checks of single properties guarantee can so be used without opening the
record.
-/

namespace ModelSchemas

open Document

namespace Field

/-- Every attribute of the field is what the check of its entry gives. -/
structure IsReadFrom (f : Field) (entries : Entries) : Prop where
  name : Record.required entries ["name"] Decoder.nonEmptyString = .accepted f.name
  kind : Record.withDefault entries ["kind"] none (fun v => (FieldKind.decode v).map some) =
    .accepted f.declaredKind
  typeName : Record.required entries ["type", "type_name"] Decoder.nonEmptyString =
    .accepted f.typeName
  isList : Record.withDefault entries ["isList", "is_list"] false Decoder.bool = .accepted f.isList
  isRequired : Record.withDefault entries ["isRequired", "is_required"] true Decoder.bool =
    .accepted f.isRequired
  hasDefaultValue :
    Record.withDefault entries ["hasDefaultValue", "has_default_value"] false Decoder.bool =
      .accepted f.hasDefaultValue
  isId : Record.withDefault entries ["isId", "is_id"] false Decoder.bool = .accepted f.isId
  isUnique : Record.withDefault entries ["isUnique", "is_unique"] false Decoder.bool =
    .accepted f.isUnique
  relationName : Record.withDefault entries ["relationName", "relation_name"] none
    (Decoder.orNull Decoder.string) = .accepted f.relationName
  relationFromFields : Record.withDefault entries ["relationFromFields", "relation_from_fields"] []
    decodeCarriers = .accepted f.relationFromFields
  relationToFields : Record.withDefault entries ["relationToFields", "relation_to_fields"] []
    decodeCarriers = .accepted f.relationToFields
  documentation : Record.withDefault entries ["documentation"] none
    (Decoder.orNull Decoder.string) = .accepted f.documentation

theorem decode_eq_accepted {entries : Entries} {f : Field} :
    decode (.mapping entries) = .accepted f ↔ f.IsReadFrom entries := by
  constructor
  · intro h
    obtain ⟨_, _, h, hdocumentation, heq₁₂⟩ := Checked.seq_eq_accepted h
    obtain ⟨_, _, h, hrelationToFields, heq₁₁⟩ := Checked.seq_eq_accepted h
    obtain ⟨_, _, h, hrelationFromFields, heq₁₀⟩ := Checked.seq_eq_accepted h
    obtain ⟨_, _, h, hrelationName, heq₉⟩ := Checked.seq_eq_accepted h
    obtain ⟨_, _, h, hisUnique, heq₈⟩ := Checked.seq_eq_accepted h
    obtain ⟨_, _, h, hisId, heq₇⟩ := Checked.seq_eq_accepted h
    obtain ⟨_, _, h, hhasDefaultValue, heq₆⟩ := Checked.seq_eq_accepted h
    obtain ⟨_, _, h, hisRequired, heq₅⟩ := Checked.seq_eq_accepted h
    obtain ⟨_, _, h, hisList, heq₄⟩ := Checked.seq_eq_accepted h
    obtain ⟨_, _, h, htypeName, heq₃⟩ := Checked.seq_eq_accepted h
    obtain ⟨_, _, h, hkind, heq₂⟩ := Checked.seq_eq_accepted h
    obtain ⟨_, _, h, hname, heq₁⟩ := Checked.seq_eq_accepted h
    cases h
    subst heq₁ heq₂ heq₃ heq₄ heq₅ heq₆ heq₇ heq₈ heq₉ heq₁₀ heq₁₁ heq₁₂
    exact ⟨hname, hkind, htypeName, hisList, hisRequired, hhasDefaultValue, hisId, hisUnique,
      hrelationName, hrelationFromFields, hrelationToFields, hdocumentation⟩
  · intro h
    simp only [decode, Record.ofMapping, h.name, h.kind, h.typeName, h.isList, h.isRequired,
      h.hasDefaultValue, h.isId, h.isUnique, h.relationName, h.relationFromFields,
      h.relationToFields, h.documentation]
    rfl

end Field

namespace Enumeration

theorem decode_eq_accepted {entries : Entries} {e : Enumeration} :
    decode (.mapping entries) = .accepted e ↔
      Record.required entries ["name"] Decoder.nonEmptyString = .accepted e.name ∧
        Record.withDefault entries ["values"] [] decodeValues = .accepted e.values := by
  constructor
  · intro h
    obtain ⟨_, _, h, hvalues, heq₂⟩ := Checked.seq_eq_accepted h
    obtain ⟨_, _, h, hname, heq₁⟩ := Checked.seq_eq_accepted h
    cases h
    subst heq₁ heq₂
    exact ⟨hname, hvalues⟩
  · rintro ⟨hname, hvalues⟩
    simp only [decode, Record.ofMapping, hname, hvalues]
    rfl

end Enumeration

namespace KeyGroup

theorem decode_eq_accepted {model : String} {entries : Entries} {g : KeyGroup} :
    decode model (.mapping entries) = .accepted g ↔
      Record.withDefault entries ["name"] none (Decoder.orNull Decoder.string) =
          .accepted g.name ∧
        Record.required entries ["fields"] (Decoder.nonEmptyList Decoder.string) =
          .accepted g.fields := by
  constructor
  · intro h
    obtain ⟨_, _, h, hfields, heq₂⟩ := Checked.seq_eq_accepted h
    obtain ⟨_, _, h, hname, heq₁⟩ := Checked.seq_eq_accepted h
    cases h
    subst heq₁ heq₂
    exact ⟨hname, hfields⟩
  · rintro ⟨hname, hfields⟩
    simp only [decode, Record.ofMapping, hname, hfields]
    rfl

end KeyGroup

namespace Entity

/-- Every attribute of the entity is what the check of its entry gives, and there is no index. -/
structure IsReadFrom (e : Entity) (entries : Entries) : Prop where
  name : Record.required entries ["name"] Decoder.nonEmptyString = .accepted e.name
  fields : Record.withDefault entries ["fields"] [] (Decoder.list Field.decode) =
    .accepted e.fields
  primaryKey : Record.withDefault entries ["primaryKey", "primary_key"] none
    (Decoder.orNull KeyGroup.decodePrimaryKey) = .accepted e.primaryKey
  uniqueIndexes : Record.withDefault entries ["uniqueIndexes", "unique_indexes"] []
    (Decoder.list KeyGroup.decodeUniqueIndex) = .accepted e.uniqueIndexes
  documentation : Record.withDefault entries ["documentation"] none
    (Decoder.orNull Decoder.string) = .accepted e.documentation
  indexed : e.indexed = []

theorem decodeProperties_eq_accepted {entries : Entries} {e : Entity} :
    decodeProperties entries = .accepted e ↔ e.IsReadFrom entries := by
  constructor
  · intro h
    obtain ⟨_, _, h, hdocumentation, heq₅⟩ := Checked.seq_eq_accepted h
    obtain ⟨_, _, h, huniqueIndexes, heq₄⟩ := Checked.seq_eq_accepted h
    obtain ⟨_, _, h, hprimaryKey, heq₃⟩ := Checked.seq_eq_accepted h
    obtain ⟨_, _, h, hfields, heq₂⟩ := Checked.seq_eq_accepted h
    obtain ⟨_, _, h, hname, heq₁⟩ := Checked.seq_eq_accepted h
    cases h
    subst heq₁ heq₂ heq₃ heq₄ heq₅
    exact ⟨hname, hfields, hprimaryKey, huniqueIndexes, hdocumentation, rfl⟩
  · rintro ⟨hname, hfields, hprimaryKey, huniqueIndexes, hdocumentation, hindexed⟩
    simp only [decodeProperties, hname, hfields, hprimaryKey, huniqueIndexes, hdocumentation]
    rw [← hindexed]
    rfl

end Entity

end ModelSchemas
