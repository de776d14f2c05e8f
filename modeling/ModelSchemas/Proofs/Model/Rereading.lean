import ModelSchemas.Proofs.Model.AcceptedSettings
import ModelSchemas.Proofs.Model.OpenKinds
import ModelSchemas.Proofs.Validation.Rereading

/-!
# Reading a model back

Everything that is accepted is written under the names of its attributes, with the kinds as their
words and without the indexes. The written form is accepted again, and reading it gives what was
written: no spelling is left in it that a check would settle, or settle otherwise. Only a kind that
was left open is given in the written form. That makes no difference for what a field is.
-/

namespace ModelSchemas

open Document

/-! ## Fields -/

namespace FieldKind

/-- The written form of a kind. One that was left open is a scalar. -/
def write (kind? : Option FieldKind) : Value := .str (kind?.getD .scalar).word

theorem decode_word (kind : FieldKind) : decode (.str kind.word) = .accepted kind := by
  rw [decode, ofWord?_word]

theorem rereads_decode : Decoder.Rereads (fun v => (decode v).map some) write
    fun kind? => some (kind?.getD .scalar) := by
  intro v kind? _
  show (decode (.str (kind?.getD .scalar).word)).map some = _
  rw [decode_word]
  rfl

end FieldKind

namespace Field

/-- The attributes of a field under their own names. -/
def attributes (f : Field) : Entries :=
  [("name", .str f.name), ("kind", FieldKind.write f.declaredKind), ("type_name", .str f.typeName),
    ("is_list", .bool f.isList), ("is_required", .bool f.isRequired),
    ("has_default_value", .bool f.hasDefaultValue), ("is_id", .bool f.isId),
    ("is_unique", .bool f.isUnique),
    ("relation_name", Decoder.writeOption .str f.relationName),
    ("relation_from_fields", Decoder.writeList .str f.relationFromFields),
    ("relation_to_fields", Decoder.writeList .str f.relationToFields),
    ("documentation", Decoder.writeOption .str f.documentation)]

/-- A field as a document. -/
def toValue (f : Field) : Value := .mapping f.attributes

/-- A field is written with its kind. -/
theorem toValue_explicit (f : Field) : f.explicit.toValue = f.toValue := rfl

theorem rereads_decodeCarriers : Decoder.Rereads decodeCarriers (Decoder.writeList .str) id :=
  fun _ names _ => Decoder.list_texts names

theorem rereads_decode : Decoder.Rereads decode toValue explicit := by
  intro v f h
  cases v with
  | mapping entries =>
    have hread := decode_eq_accepted.mp h
    refine decode_eq_accepted.mpr ?_
    exact {
      name := Record.required_reread Decoder.rereads_nonEmptyString hread.name rfl
      kind := Record.withDefault_reread FieldKind.rereads_decode rfl hread.kind rfl
      typeName := Record.required_reread Decoder.rereads_nonEmptyString hread.typeName rfl
      isList := Record.withDefault_reread Decoder.rereads_bool rfl hread.isList rfl
      isRequired := Record.withDefault_reread Decoder.rereads_bool rfl hread.isRequired rfl
      hasDefaultValue :=
        Record.withDefault_reread Decoder.rereads_bool rfl hread.hasDefaultValue rfl
      isId := Record.withDefault_reread Decoder.rereads_bool rfl hread.isId rfl
      isUnique := Record.withDefault_reread Decoder.rereads_bool rfl hread.isUnique rfl
      relationName :=
        Record.withDefault_reread Decoder.rereads_textOrNull rfl hread.relationName rfl
      relationFromFields :=
        Record.withDefault_reread rereads_decodeCarriers rfl hread.relationFromFields rfl
      relationToFields :=
        Record.withDefault_reread rereads_decodeCarriers rfl hread.relationToFields rfl
      documentation :=
        Record.withDefault_reread Decoder.rereads_textOrNull rfl hread.documentation rfl }
  | _ => cases h

end Field

/-! ## Enumerations -/

namespace Enumeration

/-- An enumeration as a document. -/
def toValue (e : Enumeration) : Value :=
  .mapping [("name", .str e.name), ("values", Decoder.writeList .str e.values)]

/-- Values that are names are taken as they are. -/
theorem valueNames_texts (texts : List String) :
    valueNames (texts.map .str) = .accepted (texts.map .str) := by
  induction texts with
  | nil => rfl
  | cons text rest ih =>
    rw [List.map_cons, valueNames, ih]
    rfl

theorem rereads_decodeValues : Decoder.Rereads decodeValues (Decoder.writeList .str) id := by
  intro _ values _
  refine Checked.andThen_eq_accepted.mpr ⟨_, valueNames_texts values, ?_⟩
  exact Decoder.list_texts values

theorem rereads_decode : Decoder.Rereads decode toValue id := by
  intro v e h
  cases v with
  | mapping entries =>
    obtain ⟨hname, hvalues⟩ := decode_eq_accepted.mp h
    refine decode_eq_accepted.mpr ⟨?_, ?_⟩
    · exact Record.required_reread Decoder.rereads_nonEmptyString hname rfl
    · exact Record.withDefault_reread rereads_decodeValues rfl hvalues rfl
  | _ => cases h

theorem rereads_list :
    Decoder.Rereads (Decoder.list decode) (Decoder.writeList toValue) id := by
  have h := rereads_decode.list
  rwa [List.map_id_fun] at h

end Enumeration

/-! ## Entities -/

namespace KeyGroup

/-- A group as a document. -/
def toValue (g : KeyGroup) : Value :=
  .mapping [("name", Decoder.writeOption .str g.name), ("fields", Decoder.writeList .str g.fields)]

theorem rereads_decode (model : String) : Decoder.Rereads (decode model) toValue id := by
  intro v g h
  cases v with
  | mapping entries =>
    obtain ⟨hname, hfields⟩ := decode_eq_accepted.mp h
    refine decode_eq_accepted.mpr ⟨?_, ?_⟩
    · exact Record.withDefault_reread Decoder.rereads_textOrNull rfl hname rfl
    · exact Record.required_reread Decoder.rereads_nonEmptyTexts hfields rfl
  | _ => cases h

theorem rereads_primaryKey :
    Decoder.Rereads (Decoder.orNull decodePrimaryKey) (Decoder.writeOption toValue) id := by
  have h := (rereads_decode "PrimaryKeyInfo").orNull fun _ => Value.noConfusion
  rwa [Option.map_id] at h

theorem rereads_uniqueIndexes :
    Decoder.Rereads (Decoder.list decodeUniqueIndex) (Decoder.writeList toValue) id := by
  have h := (rereads_decode "UniqueIndexInfo").list
  rwa [List.map_id_fun] at h

end KeyGroup

namespace Entity

/-- The attributes of an entity under their own names. -/
def attributes (e : Entity) : Entries :=
  [("name", .str e.name), ("fields", Decoder.writeList Field.toValue e.fields),
    ("primary_key", Decoder.writeOption KeyGroup.toValue e.primaryKey),
    ("unique_indexes", Decoder.writeList KeyGroup.toValue e.uniqueIndexes),
    ("documentation", Decoder.writeOption .str e.documentation)]

/-- An entity as a document, without its index. -/
def toValue (e : Entity) : Value := .mapping e.attributes

theorem toValue_explicit (e : Entity) : e.explicit.toValue = e.toValue := by
  simp only [toValue, attributes, explicit, Decoder.writeList_map Field.toValue_explicit]

/-- An entity as it is written has no unique groups in the bare form. -/
theorem adoptUniqueFields_attributes (e : Entity) :
    adoptUniqueFields e.attributes = .accepted e.attributes := by
  unfold adoptUniqueFields
  dsimp only
  split_ifs
  · rfl
  · rfl

/-- The properties are read back with the kinds of the fields written out. -/
theorem IsReadFrom.attributes {entries : Entries} {read : Entity} (h : read.IsReadFrom entries)
    (indexed : List Field) :
    { read with fields := read.fields.map Field.explicit }.IsReadFrom
      { read with indexed := indexed }.attributes where
  name := Record.required_reread Decoder.rereads_nonEmptyString h.name rfl
  fields := Record.withDefault_reread Field.rereads_decode.list rfl h.fields rfl
  primaryKey := Record.withDefault_reread KeyGroup.rereads_primaryKey rfl h.primaryKey rfl
  uniqueIndexes := Record.withDefault_reread KeyGroup.rereads_uniqueIndexes rfl h.uniqueIndexes rfl
  documentation :=
    Record.withDefault_reread Decoder.rereads_textOrNull rfl h.documentation rfl
  indexed := h.indexed

theorem rereads_decode : Decoder.Rereads decode toValue explicit := by
  intro v e h
  cases v with
  | mapping entries =>
    obtain ⟨adopted, read, -, hread, hnodup, rfl⟩ := decode_eq_accepted.mp h
    refine decode_eq_accepted.mpr
      ⟨_, _, adoptUniqueFields_attributes _, hread.attributes read.fields, ?_, rfl⟩
    rw [List.map_map]
    exact hnodup
  | _ => cases h

end Entity

/-! ## Data models -/

namespace DataModel

/-- The attributes of a data model under their own names. -/
def attributes (m : DataModel) : Entries :=
  [("enums", Decoder.writeList Enumeration.toValue m.enums),
    ("entities", Decoder.writeList Entity.toValue m.entities)]

/-- A data model as a document, without its indexes. -/
def toValue (m : DataModel) : Value := .mapping m.attributes

/-- The data model with the kinds of all fields written out. -/
def explicit (m : DataModel) : DataModel :=
  { m with
    entities := m.entities.map Entity.explicit
    indexedEntities := m.indexedEntities.map Entity.explicit }

theorem toValue_explicit (m : DataModel) : m.explicit.toValue = m.toValue := by
  simp only [toValue, attributes, explicit, Decoder.writeList_map Entity.toValue_explicit]

theorem getEntity_explicit (m : DataModel) (name : String) :
    m.explicit.getEntity name = (m.getEntity name).map Entity.explicit := List.find?_map ..

theorem IsIndexed.explicit {m : DataModel} (h : m.IsIndexed) : m.explicit.IsIndexed where
  entityNames := by
    have hnames : m.explicit.entityNames = m.entityNames := List.map_map
    rw [hnames]
    exact h.entityNames
  enumNames := h.enumNames
  entities := congrArg (List.map Entity.explicit) h.entities
  enums := h.enums

theorem rereads_decode : Decoder.Rereads decode toValue explicit := by
  intro v m h
  cases v with
  | mapping entries =>
    obtain ⟨henums, hentities, hindexed⟩ := decode_eq_accepted.mp h
    refine decode_eq_accepted.mpr ⟨?_, ?_, hindexed.explicit⟩
    · exact Record.withDefault_reread Enumeration.rereads_list rfl henums rfl
    · exact Record.withDefault_reread Entity.rereads_decode.list rfl hentities rfl
  | _ => cases h

end DataModel

/-! ## Settings -/

namespace Settings

/-- The settings under their own names. -/
def attributes (s : Settings) : Entries :=
  [("schema_module", .str s.schemaModule), ("client_module", .str s.clientModule),
    ("output_dir", .str s.outputDir), ("output_file_name", .str s.outputFileName),
    ("header_comment", .str s.headerComment), ("indent_size", .int s.indentSize),
    ("always_lazy_references", .bool s.alwaysLazyReferences),
    ("write_manifest", .bool s.writeManifest)]

/-- Settings as a document. -/
def toValue (s : Settings) : Value := .mapping s.attributes

theorem rereads_decodeFileName : Decoder.Rereads decodeFileName .str id := by
  intro v name h
  obtain ⟨hgiven, hname⟩ := decodeFileName_eq_accepted.mp h
  exact decodeFileName_eq_accepted.mpr ⟨Decoder.rereads_nonEmptyString v name hgiven, hname⟩

theorem rereads_decode : Decoder.Rereads decode toValue id := by
  intro v s h
  cases v with
  | mapping entries =>
    have hread := decode_eq_accepted.mp h
    have htext := Decoder.rereads_nonEmptyString
    refine decode_eq_accepted.mpr ?_
    exact {
      schemaModule := Record.withDefault_reread htext rfl hread.schemaModule rfl
      clientModule := Record.withDefault_reread htext rfl hread.clientModule rfl
      outputDir := Record.withDefault_reread htext rfl hread.outputDir rfl
      outputFileName :=
        Record.withDefault_reread rereads_decodeFileName rfl hread.outputFileName rfl
      headerComment :=
        Record.withDefault_reread Decoder.rereads_string rfl hread.headerComment rfl
      indentSize :=
        Record.withDefault_reread (Decoder.rereads_intBetween 1 8) rfl hread.indentSize rfl
      alwaysLazyReferences :=
        Record.withDefault_reread Decoder.rereads_bool rfl hread.alwaysLazyReferences rfl
      writeManifest := Record.withDefault_reread Decoder.rereads_bool rfl hread.writeManifest rfl
      closed := rfl }
  | _ => cases h

end Settings

/-! ## Normal forms -/

/-- **Ingestion gives normal forms.** What is written of an accepted data model, entity, field,
enumeration or settings is accepted again and read as the same, look-ups included. Only the kinds
that had been left open are given then, and that does not show in the written form. -/
theorem written_form_reads_back :
    (∀ v m, DataModel.decode v = .accepted m →
      DataModel.decode m.toValue = .accepted m.explicit ∧ m.explicit.toValue = m.toValue ∧
        (∀ name, m.explicit.getEntity name = (m.getEntity name).map Entity.explicit) ∧
        ∀ name, m.explicit.enumValues name = m.enumValues name) ∧
    (∀ v e, Entity.decode v = .accepted e →
      Entity.decode e.toValue = .accepted e.explicit ∧ e.explicit.toValue = e.toValue ∧
        ∀ name, e.explicit.getField name = (e.getField name).map Field.explicit) ∧
    (∀ v f, Field.decode v = .accepted f →
      Field.decode f.toValue = .accepted f.explicit ∧ f.explicit.toValue = f.toValue ∧
        f.explicit.kind = f.kind) ∧
    (∀ v e, Enumeration.decode v = .accepted e → Enumeration.decode e.toValue = .accepted e) ∧
    ∀ v s, Settings.decode v = .accepted s → Settings.decode s.toValue = .accepted s := by
  refine ⟨fun v m h => ?_, fun v e h => ?_, fun v f h => ?_, ?_, ?_⟩
  · exact ⟨DataModel.rereads_decode v m h, m.toValue_explicit, m.getEntity_explicit, fun _ => rfl⟩
  · exact ⟨Entity.rereads_decode v e h, e.toValue_explicit, e.getField_explicit⟩
  · exact ⟨Field.rereads_decode v f h, f.toValue_explicit, rfl⟩
  · exact Enumeration.rereads_decode
  · exact Settings.rereads_decode

namespace Sample

/-- A model described with spellings that are not those of the written form. -/
def looseDescription : Value :=
  .mapping [
    ("enums", .list [.mapping [("name", .str "Role"), ("values", .list [
      .mapping [("name", .str "ADMIN"), ("dbName", .null)], .str "MEMBER"])]]),
    ("models", .list [.mapping [
      ("name", .str "User"),
      ("fields", .list [
        .mapping [("name", .str "id"), ("type", .str "Int"), ("isId", .str "Yes")],
        .mapping [("name", .str "posts"), ("kind", .str "object"), ("type", .str "Post"),
          ("isList", .int 1), ("relationFromFields", .null)]]),
      ("uniqueIndexes", .list []),
      ("uniqueFields", .list [.list [.str "id", .str "posts"]])]])]

/-- What the loose description stands for. -/
def looseModel : DataModel :=
  let id : Field := ⟨"id", none, "Int", false, true, false, true, false, none, [], [], none⟩
  let posts : Field :=
    ⟨"posts", some .relation, "Post", true, true, false, false, false, none, [], [], none⟩
  let user : Entity := ⟨"User", [id, posts], none, [⟨none, ["id", "posts"]⟩], none, [id, posts]⟩
  let role : Enumeration := ⟨"Role", ["ADMIN", "MEMBER"]⟩
  ⟨[role], [user], [user], [role]⟩

/-- Settings of which the numbers and truth values are words. -/
def looseSettings : Value :=
  .mapping [("indent_size", .str " +07.0"), ("write_manifest", .str "oN")]

/-- The loose description reads back as what it stands for. -/
theorem loose_description_reads_back :
    DataModel.decode looseDescription = .accepted looseModel ∧
      DataModel.decode looseModel.toValue = .accepted looseModel.explicit ∧
      ∃ s, Settings.decode looseSettings = .accepted s ∧ s.indentSize = 7 ∧
        Settings.decode s.toValue = .accepted s := by
  obtain ⟨hmodels, -, -, -, hsettings⟩ := written_form_reads_back
  have hmodel : DataModel.decode looseDescription = .accepted looseModel :=
    Checked.eq_accepted_of_value? (by decide +kernel)
  have hread : Settings.decode looseSettings =
      .accepted { Settings.default with indentSize := 7, writeManifest := true } :=
    Checked.eq_accepted_of_value? (by decide +kernel)
  exact ⟨hmodel, (hmodels _ _ hmodel).1, _, hread, rfl, hsettings _ _ hread⟩

end Sample

end ModelSchemas
