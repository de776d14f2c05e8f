import ModelSchemas.Proofs.Schema.EnumLine
import ModelSchemas.Proofs.Schema.PassRun

/-!
# Enumerations of a document

A pass remembers enumerations as a side effect of building field expressions. Here this memory is
read off the model: it holds the enumerations that the fields use by default, in the order of first
use, each with the values that it declares, and the document has one line for each of them.
-/

namespace ModelSchemas

namespace Schema

open Document

/-! ## Use -/

/-- Whether a field uses an enumeration: it declares one that has values, and no override stands in
for its default expression. -/
def UsesEnum (m : DataModel) (f : Field) : Prop :=
  f.kind = .enumeration ∧ overrideOf f = none ∧
    ∃ d ∈ m.enums, d.name = f.typeName ∧ d.values ≠ []

instance (m : DataModel) (f : Field) : Decidable (UsesEnum m f) :=
  inferInstanceAs (Decidable (_ ∧ _ ∧ _))

/-- The uses of enumerations among some fields, in order. -/
def enumUses (m : DataModel) (fields : List Field) : List String :=
  (fields.filter fun f => UsesEnum m f).map Field.typeName

/-- The enumerations that the fields of a model use, in the order of first use. -/
def usedEnumNames (m : DataModel) : List String :=
  Names.distinct (enumUses m (m.entities.flatMap Entity.scalarFields))

theorem enumUses_append (m : DataModel) (fields more : List Field) :
    enumUses m (fields ++ more) = enumUses m fields ++ enumUses m more := by
  simp [enumUses]

theorem enumUses_singleton (m : DataModel) (f : Field) :
    enumUses m [f] = if UsesEnum m f then [f.typeName] else [] := by
  unfold enumUses
  by_cases h : UsesEnum m f <;> simp [h]

theorem mem_enumUses {m : DataModel} {fields : List Field} {name : String} :
    name ∈ enumUses m fields ↔ ∃ f ∈ fields, UsesEnum m f ∧ f.typeName = name := by
  simp [enumUses, and_assoc]

section Indexed

variable {m : DataModel} (hm : m.IsIndexed)

include hm

/-- The values that the default expression looks up are those of a declaration that has some. -/
theorem enumValuesOf_eq_some {f : Field} {values : List String} :
    enumValuesOf m.enumValues f = some values ↔
      f.kind = .enumeration ∧ ⟨f.typeName, values⟩ ∈ m.enums ∧ values ≠ [] := by
  unfold enumValuesOf
  by_cases hkind : f.isEnum
  · rw [if_pos hkind, Option.filter_eq_some_iff, hm.enumValues_eq_some]
    have : f.kind = .enumeration := by simpa [Field.isEnum] using hkind
    simp [this]
  · rw [if_neg hkind]
    have : f.kind ≠ .enumeration := by simpa [Field.isEnum] using hkind
    simp [this]

/-- The pass looks at a field exactly as `UsesEnum` does. -/
theorem usedEnum?_eq_some {f : Field} {name : String} {values : List String} :
    usedEnum? m.enumValues f = some (name, values) ↔
      UsesEnum m f ∧ f.typeName = name ∧ m.enumValues name = some values := by
  unfold usedEnum? UsesEnum
  cases hoverride : overrideOf f with
  | some text => simp
  | none =>
    simp only [Option.map_eq_some_iff, enumValuesOf_eq_some hm, Prod.mk.injEq,
      hm.enumValues_eq_some]
    constructor
    · rintro ⟨_, ⟨hkind, hmem, hne⟩, rfl, rfl⟩
      exact ⟨⟨hkind, trivial, _, hmem, rfl, hne⟩, rfl, hmem⟩
    · rintro ⟨⟨hkind, -, d, hd, hname, hne⟩, rfl, hmem⟩
      have heq : d = ⟨f.typeName, values⟩ :=
        List.inj_on_of_nodup_map hm.enumNames hd hmem hname
      rw [heq] at hne
      exact ⟨values, ⟨hkind, hmem, hne⟩, rfl, rfl⟩

theorem usedEnum?_eq_none {f : Field} : usedEnum? m.enumValues f = none ↔ ¬ UsesEnum m f := by
  rw [Option.eq_none_iff_forall_ne_some]
  constructor
  · rintro h ⟨hkind, hoverride, d, hd, hname, hne⟩
    refine h (f.typeName, d.values) ((usedEnum?_eq_some hm).mpr
      ⟨⟨hkind, hoverride, d, hd, hname, hne⟩, rfl, hm.enumValues_eq_some.mpr ?_⟩)
    rw [← hname]
    exact hd
  · rintro h ⟨name, values⟩ hsome
    exact h ((usedEnum?_eq_some hm).mp hsome).1

end Indexed

/-! ## The memory of a pass -/

namespace Pass

/-- The pass has met the uses `uses`, in this order: it holds each enumeration once, at its first
use, with the values that the model declares. -/
def HasMet (m : DataModel) (p : Pass) (uses : List String) : Prop :=
  p.enumUsage = (Names.distinct uses).map fun name => (name, (m.enumValues name).getD [])

theorem HasMet.empty (m : DataModel) : Pass.empty.HasMet m [] := rfl

theorem HasMet.usesEnum {m : DataModel} {p : Pass} {uses : List String} (h : p.HasMet m uses)
    (name : String) : p.usesEnum name = decide (name ∈ uses) := by
  unfold Pass.usesEnum
  rw [h, List.any_map, Bool.eq_iff_iff]
  simp [Names.mem_distinct]

/-- One use: an enumeration that is known already stays as it is. -/
theorem HasMet.recordEnum {m : DataModel} {p : Pass} {uses : List String} (h : p.HasMet m uses)
    {name : String} {values : List String} (hvalues : m.enumValues name = some values) :
    (p.recordEnum name values).HasMet m (uses ++ [name]) := by
  unfold HasMet Pass.recordEnum
  rw [h.usesEnum, Names.distinct_concat]
  by_cases hmem : name ∈ uses
  · rw [if_pos (by simpa using hmem), if_pos hmem]
    exact h
  · rw [if_neg (by simpa using hmem), if_neg hmem, h, List.map_append, List.map_singleton, hvalues]
    rfl

/-- One field: an override, an unknown or an empty enumeration leaves no trace. -/
theorem HasMet.recordField {m : DataModel} (hm : m.IsIndexed) {p : Pass} {uses : List String}
    (h : p.HasMet m uses) (f : Field) :
    (p.recordField m.enumValues f).HasMet m (uses ++ enumUses m [f]) := by
  unfold Pass.recordField
  rw [enumUses_singleton]
  cases hused : usedEnum? m.enumValues f with
  | none =>
    rw [if_neg ((usedEnum?_eq_none hm).mp hused), List.append_nil]
    exact h
  | some entry =>
    obtain ⟨name, values⟩ := entry
    obtain ⟨huses, rfl, hvalues⟩ := (usedEnum?_eq_some hm).mp hused
    rw [if_pos huses]
    exact h.recordEnum hvalues

theorem HasMet.recordFields {m : DataModel} (hm : m.IsIndexed) (fields : List Field) {p : Pass}
    {uses : List String} (h : p.HasMet m uses) :
    (p.recordFields m.enumValues fields).HasMet m (uses ++ enumUses m fields) := by
  induction fields generalizing p uses with
  | nil => simpa [enumUses, Pass.recordFields] using h
  | cons f rest ih =>
    have hrest := ih (h.recordField hm f)
    rwa [List.append_assoc, ← enumUses_append] at hrest

/-- One entity: what counts are its scalar fields, in order. -/
theorem HasMet.emit {m : DataModel} (hm : m.IsIndexed) (s : Settings) {p : Pass}
    {uses : List String} (h : p.HasMet m uses) (e : Entity) :
    (p.emit m s e).HasMet m (uses ++ enumUses m e.scalarFields) := by
  unfold HasMet
  rw [enumUsage_emit]
  exact h.recordFields hm e.scalarFields

/-- A run of entities. -/
theorem HasMet.emitAll {m : DataModel} (hm : m.IsIndexed) (s : Settings) (entities : List Entity)
    {p : Pass} {uses : List String} (h : p.HasMet m uses) :
    (p.emitAll m s entities).HasMet m
      (uses ++ enumUses m (entities.flatMap Entity.scalarFields)) := by
  induction entities generalizing p uses with
  | nil => simpa [enumUses] using h
  | cons e rest ih =>
    have hrest := ih (h.emit hm s e)
    rwa [List.append_assoc, ← enumUses_append, ← List.flatMap_cons] at hrest

end Pass

/-- **What a pass remembers**: the enumerations used by the fields, in the order of first use. -/
theorem enumUsage_runPass {m : DataModel} (hm : m.IsIndexed) (s : Settings) :
    (runPass m s).enumUsage =
      (usedEnumNames m).map fun name => (name, (m.enumValues name).getD []) :=
  (Pass.HasMet.empty m).emitAll hm s m.entities

theorem mem_usedEnumNames {m : DataModel} {name : String} :
    name ∈ usedEnumNames m ↔
      ∃ e ∈ m.entities, ∃ f ∈ e.scalarFields, UsesEnum m f ∧ f.typeName = name := by
  rw [usedEnumNames, Names.mem_distinct, mem_enumUses]
  simp only [List.mem_flatMap]
  constructor
  · rintro ⟨f, ⟨e, he, hf⟩, huse⟩
    exact ⟨e, he, f, hf, huse⟩
  · rintro ⟨e, he, f, hf, huse⟩
    exact ⟨f, ⟨e, he, hf⟩, huse⟩

/-- A used enumeration is declared. -/
theorem exists_mem_enums_of_mem_usedEnumNames {m : DataModel} {name : String}
    (h : name ∈ usedEnumNames m) : ∃ values, ⟨name, values⟩ ∈ m.enums := by
  obtain ⟨-, -, f, -, ⟨-, -, d, hd, hname, -⟩, rfl⟩ := mem_usedEnumNames.mp h
  exact ⟨d.values, hname ▸ hd⟩

/-- An entry of the memory is a declaration that some field uses. -/
theorem mem_enumUsage_runPass {m : DataModel} (hm : m.IsIndexed) (s : Settings) {name : String}
    {values : List String} :
    (name, values) ∈ (runPass m s).enumUsage ↔
      name ∈ usedEnumNames m ∧ ⟨name, values⟩ ∈ m.enums := by
  rw [enumUsage_runPass hm, List.mem_map]
  constructor
  · rintro ⟨other, hused, heq⟩
    obtain ⟨declared, hdeclared⟩ := exists_mem_enums_of_mem_usedEnumNames hused
    rw [hm.enumValues_eq_some.mpr hdeclared] at heq
    cases heq
    exact ⟨hused, hdeclared⟩
  · rintro ⟨hused, hdeclared⟩
    exact ⟨name, hused, by rw [hm.enumValues_eq_some.mpr hdeclared]; rfl⟩

/-! ## Default expressions -/

/-- The expressions of the scalar types and the fallbacks all end with a parenthesis. -/
theorem getLast?_scalarExpression (type : String) :
    ((scalarExpressions.lookup type).getD fallbackExpression).toList.getLast? = some ')' := by
  have hall : ∀ entry ∈ scalarExpressions, entry.2.toList.getLast? = some ')' := by decide
  cases hlookup : scalarExpressions.lookup type with
  | none => decide
  | some text =>
    have hmem : (type, text) ∈ scalarExpressions := by
      obtain ⟨l, r, heq, -⟩ := List.lookup_eq_some_iff.mp hlookup
      rw [heq]
      simp
    exact hall _ hmem

theorem toList_enumSchemaName (name : String) :
    (enumSchemaName name).toList = name.toList ++ "Schema".toList := String.toList_append

theorem enumSchemaName_inj {name other : String} :
    enumSchemaName name = enumSchemaName other ↔ name = other := by
  rw [← String.toList_inj, toList_enumSchemaName, toList_enumSchemaName, List.append_left_inj,
    String.toList_inj]

/-- The schema of an enumeration is not mistaken for another expression. -/
theorem enumSchemaName_ne {text : String} (h : text.toList.getLast? = some ')') (name : String) :
    text ≠ enumSchemaName name := by
  rintro rfl
  have hlast : "Schema".toList.getLast? = some 'a' := by decide
  rw [toList_enumSchemaName, List.getLast?_append, hlast] at h
  cases h

/-- The default mapping puts the schema of an enumeration into exactly those fields without an
override that use the enumeration. -/
theorem baseExpression_eq_enumSchemaName_iff {m : DataModel} (hm : m.IsIndexed) {f : Field}
    (hoverride : overrideOf f = none) {name : String} :
    baseExpression m.enumValues f = (enumSchemaName name).toList ↔
      UsesEnum m f ∧ f.typeName = name := by
  have huses : UsesEnum m f ↔ (enumValuesOf m.enumValues f).isSome := by
    rw [← not_iff_not, ← usedEnum?_eq_none hm, usedEnum?, hoverride]
    simp
  unfold baseExpression defaultExpression
  rw [hoverride, Option.getD_none, String.toList_inj, huses]
  cases hvalues : enumValuesOf m.enumValues f with
  | some values =>
    have hkind : f.isEnum = true := by
      simpa [Field.isEnum] using ((enumValuesOf_eq_some hm).mp hvalues).1
    rw [if_pos hkind]
    simpa using enumSchemaName_inj
  | none =>
    -- without values the expression is one of the scalar ones, and those end with a parenthesis
    simp only [Option.isSome_none, Bool.false_eq_true, false_and, iff_false]
    split
    · exact enumSchemaName_ne (by decide) name
    · exact enumSchemaName_ne (getLast?_scalarExpression f.typeName) name

/-! ## The document -/

/-- The lines that belong to the enumerations of a document: none but a blank one when no
enumeration is used. -/
def enumSection (usage : List (String × List String)) : List String :=
  [""] ++
    if usage.isEmpty then []
    else (usage.map fun (name, values) => enumLine name values) ++ [""]

theorem mem_enumSection {usage : List (String × List String)} {name : String}
    {values : List String} :
    enumLine name values ∈ enumSection usage ↔
      ∃ entry ∈ usage, enumLine entry.1 entry.2 = enumLine name values := by
  have hne : enumLine name values ≠ "" := by
    intro h
    have := congrArg String.toList h
    rw [toList_enumLine] at this
    simp at this
  unfold enumSection
  cases usage with
  | nil => simp [hne]
  | cons entry rest => simp [hne, @eq_comm _ (enumLine name values)]

/-- **Enumerations of a document.** For an accepted model, a pass remembers exactly the enumerations
that the fields use, in the order of first use and with their declared values. The document lists
them in this order between the imports and the helpers, one line for each: every enumeration that
the default mapping refers to has its line there, and one that no field uses has none. -/
theorem enumerations_follow_first_use {description : Value} {m : DataModel}
    (accepted : DataModel.decode description = .accepted m) (s : Settings) :
    let usage := (runPass m s).enumUsage
    usage.map Prod.fst =
        Names.distinct (((m.entities.flatMap Entity.scalarFields).filter fun f =>
          UsesEnum m f).map Field.typeName) ∧
      (∀ entry ∈ usage, ⟨entry.1, entry.2⟩ ∈ m.enums) ∧
      documentLines s (runPass m s) =
        importLines s ++ enumSection usage ++ helperLines (indentUnit s) ++ headerLines s ++
          (runPass m s).lines ∧
      (∀ e ∈ m.entities, ∀ f ∈ e.scalarFields, ∀ name, overrideOf f = none →
        baseExpression m.enumValues f = (enumSchemaName name).toList →
        ∃ values, ⟨name, values⟩ ∈ m.enums ∧ enumLine name values ∈ enumSection usage) ∧
      ∀ d ∈ m.enums, (∀ e ∈ m.entities, ∀ f ∈ e.scalarFields,
          ¬ (UsesEnum m f ∧ f.typeName = d.name)) →
        enumLine d.name d.values ∉ enumSection usage := by
  intro usage
  have hm := DataModel.IsIndexed.of_decode accepted
  refine ⟨?_, ?_, ?_, ?_, ?_⟩
  · show (runPass m s).enumUsage.map Prod.fst = usedEnumNames m
    rw [enumUsage_runPass hm, List.map_map]
    exact List.map_id _
  · rintro ⟨name, values⟩ hentry
    exact ((mem_enumUsage_runPass hm s).mp hentry).2
  · unfold documentLines enumSection
    simp only [enumLines, List.append_assoc]
    rfl
  · intro e he f hf name hoverride hbase
    have huse := (baseExpression_eq_enumSchemaName_iff hm hoverride).mp hbase
    have hname : name ∈ usedEnumNames m := mem_usedEnumNames.mpr ⟨e, he, f, hf, huse⟩
    obtain ⟨values, hvalues⟩ := exists_mem_enums_of_mem_usedEnumNames hname
    have hentry := (mem_enumUsage_runPass hm s).mpr ⟨hname, hvalues⟩
    exact ⟨values, hvalues, mem_enumSection.mpr ⟨_, hentry, rfl⟩⟩
  · intro d _ hunused hline
    -- a line with the name of an unused enumeration would be the line of a used one
    obtain ⟨⟨name, values⟩, hentry, heq⟩ := mem_enumSection.mp hline
    have hname : name = d.name := name_eq_of_enumLine_eq heq
    have hused := ((mem_enumUsage_runPass hm s).mp hentry).1
    obtain ⟨e, he, f, hf, huse⟩ := mem_usedEnumNames.mp hused
    exact hunused e he f hf ⟨huse.1, huse.2.trans hname⟩

/-- The forum uses one enumeration in two entities, and leaves the other one out. -/
theorem forum_uses_role :
    DataModel.decode Sample.description = .accepted Sample.forum ∧
      (runPass Sample.forum Settings.default).enumUsage.map Prod.fst = ["Role"] := by
  have usage := enumerations_follow_first_use Sample.decode_description Settings.default
  refine ⟨Sample.decode_description, usage.1.trans ?_⟩
  decide +kernel

end Schema

end ModelSchemas
