import ModelSchemas.Proofs.Expression.Modifiers
import ModelSchemas.Proofs.Model.Acceptance
import ModelSchemas.Schema.FieldExpression

/-!
# Modifiers of a field

The expression of a field says of itself all that the field asks for: a list is found to be one, and
null and absence are found to be admitted where the field admits them, whatever its documentation
has put in the place of the default. So adding a modifier once more adds nothing.
-/

namespace ModelSchemas

namespace Schema

open Expression

section

variable (f : Field) (expression : Text)

/-- A list, or nothing, is made of the expression, and null is admitted at most once. -/
theorem withCardinality_cases :
    ∃ core null : Text, withCardinality f expression = core ++ null ∧
      (core = expression ∨ core = "z.array(" ++ expression ++ ")") ∧
      (null = [] ∨ null = ".nullable()") ∧ (f.isList → null = []) := by
  unfold withCardinality ensureArray ensureNullable
  split_ifs with hlist harray hrequired hnull
  · exact ⟨expression, [], by simp, .inl rfl, .inl rfl, fun _ => rfl⟩
  · exact ⟨_, [], (List.append_nil _).symm, .inr rfl, .inl rfl, fun _ => rfl⟩
  · exact ⟨expression, [], by simp, .inl rfl, .inl rfl, fun _ => rfl⟩
  · exact ⟨expression, [], by simp, .inl rfl, .inl rfl, fun _ => rfl⟩
  · exact ⟨expression, _, rfl, .inl rfl, .inr rfl, fun h => absurd h hlist⟩

/-- Absence is admitted at most once. -/
theorem withOptionality_cases :
    ∃ absence : Text, withOptionality f expression = expression ++ absence ∧
      (absence = [] ∨ absence = ".optional()") := by
  unfold withOptionality ensureOptional
  split_ifs
  · exact ⟨[], by simp, .inl rfl⟩
  · exact ⟨_, rfl, .inr rfl⟩
  · exact ⟨[], by simp, .inl rfl⟩

variable {f expression}

theorem isArray_withOptionality (h : isArray expression) :
    isArray (withOptionality f expression) := by
  unfold withOptionality
  split_ifs
  · exact isArray_ensureOptional h
  · exact h

theorem isNullable_withOptionality (h : isNullable expression) :
    isNullable (withOptionality f expression) := by
  unfold withOptionality
  split_ifs
  · exact isNullable_ensureOptional h
  · exact h

end

/-- **Saturation.** Each helper adds its modifier at most once, to any text. The expression of a
field is the override or the default, as a list if it was to be made one, then with null and then
with absence admitted at most once each. It is found to be a list if the field is one, to which null
is never added; otherwise to admit null if the field is not required. It is found to admit absence
if the field is not required or has a default value, and a field that asks for nothing has just its
override or default. None of this depends on what else has been built. -/
theorem modifiers_saturate :
    (∀ e : Text, isArray (ensureArray e) ∧ ensureArray (ensureArray e) = ensureArray e ∧
      ensureNullable (ensureNullable e) = ensureNullable e ∧
      ensureOptional (ensureOptional e) = ensureOptional e) ∧
    ∀ (enums : EnumLookup) (f : Field),
      let base : Text := (overrideOf f).getD (defaultExpression enums f).toList
      let expression : Text := fieldExpression enums f
      (∃ core null absence : Text, expression = core ++ null ++ absence ∧
        (core = base ∨ core = "z.array(" ++ base ++ ")") ∧
        (null = [] ∨ null = ".nullable()") ∧ (absence = [] ∨ absence = ".optional()") ∧
        (f.isList → null = [])) ∧
      (f.isList → isArray expression) ∧
      (¬f.isList → ¬f.isRequired → ensureNullable expression = expression) ∧
      (¬f.isRequired ∨ f.hasDefaultValue → ensureOptional expression = expression) ∧
      (¬f.isList → f.isRequired → ¬f.hasDefaultValue → expression = base) := by
  refine ⟨fun e => ⟨isArray_ensureArray e, ensureArray_of_isArray (isArray_ensureArray e),
    ensureNullable_of_isNullable (isNullable_ensureNullable e),
    ensureOptional_of_endsOptional (endsOptional_ensureOptional e)⟩, ?_⟩
  intro enums f base expression
  have hexpression : expression = withOptionality f (withCardinality f base) := rfl
  refine ⟨?_, ?_, ?_, ?_, ?_⟩
  · obtain ⟨core, null, hcardinality, hcore, hnull, hlist⟩ := withCardinality_cases f base
    obtain ⟨absence, hoptionality, habsence⟩ := withOptionality_cases f (withCardinality f base)
    refine ⟨core, null, absence, ?_, hcore, hnull, habsence, hlist⟩
    rw [hexpression, hoptionality, hcardinality]
  · intro hlist
    have harray : isArray (withCardinality f base) := by
      rw [withCardinality, if_pos hlist]
      exact isArray_ensureArray base
    exact isArray_withOptionality harray
  · intro hlist hrequired
    have hnullable : isNullable (withCardinality f base) := by
      rw [withCardinality, if_neg hlist, if_neg hrequired]
      exact isNullable_ensureNullable base
    exact ensureNullable_of_isNullable (isNullable_withOptionality hnullable)
  · intro hasks
    have hoptional : f.isOptional := by
      rcases hasks with hrequired | hdefault
      · simp [Field.isOptional, hrequired]
      · simp [Field.isOptional, hdefault]
    refine ensureOptional_of_endsOptional ?_
    rw [hexpression, withOptionality, if_pos hoptional]
    exact endsOptional_ensureOptional _
  · intro hlist hrequired hdefault
    have hoptional : ¬f.isOptional := by simp [Field.isOptional, hrequired, hdefault]
    rw [hexpression, withOptionality, if_neg hoptional, withCardinality, if_neg hlist,
      if_pos hrequired]

end Schema

/-- A field of texts that overrides its expression with a text that leaves a parenthesis open. -/
def Sample.openField (isList isRequired : Bool) : Field :=
  { Sample.field "tags" .scalar "String" isList with
    isRequired, documentation := some "@zod.regex(" }

namespace Schema

open Expression

/-- An unbalanced override in a list that may be left out, in a single value that may, and in one
that must be given. -/
theorem open_fields_saturate :
    isArray (fieldExpression (fun _ => none) (Sample.openField true false)) ∧
      ensureOptional (fieldExpression (fun _ => none) (Sample.openField true false)) =
        fieldExpression (fun _ => none) (Sample.openField true false) ∧
      ensureNullable (fieldExpression (fun _ => none) (Sample.openField false false)) =
        fieldExpression (fun _ => none) (Sample.openField false false) ∧
      fieldExpression (fun _ => none) (Sample.openField false true) = ("z.regex(" : Text) := by
  have saturate := modifiers_saturate.2 fun _ => none
  obtain ⟨-, hlist, -, habsent, -⟩ := saturate (Sample.openField true false)
  obtain ⟨-, -, hnull, -, -⟩ := saturate (Sample.openField false false)
  obtain ⟨-, -, -, -, hbase⟩ := saturate (Sample.openField false true)
  refine ⟨hlist rfl, habsent (.inl (by decide)), hnull (by decide) (by decide), ?_⟩
  rw [hbase (by decide) rfl (by decide)]
  decide +kernel

end Schema

end ModelSchemas
