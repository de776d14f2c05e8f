import ModelSchemas.Proofs.Model.AcceptedEntities

/-!
# Kinds that are left open

A description may leave the kind of a field open, and the field is then a scalar. Two objects
declare the same when they differ at most in whether such kinds are written out.
-/

namespace ModelSchemas

/-- The field with its kind written out: a field that leaves its kind open is a scalar. -/
def Field.explicit (f : Field) : Field := { f with declaredKind := some f.kind }

theorem Field.explicit_of_isRelation {f : Field} (h : f.isRelation) : f.explicit = f := by
  unfold isRelation kind at h
  unfold explicit kind
  cases hkind : f.declaredKind with
  | none => simp [hkind] at h
  | some kind => rw [Option.getD_some, ← hkind]

namespace Entity

/-- Two entities declare the same. An open kind and a scalar are the same, and what the indexes hold
does not matter. -/
structure SameDeclaration (e₁ e₂ : Entity) : Prop where
  name : e₁.name = e₂.name
  fields : e₁.fields.map Field.explicit = e₂.fields.map Field.explicit
  primaryKey : e₁.primaryKey = e₂.primaryKey
  uniqueIndexes : e₁.uniqueIndexes = e₂.uniqueIndexes
  documentation : e₁.documentation = e₂.documentation

/-- The entity with the kinds of its fields written out. -/
def explicit (e : Entity) : Entity :=
  { e with fields := e.fields.map Field.explicit, indexed := e.indexed.map Field.explicit }

/-- Up-to-date entities that declare the same come to the same in this form. -/
theorem SameDeclaration.explicit_eq {e₁ e₂ : Entity} (h : e₁.SameDeclaration e₂)
    (h₁ : e₁.IsIndexed) (h₂ : e₂.IsIndexed) : e₁.explicit = e₂.explicit := by
  unfold explicit
  rw [h₁.fields, h₂.fields, h.fields, h.name, h.primaryKey, h.uniqueIndexes, h.documentation]

theorem scalarFields_explicit (e : Entity) :
    e.explicit.scalarFields = e.scalarFields.map Field.explicit := List.filter_map

theorem relationFields_explicit (e : Entity) : e.explicit.relationFields = e.relationFields := by
  have hmap : e.explicit.relationFields = e.relationFields.map Field.explicit := List.filter_map
  have hsame : ∀ f ∈ e.relationFields, f.explicit = f :=
    fun f hf => Field.explicit_of_isRelation (List.mem_filter.mp hf).2
  rw [hmap, List.map_congr_left hsame, List.map_id']

theorem listRelationFields_eq_filter (e : Entity) :
    e.listRelationFields = e.relationFields.filter Field.isList := by
  rw [relationFields, List.filter_filter, listRelationFields]
  simp only [Bool.and_comm]

theorem getField_explicit (e : Entity) (name : String) :
    e.explicit.getField name = (e.getField name).map Field.explicit := List.find?_map ..

end Entity

end ModelSchemas
