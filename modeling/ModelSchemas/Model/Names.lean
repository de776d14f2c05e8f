/-!
# Names

Lists of names in which each should occur once: which names occur more often, in code point order,
and the first occurrences.
-/

namespace ModelSchemas

namespace Names

/-- The names in code point order. -/
def sorted (names : List String) : List String := names.mergeSort fun a b => !(b < a)

/-- The names without later repetitions. -/
def distinct : List String → List String
  | [] => []
  | name :: rest => name :: (distinct rest).filter (· ≠ name)

/-- The names that occur more than once, in order. -/
def repeated (names : List String) : List String :=
  sorted (distinct (names.filter fun name => 1 < names.count name))

theorem mem_distinct {name : String} {names : List String} :
    name ∈ distinct names ↔ name ∈ names := by
  induction names with
  | nil => simp [distinct]
  | cons first rest ih =>
    by_cases h : name = first <;> simp [distinct, h, ih]

theorem nodup_distinct (names : List String) : (distinct names).Nodup := by
  induction names with
  | nil => simp [distinct]
  | cons first rest ih =>
    rw [distinct, List.nodup_cons]
    exact ⟨by simp, ih.sublist List.filter_sublist⟩

/-- A name at the end counts only if it has not occurred before. -/
theorem distinct_concat (names : List String) (name : String) :
    distinct (names ++ [name]) =
      if name ∈ names then distinct names else distinct names ++ [name] := by
  induction names with
  | nil => simp [distinct]
  | cons first rest ih =>
    rw [List.cons_append, distinct, ih, distinct]
    by_cases hrest : name ∈ rest
    · simp [hrest]
    · by_cases hfirst : name = first
      · subst hfirst
        simp [hrest]
      · simp [hrest, hfirst]

/-- No name is reported as repeated exactly when no name occurs twice. -/
theorem repeated_eq_nil {names : List String} : repeated names = [] ↔ names.Nodup := by
  have hmem : ∀ name, name ∈ repeated names ↔ name ∈ names ∧ 1 < names.count name := by
    intro name
    simp [repeated, sorted, mem_distinct]
  rw [List.nodup_iff_count, List.eq_nil_iff_forall_not_mem]
  constructor
  · intro h name
    rcases Nat.lt_or_ge 1 (names.count name) with hlt | hge
    · have : name ∈ names := List.count_pos_iff.mp (by omega)
      exact absurd ((hmem name).mpr ⟨this, hlt⟩) (h name)
    · exact hge
  · intro h name hname
    have := ((hmem name).mp hname).2
    have := h name
    omega

end Names

end ModelSchemas
