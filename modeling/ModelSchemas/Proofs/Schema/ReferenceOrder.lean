import ModelSchemas.Proofs.Schema.PassRun

/-!
# References between filters

A filter refers to the filter of a related entity in one of four forms. Which one is decided by the
order of declaration alone: the names that a pass has emitted when an entity has its turn are those
of the entities declared before it. A filter that is bound directly is therefore always declared
further up in the document.
-/

namespace ModelSchemas

namespace Schema

open Document

/-! ## The filter that the order of declaration asks for -/

/-- The filter of a relation field, where `earlier` holds the names of the entities declared before
the owner. -/
def orderedFilter (alwaysLazy : Bool) (earlier : List String) (owner : String) (f : Field) :
    String :=
  let target := Part.filter.constant f.typeName
  if f.isList then s!"whereRelationLazy(() => {target})"
  else if !alwaysLazy && earlier.contains f.typeName then target
  else
    let deferred := s!"z.lazy(() => {target})"
    if f.typeName = owner then s!"{deferred} as z.ZodType<{clientFilterType owner f.name}>"
    else deferred

/-- The line that declares the filter of an entity under its public name. -/
def filterDeclaration (entity : String) : String :=
  let filter := Part.filter.constant entity
  let body := Part.filterBody.constant entity
  s!"export const {filter}: z.ZodType<Prisma.{entity}WhereInput> = {lazyReference body};"

/-- The filter of an entity, with `fragment` as the filters of its relation fields. -/
def filterSchemaWith (unit : String) (fragment : Field → String) (e : Entity) : List String :=
  let self := lazyReference (Part.filter.constant e.name)
  [filterDeclaration e.name, "", s!"const {Part.filterBody.constant e.name} = z.object(\x7b"] ++
    (e.scalarFields.map fun f => s!"{unit}{f.name}: {scalarFilter e.name f},") ++
    (e.relationFields.map fun f => s!"{unit}{f.name}: {fragment f},") ++
    [s!"{unit}AND: z.union([{self}, {self}.array()]),", s!"{unit}OR: {self}.array(),",
      s!"{unit}NOT: z.union([{self}, {self}.array()]),", "\x7d).partial().strip();", ""]

theorem filterSchema_eq_filterSchemaWith (p : Pass) (alwaysLazy : Bool) (unit : String)
    (e : Entity) :
    filterSchema p alwaysLazy unit e =
      filterSchemaWith unit (relationFilter p alwaysLazy e.name) e := rfl

theorem filterSchemaWith_congr {unit : String} {fragment other : Field → String} {e : Entity}
    (h : ∀ f ∈ e.relationFields, fragment f = other f) :
    filterSchemaWith unit fragment e = filterSchemaWith unit other e := by
  have hlines : (e.relationFields.map fun f => s!"{unit}{f.name}: {fragment f},") =
      e.relationFields.map fun f => s!"{unit}{f.name}: {other f}," :=
    List.map_congr_left fun f hf => by rw [h f hf]
  unfold filterSchemaWith
  rw [hlines]

/-! ## The decision of the pass -/

section Decision

variable {p : Pass} {earlier : List String} {owner : String}
  (hp : ∀ name, p.isEmitted name = earlier.contains name) (howner : owner ∉ earlier)

include hp howner

/-- A pass that has emitted exactly the `earlier` names binds the references to them. The owner is
not among them, so a reference to itself is deferred either way. -/
theorem filterReference_eq (alwaysLazy : Bool) (f : Field) :
    filterReference p alwaysLazy owner f =
      if f.isList then .many
      else if !alwaysLazy && earlier.contains f.typeName then .bound
      else .deferred := by
  have hself : f.typeName = owner → earlier.contains f.typeName = false := by
    intro h
    simpa [h] using howner
  unfold filterReference needsLazy
  rw [hp]
  by_cases h : f.typeName = owner
  · rw [hself h]
    simp [h]
  · cases alwaysLazy <;> cases earlier.contains f.typeName <;> simp [h]

theorem relationFilter_eq_orderedFilter (alwaysLazy : Bool) (f : Field) :
    relationFilter p alwaysLazy owner f = orderedFilter alwaysLazy earlier owner f := by
  unfold relationFilter orderedFilter
  rw [filterReference_eq hp howner]
  split
  · rfl
  · split
    · rename_i hbound
      have hne : f.typeName ≠ owner := by
        intro h
        simp [h, howner] at hbound
      exact if_neg hne
    · rfl

end Decision

/-- A text that goes on around a name is not the name. -/
theorem wrapped_ne {lead name tail : String} (hlead : 0 < lead.length) :
    lead ++ (name ++ tail) ≠ name := by
  intro h
  have hlength := congrArg String.length h
  simp only [String.length_append] at hlength
  omega

/-- The filter is the bare constant exactly for a single reference to an earlier entity, unless all
references are to be deferred. -/
theorem orderedFilter_eq_constant_iff {alwaysLazy : Bool} {earlier : List String} {owner : String}
    {f : Field} :
    orderedFilter alwaysLazy earlier owner f = Part.filter.constant f.typeName ↔
      f.isList = false ∧ alwaysLazy = false ∧ f.typeName ∈ earlier := by
  have hmany : 0 < ("whereRelationLazy(() => " : String).length := by decide
  have hlazy : 0 < ("z.lazy(() => " : String).length := by decide
  unfold orderedFilter
  constructor
  · intro h
    simp only at h
    split at h
    · rw [String.append_assoc] at h
      exact absurd h (wrapped_ne hmany)
    · rename_i hlist
      split at h
      · rename_i hbound
        simp only [Bool.and_eq_true, Bool.not_eq_true', List.contains_iff_mem] at hbound
        exact ⟨by simpa using hlist, hbound⟩
      · split at h
        · simp only [toString, String.append_assoc] at h
          exact absurd h (wrapped_ne hlazy)
        · rw [String.append_assoc] at h
          exact absurd h (wrapped_ne hlazy)
  · rintro ⟨hlist, hlazy, hmem⟩
    simp [hlist, hlazy, hmem]

/-! ## The whole document -/

/-- When an entity has its turn, exactly the names of the entities before it have been emitted. -/
theorem isEmitted_before (m : DataModel) (s : Settings) (before : List Entity) (name : String) :
    (Pass.empty.emitAll m s before).isEmitted name = (before.map Entity.name).contains name := by
  rw [Pass.isEmitted_emitAll]
  rfl

/-- An entity is not declared a second time before itself. -/
theorem name_not_mem_before {m : DataModel} (hm : m.IsIndexed) {before after : List Entity}
    {e : Entity} (split : m.entities = before ++ e :: after) : e.name ∉ before.map Entity.name := by
  have hnodup := hm.entityNames
  rw [DataModel.entityNames, split, List.map_append, List.map_cons] at hnodup
  intro hmem
  exact (List.nodup_append.mp hnodup).2.2 e.name hmem e.name List.mem_cons_self rfl

/-- The filter stands in the block of its entity in one piece. -/
theorem exists_entityBlock_filter (m : DataModel) (s : Settings) (p : Pass) (e : Entity) :
    ∃ head tail, entityBlock m s p e =
      head ++ filterSchemaWith (indentUnit s) (relationFilter p s.alwaysLazyReferences e.name) e ++
        tail := by
  refine ⟨[s!"// {e.name}"] ++ objectSchema m.enumValues (indentUnit s) e,
    uniqueFilterSchema s.indentSize (indentUnit s) e ++ includeSchema (indentUnit s) e ++
      createInputSchema m (indentUnit s) e ++ updateInputSchema e ++
      argumentSchemas (indentUnit s) e, ?_⟩
  simp only [entityBlock, filterSchema_eq_filterSchemaWith, List.append_assoc]

/-- The block of an entity declares its filter. -/
theorem filterDeclaration_mem_entityBlock (m : DataModel) (s : Settings) (p : Pass) (e : Entity) :
    filterDeclaration e.name ∈ entityBlock m s p e := by
  obtain ⟨head, tail, hblock⟩ := exists_entityBlock_filter m s p e
  rw [hblock]
  simp [filterSchemaWith]

/-- The filters of the entities of a run are declared in the lines that it leaves. -/
theorem filterDeclaration_mem_emitAll {m : DataModel} {s : Settings} {entities : List Entity}
    {name : String} (h : name ∈ entities.map Entity.name) (p : Pass) :
    filterDeclaration name ∈ (p.emitAll m s entities).lines := by
  obtain ⟨e, he, rfl⟩ := List.mem_map.mp h
  obtain ⟨q, hq⟩ := Pass.exists_block_of_mem (m := m) (s := s) he p
  exact hq _ (filterDeclaration_mem_entityBlock m s q e)

/-- **Reference order.** In an accepted model, each relation field of an entity gets the filter that
the order of declaration asks for, in the pass and in the filter body of the document; it is the
bare constant exactly for a single reference to an earlier entity while references may be bound, and
then the filter that it refers to is declared further up. -/
theorem filters_follow_declaration_order {description : Value} {m : DataModel}
    (accepted : DataModel.decode description = .accepted m) (s : Settings)
    {before after : List Entity} {e : Entity} (split : m.entities = before ++ e :: after) :
    let earlier := before.map Entity.name
    let fragment := orderedFilter s.alwaysLazyReferences earlier e.name
    (∀ f ∈ e.relationFields,
      relationFilter (Pass.empty.emitAll m s before) s.alwaysLazyReferences e.name f =
        fragment f) ∧
    (∀ f ∈ e.relationFields, fragment f = Part.filter.constant f.typeName ↔
      f.isList = false ∧ s.alwaysLazyReferences = false ∧ f.typeName ∈ earlier) ∧
    ∃ lead rest, documentLines s (runPass m s) =
        lead ++ filterSchemaWith (indentUnit s) fragment e ++ rest ∧
      ∀ f ∈ e.relationFields, fragment f = Part.filter.constant f.typeName →
        filterDeclaration f.typeName ∈ lead := by
  intro earlier fragment
  have hm := DataModel.IsIndexed.of_decode accepted
  have hfragment : ∀ f,
      relationFilter (Pass.empty.emitAll m s before) s.alwaysLazyReferences e.name f =
        fragment f :=
    relationFilter_eq_orderedFilter (isEmitted_before m s before) (name_not_mem_before hm split) _
  refine ⟨fun f _ => hfragment f, fun f _ => orderedFilter_eq_constant_iff, ?_⟩
  -- the lines in front of the filter body hold the blocks of all earlier entities
  obtain ⟨head, rest, hdocument⟩ := exists_documentLines_runPass s split
  obtain ⟨blockHead, blockTail, hblock⟩ :=
    exists_entityBlock_filter m s (Pass.empty.emitAll m s before) e
  refine ⟨head ++ (Pass.empty.emitAll m s before).lines ++ blockHead, blockTail ++ rest, ?_, ?_⟩
  · rw [hdocument, hblock, filterSchemaWith_congr fun f _ => hfragment f]
    simp only [List.append_assoc]
  · intro f _ hbound
    have hearlier : f.typeName ∈ earlier := (orderedFilter_eq_constant_iff.mp hbound).2.2
    have hdeclared := filterDeclaration_mem_emitAll (m := m) (s := s) hearlier Pass.empty
    simp only [List.mem_append]
    exact .inl (.inr hdeclared)

/-- In the forum the author of a post is bound, as users are declared before posts. -/
theorem post_author_is_bound :
    DataModel.decode Sample.description = .accepted Sample.forum ∧
      Sample.forum.entities = [Sample.user] ++ Sample.post :: [] ∧
      relationFilter (Pass.empty.emitAll Sample.forum Settings.default [Sample.user])
        Settings.default.alwaysLazyReferences Sample.post.name
        (Sample.field "author" .relation "User" false) = "UserWhereInputSchema" := by
  have split : Sample.forum.entities = [Sample.user] ++ Sample.post :: [] := rfl
  refine ⟨Sample.decode_description, split, ?_⟩
  have order := filters_follow_declaration_order Sample.decode_description Settings.default split
  rw [order.1 _ (by decide)]
  decide +kernel

end Schema

end ModelSchemas
