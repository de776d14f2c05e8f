import ModelSchemas.Proofs.Model.OpenKinds
import ModelSchemas.Proofs.Schema.EnumUsage
import ModelSchemas.Proofs.Schema.ReferenceOrder

/-!
# Locality of blocks

The block of an entity reads the entity itself and little else: whether an enumeration that a field
falls back on has values, the relation fields of the targets of its relations, and, unless all
references are deferred, whether a single target stands further up. Two models that agree on these
give the entity the same block, whatever else they hold and wherever the entity stands.
-/

namespace ModelSchemas

open Document

/-! ## A forum the other way round -/

namespace Sample

/-- The forum with posts declared before users. -/
def reversedForum : DataModel := ⟨enums, [post, user], [post, user], enums⟩

/-- The reversed forum as it is described. -/
def reversedDescription : Value :=
  .mapping [
    ("enums", .list [
      .mapping [("name", .str "Idle"), ("values", .list [.str "A"])],
      .mapping [("name", .str "Role"), ("values", .list [.str "ADMIN", .str "MEMBER"])]]),
    ("models", .list [
      .mapping [("name", .str "Post"), ("fields", .list [
        fieldDescription "author" "object" "User" false,
        fieldDescription "draft" "object" "Draft" false,
        fieldDescription "readers" "enum" "Role" true])],
      .mapping [("name", .str "User"), ("fields", .list [
        fieldDescription "role" "enum" "Role" false,
        fieldDescription "inviter" "object" "User" false,
        fieldDescription "posts" "object" "Post" true])]])]

theorem decode_reversedDescription :
    DataModel.decode reversedDescription = .accepted reversedForum :=
  Checked.eq_accepted_of_value? (by decide +kernel)

/-- Settings under which all references are deferred. -/
def lazySettings : Settings := { Settings.default with alwaysLazyReferences := true }

end Sample

namespace Schema

/-! ## The same block for an open kind -/

theorem objectSchema_explicit (enums : EnumLookup) (unit : String) (e : Entity) :
    objectSchema enums unit e.explicit = objectSchema enums unit e := by
  unfold objectSchema
  rw [Entity.scalarFields_explicit, List.map_map]
  rfl

theorem filterSchema_explicit (p : Pass) (alwaysLazy : Bool) (unit : String) (e : Entity) :
    filterSchema p alwaysLazy unit e.explicit = filterSchema p alwaysLazy unit e := by
  unfold filterSchema
  rw [Entity.scalarFields_explicit, Entity.relationFields_explicit, List.map_map]
  rfl

/-- A key names the same fields. -/
theorem mapM_getField_explicit (e : Entity) (names : List String) :
    names.mapM e.explicit.getField = (names.mapM e.getField).map (List.map Field.explicit) := by
  induction names with
  | nil => rfl
  | cons name rest ih =>
    rw [List.mapM_cons, List.mapM_cons, ih, Entity.getField_explicit]
    cases e.getField name with
    | none => rfl
    | some f =>
      cases rest.mapM e.getField with
      | none => rfl
      | some fields => rfl

theorem keptKeys_explicit (e : Entity) (seen : List (List String))
    (candidates : List KeyCandidate) :
    keptKeys e.explicit seen candidates =
      (keptKeys e seen candidates).map (List.map Field.explicit) := by
  induction candidates generalizing seen with
  | nil => rfl
  | cons candidate rest ih =>
    simp only [keptKeys, mapM_getField_explicit]
    split
    · exact ih seen
    · cases (Names.distinct candidate.names).mapM e.getField with
      | none => exact ih seen
      | some fields => exact congrArg (List.cons _) (ih _)

theorem keyCandidates_explicit (e : Entity) : keyCandidates e.explicit = keyCandidates e := by
  have hsingle : singleKeyNames e.explicit = singleKeyNames e := by
    unfold singleKeyNames Entity.explicit
    rw [List.filter_map, List.map_map]
    rfl
  unfold keyCandidates
  rw [hsingle]
  rfl

theorem uniqueFilterSchema_explicit (width : Int) (unit : String) (e : Entity) :
    uniqueFilterSchema width unit e.explicit = uniqueFilterSchema width unit e := by
  have hbranches : (uniqueCombos e.explicit).map (uniqueBranch unit e.explicit.name) =
      (uniqueCombos e).map (uniqueBranch unit e.name) := by
    unfold uniqueCombos
    rw [keyCandidates_explicit, keptKeys_explicit, List.map_map]
    refine List.map_congr_left fun fields _ => ?_
    simp only [Function.comp_apply, uniqueBranch, List.map_map]
    rfl
  unfold uniqueFilterSchema
  rw [hbranches]
  rfl

theorem includeSchema_explicit (unit : String) (e : Entity) :
    includeSchema unit e.explicit = includeSchema unit e := by
  unfold includeSchema countSelectLines
  rw [Entity.relationFields_explicit, Entity.listRelationFields_eq_filter,
    Entity.relationFields_explicit, ← Entity.listRelationFields_eq_filter]
  rfl

theorem createOmitted_explicit (e : Entity) : createOmitted e.explicit = createOmitted e := by
  unfold createOmitted Entity.foreignKeyNames
  rw [Entity.relationFields_explicit, Entity.scalarFields_explicit, List.filter_map, List.map_map]
  rfl

theorem createInputSchema_explicit (m : DataModel) (unit : String) (e : Entity) :
    createInputSchema m unit e.explicit = createInputSchema m unit e := by
  unfold createInputSchema
  rw [createOmitted_explicit, Entity.relationFields_explicit]
  rfl

/-- Writing the kinds out changes nothing in the block. -/
theorem entityBlock_explicit (m : DataModel) (s : Settings) (p : Pass) (e : Entity) :
    entityBlock m s p e.explicit = entityBlock m s p e := by
  simp only [entityBlock, objectSchema_explicit, filterSchema_explicit, uniqueFilterSchema_explicit,
    includeSchema_explicit, createInputSchema_explicit]
  rfl

/-! ## What a block reads of the model -/

/-- The model declares an enumeration of that name that has values. -/
def DeclaresValues (m : DataModel) (name : String) : Prop :=
  ∃ d ∈ m.enums, d.name = name ∧ d.values ≠ []

/-- Neither model declares an entity of that name, or both do so with the same relation fields. -/
def SameTarget (m₁ m₂ : DataModel) (name : String) : Prop :=
  (name ∉ m₁.entityNames ∧ name ∉ m₂.entityNames) ∨
    ∃ t₁ ∈ m₁.entities, ∃ t₂ ∈ m₂.entities, t₁.name = name ∧ t₂.name = name ∧
      t₁.relationFields = t₂.relationFields

/-- Two models agree on what the block of an entity reads of them: for each field without an
override, whether its enumeration has values, and for each relation field, its target. -/
structure AgreeOn (m₁ m₂ : DataModel) (e : Entity) : Prop where
  enums : ∀ f ∈ e.fields, f.kind = .enumeration → overrideOf f = none →
    (DeclaresValues m₁ f.typeName ↔ DeclaresValues m₂ f.typeName)
  targets : ∀ f ∈ e.relationFields, SameTarget m₁ m₂ f.typeName

/-- The single targets of an entity, itself apart, stand in both lists of names or in neither. -/
def SameTargetsEarlier (earlier₁ earlier₂ : List String) (e : Entity) : Prop :=
  ∀ f ∈ e.relationFields, f.isList = false → f.typeName ≠ e.name →
    (f.typeName ∈ earlier₁ ↔ f.typeName ∈ earlier₂)

/-- Of the values of an enumeration a field reads only whether there are any. -/
theorem defaultExpression_eq (enums : EnumLookup) (f : Field) :
    defaultExpression enums f =
      if f.isEnum then
        if (enumValuesOf enums f).isSome then enumSchemaName f.typeName else enumFallbackExpression
      else (scalarExpressions.lookup f.typeName).getD fallbackExpression := by
  unfold defaultExpression
  cases enumValuesOf enums f with
  | none => rfl
  | some values => rfl

section Agreement

variable {m₁ m₂ : DataModel} (h₁ : m₁.IsIndexed) (h₂ : m₂.IsIndexed)

include h₁ in
theorem isSome_enumValuesOf (f : Field) : (enumValuesOf m₁.enumValues f).isSome ↔
    f.kind = .enumeration ∧ DeclaresValues m₁ f.typeName := by
  simp only [Option.isSome_iff_exists, enumValuesOf_eq_some h₁, DeclaresValues]
  constructor
  · rintro ⟨values, hkind, hmem, hne⟩
    exact ⟨hkind, _, hmem, rfl, hne⟩
  · rintro ⟨hkind, ⟨name, values⟩, hmem, rfl, hne⟩
    exact ⟨values, hkind, hmem, hne⟩

include h₁ h₂

theorem fieldExpression_eq {f : Field}
    (hf : f.kind = .enumeration → overrideOf f = none →
      (DeclaresValues m₁ f.typeName ↔ DeclaresValues m₂ f.typeName)) :
    fieldExpression m₁.enumValues f = fieldExpression m₂.enumValues f := by
  have hbase : baseExpression m₁.enumValues f = baseExpression m₂.enumValues f := by
    unfold baseExpression
    cases hoverride : overrideOf f with
    | some text => rfl
    | none =>
      have hsome : (enumValuesOf m₁.enumValues f).isSome =
          (enumValuesOf m₂.enumValues f).isSome := by
        rw [Bool.eq_iff_iff, isSome_enumValuesOf h₁, isSome_enumValuesOf h₂]
        exact and_congr_right fun hkind => hf hkind hoverride
      rw [defaultExpression_eq, defaultExpression_eq, hsome]
  unfold fieldExpression
  rw [hbase]

/-- The fields of the target that point back at the owner. -/
theorem backRelations_eq {owner : Entity} {f : Field} (hf : SameTarget m₁ m₂ f.typeName) :
    backRelations m₁ owner f = backRelations m₂ owner f := by
  unfold backRelations
  rcases hf with ⟨hnone₁, hnone₂⟩ | ⟨t₁, ht₁, t₂, ht₂, hname₁, hname₂, hrelations⟩
  · rw [h₁.getEntity_eq_none hnone₁, h₂.getEntity_eq_none hnone₂]
  · rw [h₁.getEntity_eq_some.mpr ⟨ht₁, hname₁⟩, h₂.getEntity_eq_some.mpr ⟨ht₂, hname₂⟩]
    simp only [hname₁, hname₂, hrelations]

/-- **A block reads nothing else.** Two models that agree on an entity, and two states of a pass
that defer the same of its references, give it the same block. -/
theorem entityBlock_eq (s : Settings) {p₁ p₂ : Pass} {e : Entity} (agree : AgreeOn m₁ m₂ e)
    (deferred : ∀ f ∈ e.relationFields, f.isList = false →
      needsLazy p₁ s.alwaysLazyReferences e.name f.typeName =
        needsLazy p₂ s.alwaysLazyReferences e.name f.typeName) :
    entityBlock m₁ s p₁ e = entityBlock m₂ s p₂ e := by
  -- three parts read the model or the pass; the others read the entity alone
  have hobject (unit : String) :
      objectSchema m₁.enumValues unit e = objectSchema m₂.enumValues unit e := by
    unfold objectSchema
    have hfields : ∀ f ∈ e.scalarFields,
        fieldExpression m₁.enumValues f = fieldExpression m₂.enumValues f :=
      fun f hf => fieldExpression_eq h₁ h₂ (agree.enums f (List.mem_of_mem_filter hf))
    rw [List.map_congr_left fun f hf => by rw [hfields f hf]]
  have hfilter (unit : String) : filterSchema p₁ s.alwaysLazyReferences unit e =
      filterSchema p₂ s.alwaysLazyReferences unit e := by
    refine filterSchemaWith_congr fun f hf => ?_
    have hreference : filterReference p₁ s.alwaysLazyReferences e.name f =
        filterReference p₂ s.alwaysLazyReferences e.name f := by
      unfold filterReference
      cases hlist : f.isList with
      | true => rfl
      | false => rw [deferred f hf hlist]
    unfold relationFilter
    rw [hreference]
  have hcreate (unit : String) : createInputSchema m₁ unit e = createInputSchema m₂ unit e := by
    have hfields : ∀ f ∈ e.relationFields,
        relationCreate m₁ e f unit = relationCreate m₂ e f unit := by
      intro f hf
      unfold relationCreate nestedCreateComment
      rw [backRelations_eq h₁ h₂ (agree.targets f hf)]
    unfold createInputSchema
    rw [List.map_congr_left fun f hf => by rw [hfields f hf]]
  simp only [entityBlock, hobject, hfilter, hcreate]

end Agreement

/-! ## Two runs -/

/-- A reference is deferred alike where all of them are, or where its target stands further up in
both models or in neither. -/
theorem needsLazy_eq {p₁ p₂ : Pass} {earlier₁ earlier₂ : List String}
    (hp₁ : ∀ name, p₁.isEmitted name = earlier₁.contains name)
    (hp₂ : ∀ name, p₂.isEmitted name = earlier₂.contains name) {alwaysLazy : Bool} {e : Entity}
    (order : alwaysLazy = true ∨ SameTargetsEarlier earlier₁ earlier₂ e) {f : Field}
    (hf : f ∈ e.relationFields) (hlist : f.isList = false) :
    needsLazy p₁ alwaysLazy e.name f.typeName = needsLazy p₂ alwaysLazy e.name f.typeName := by
  unfold needsLazy
  rcases order with hlazy | hearlier
  · simp [hlazy]
  · by_cases hself : f.typeName = e.name
    · simp [hself]
    · have hsame : earlier₁.contains f.typeName = earlier₂.contains f.typeName := by
        rw [Bool.eq_iff_iff, List.contains_iff_mem, List.contains_iff_mem]
        exact hearlier f hf hlist hself
      rw [hp₁, hp₂, hsame]

/-- The last entity of a run leaves its block at the end. -/
theorem Pass.lines_emitAll_concat {m : DataModel} {s : Settings} (before : List Entity)
    (e : Entity) : (Pass.empty.emitAll m s (before ++ [e])).lines =
      (Pass.empty.emitAll m s before).lines ++
        entityBlock m s (Pass.empty.emitAll m s before) e := by
  rw [Pass.emitAll_append, Pass.emitAll_cons, Pass.emitAll_nil, Pass.lines_emit]

/-- If the entities of a run have the same block in every state of the pass, the run leaves these
blocks in order. -/
theorem Pass.lines_emitAll {m : DataModel} {s : Settings} {block : Entity → List String}
    {entities : List Entity} (h : ∀ e ∈ entities, ∀ p, entityBlock m s p e = block e) (p : Pass) :
    (p.emitAll m s entities).lines = p.lines ++ entities.flatMap block := by
  induction entities generalizing p with
  | nil => simp
  | cons e rest ih =>
    have hrest : ∀ e ∈ rest, ∀ p, entityBlock m s p e = block e :=
      fun e he => h e (List.mem_cons_of_mem _ he)
    rw [Pass.emitAll_cons, ih hrest, Pass.lines_emit, h e List.mem_cons_self, List.flatMap_cons,
      List.append_assoc]

/-- Models with the same enumerations and the same entities, in any order, agree on everything. -/
theorem AgreeOn.of_perm {m₁ m₂ : DataModel} (enums : m₁.enums = m₂.enums)
    (perm : m₁.entities.Perm m₂.entities) (e : Entity) : AgreeOn m₁ m₂ e where
  enums f _ _ _ := by rw [DeclaresValues, DeclaresValues, enums]
  targets f _ := by
    by_cases hmem : f.typeName ∈ m₁.entityNames
    · obtain ⟨t, ht, hname⟩ := List.mem_map.mp hmem
      exact .inr ⟨t, ht, t, perm.subset ht, hname, hname, rfl⟩
    · have hperm : m₁.entityNames.Perm m₂.entityNames := perm.map Entity.name
      exact .inl ⟨hmem, fun h => hmem (hperm.mem_iff.mpr h)⟩

section Deferred

variable {s : Settings} (hlazy : s.alwaysLazyReferences = true)

include hlazy

/-- Where all references are deferred, a block does not depend on the order of declaration. -/
theorem entityBlock_of_perm {m₁ m₂ : DataModel} (h₁ : m₁.IsIndexed) (h₂ : m₂.IsIndexed)
    (enums : m₁.enums = m₂.enums) (perm : m₁.entities.Perm m₂.entities) (p₁ p₂ : Pass)
    (e : Entity) : entityBlock m₁ s p₁ e = entityBlock m₂ s p₂ e := by
  refine entityBlock_eq h₁ h₂ s (.of_perm enums perm e) fun f _ _ => ?_
  simp [needsLazy, hlazy]

/-- Then a pass is nothing but the blocks of the entities, each as it is at the start. -/
theorem lines_runPass_of_lazy {m : DataModel} (hm : m.IsIndexed) :
    (runPass m s).lines = m.entities.flatMap (entityBlock m s .empty) := by
  rw [runPass_eq_emitAll, Pass.lines_emitAll fun e _ p =>
    entityBlock_of_perm hlazy hm hm rfl (.refl _) p .empty e]
  rfl

end Deferred

/-- **Locality.** Let two accepted models declare the same entity. If they agree on what its block
reads of them, and all references are deferred or the single targets of the entity stand before it
in both models or in neither, then a pass over either model appends the same lines when the entity
has its turn. If all references are deferred, reordering the entities of a model reorders their
blocks and does nothing else. -/
theorem block_depends_on_neighbours {description₁ description₂ : Value} {m₁ m₂ : DataModel}
    (accepted₁ : DataModel.decode description₁ = .accepted m₁)
    (accepted₂ : DataModel.decode description₂ = .accepted m₂) (s : Settings) :
    (∀ before₁ e₁ after₁ before₂ e₂ after₂,
      m₁.entities = before₁ ++ e₁ :: after₁ → m₂.entities = before₂ ++ e₂ :: after₂ →
      e₁.SameDeclaration e₂ → AgreeOn m₁ m₂ e₁ →
      (s.alwaysLazyReferences = true ∨
        SameTargetsEarlier (before₁.map Entity.name) (before₂.map Entity.name) e₁) →
      ∃ block rest₁ rest₂ : List String,
        (Pass.empty.emitAll m₁ s (before₁ ++ [e₁])).lines =
          (Pass.empty.emitAll m₁ s before₁).lines ++ block ∧
        (Pass.empty.emitAll m₂ s (before₂ ++ [e₂])).lines =
          (Pass.empty.emitAll m₂ s before₂).lines ++ block ∧
        (runPass m₁ s).lines = (Pass.empty.emitAll m₁ s before₁).lines ++ block ++ rest₁ ∧
        (runPass m₂ s).lines = (Pass.empty.emitAll m₂ s before₂).lines ++ block ++ rest₂) ∧
    (s.alwaysLazyReferences = true → m₁.enums = m₂.enums → m₁.entities.Perm m₂.entities →
      ∃ block : Entity → List String,
        (runPass m₁ s).lines = m₁.entities.flatMap block ∧
        (runPass m₂ s).lines = m₂.entities.flatMap block) := by
  have h₁ := DataModel.IsIndexed.of_decode accepted₁
  have h₂ := DataModel.IsIndexed.of_decode accepted₂
  constructor
  · intro before₁ e₁ after₁ before₂ e₂ after₂ split₁ split₂ same agree order
    have hlocal : entityBlock m₁ s (Pass.empty.emitAll m₁ s before₁) e₁ =
        entityBlock m₂ s (Pass.empty.emitAll m₂ s before₂) e₁ :=
      entityBlock_eq h₁ h₂ s agree fun f hf hlist =>
        needsLazy_eq (isEmitted_before m₁ s before₁) (isEmitted_before m₂ s before₂) order hf hlist
    have hindexed₁ : e₁.IsIndexed := DataModel.isIndexed_of_mem accepted₁ (by simp [split₁])
    have hindexed₂ : e₂.IsIndexed := DataModel.isIndexed_of_mem accepted₂ (by simp [split₂])
    -- the second entity may write its kinds in another way, which the block does not show
    have hblock : entityBlock m₁ s (Pass.empty.emitAll m₁ s before₁) e₁ =
        entityBlock m₂ s (Pass.empty.emitAll m₂ s before₂) e₂ := by
      rw [hlocal, ← entityBlock_explicit m₂ s _ e₁, same.explicit_eq hindexed₁ hindexed₂,
        entityBlock_explicit]
    obtain ⟨rest₁, hrest₁⟩ := exists_lines_runPass s split₁
    obtain ⟨rest₂, hrest₂⟩ := exists_lines_runPass s split₂
    refine ⟨entityBlock m₁ s (Pass.empty.emitAll m₁ s before₁) e₁, rest₁, rest₂, ?_, ?_, hrest₁, ?_⟩
    · exact Pass.lines_emitAll_concat before₁ e₁
    · rw [hblock]
      exact Pass.lines_emitAll_concat before₂ e₂
    · rw [hblock]
      exact hrest₂
  · intro hlazy henums hperm
    have hblock : entityBlock m₁ s .empty = entityBlock m₂ s .empty :=
      funext (entityBlock_of_perm hlazy h₁ h₂ henums hperm .empty .empty)
    refine ⟨entityBlock m₁ s .empty, lines_runPass_of_lazy hlazy h₁, ?_⟩
    rw [hblock]
    exact lines_runPass_of_lazy hlazy h₂

/-- In the forum and in the forum declared the other way round a user has the same block, and the
blocks trade places if all references are deferred. -/
theorem user_block_is_local :
    DataModel.decode Sample.description = .accepted Sample.forum ∧
      DataModel.decode Sample.reversedDescription = .accepted Sample.reversedForum ∧
      (∃ block rest₁ rest₂ : List String,
        (Pass.empty.emitAll Sample.forum .default ([] ++ [Sample.user])).lines = [] ++ block ∧
        (Pass.empty.emitAll Sample.reversedForum .default ([Sample.post] ++ [Sample.user])).lines =
          (Pass.empty.emitAll Sample.reversedForum .default [Sample.post]).lines ++ block ∧
        (runPass Sample.forum .default).lines = [] ++ block ++ rest₁ ∧
        (runPass Sample.reversedForum .default).lines =
          (Pass.empty.emitAll Sample.reversedForum .default [Sample.post]).lines ++
            block ++ rest₂) ∧
      ∃ block : Entity → List String,
        (runPass Sample.forum Sample.lazySettings).lines =
          [Sample.user, Sample.post].flatMap block ∧
        (runPass Sample.reversedForum Sample.lazySettings).lines =
          [Sample.post, Sample.user].flatMap block := by
  have henums : Sample.forum.enums = Sample.reversedForum.enums := rfl
  have hperm : Sample.forum.entities.Perm Sample.reversedForum.entities := .swap _ _ _
  refine ⟨Sample.decode_description, Sample.decode_reversedDescription, ?_, ?_⟩
  · have hlocal := (block_depends_on_neighbours Sample.decode_description
      Sample.decode_reversedDescription .default).1
    have hagree : AgreeOn Sample.forum Sample.reversedForum Sample.user :=
      .of_perm henums hperm _
    have horder : SameTargetsEarlier [] ["Post"] Sample.user := by
      unfold SameTargetsEarlier
      decide
    exact hlocal [] Sample.user [Sample.post] [Sample.post] Sample.user [] rfl rfl
      ⟨rfl, rfl, rfl, rfl, rfl⟩ hagree (.inr horder)
  · have hlocal := (block_depends_on_neighbours Sample.decode_description
      Sample.decode_reversedDescription Sample.lazySettings).2
    exact hlocal rfl henums hperm

end Schema

end ModelSchemas
