import ModelSchemas.Proofs.Schema.PassRun

/-!
# Growth of a pass

A pass is shared by all who write a document: they record enumerations, mark and emit entities, and
build the expressions of fields and filters, in any order and as often as they like. Whatever they
do, the records only grow: lines and enumerations are added at the end, no enumeration is recorded
twice, and an emitted entity stays emitted. So a reference that could be bound once can be bound
from then on.
-/

namespace ModelSchemas

namespace Schema

/-! ## Operations -/

/-- What may be done with a pass. -/
inductive Operation where
  | recordEnum (name : String) (values : List String)
  | markEmitted (name : String)
  | askEmitted (name : String)
  | askDeferred (alwaysLazy : Bool) (current target : String)
  | emit (e : Entity)
  | buildField (enums : EnumLookup) (f : Field)
  | buildFilter (alwaysLazy : Bool) (entity : String) (f : Field)

/-- What an operation gives back. -/
inductive Answer where
  | nothing
  | truth (holds : Bool)
  | expression (text : Text)
  | filter (text : String)
deriving DecidableEq

namespace Pass

variable (m : DataModel) (s : Settings)

/-- One operation: the pass behind it, and its answer. -/
def perform (p : Pass) : Operation → Pass × Answer
  | .recordEnum name values => (p.recordEnum name values, .nothing)
  | .markEmitted name => (p.markEmitted name, .nothing)
  | .askEmitted name => (p, .truth (p.isEmitted name))
  | .askDeferred alwaysLazy current target => (p, .truth (needsLazy p alwaysLazy current target))
  | .emit e => (p.emit m s e, .nothing)
  | .buildField enums f => (p.recordField enums f, .expression (fieldExpression enums f))
  | .buildFilter alwaysLazy entity f => (p, .filter (relationFilter p alwaysLazy entity f))

/-- The pass after several operations, one after another. -/
def performAll (p : Pass) (operations : List Operation) : Pass :=
  operations.foldl (fun p operation => (p.perform m s operation).1) p

variable {m s}

/-! ## Growth -/

/-- The pass `q` holds all that `p` holds, in the same places. -/
structure GrowsTo (p q : Pass) : Prop where
  lines : p.lines <+: q.lines
  enumUsage : p.enumUsage <+: q.enumUsage
  distinct : (p.enumUsage.map Prod.fst).Nodup → (q.enumUsage.map Prod.fst).Nodup
  emitted : ∀ name, p.isEmitted name → q.isEmitted name

theorem GrowsTo.refl (p : Pass) : p.GrowsTo p :=
  ⟨List.prefix_refl _, List.prefix_refl _, id, fun _ => id⟩

theorem GrowsTo.trans {p q r : Pass} (h : p.GrowsTo q) (h' : q.GrowsTo r) : p.GrowsTo r where
  lines := h.lines.trans h'.lines
  enumUsage := h.enumUsage.trans h'.enumUsage
  distinct := h'.distinct ∘ h.distinct
  emitted name := h'.emitted name ∘ h.emitted name

theorem growsTo_append (p : Pass) (lines : List String) : p.GrowsTo (p.append lines) :=
  ⟨⟨lines, rfl⟩, List.prefix_refl _, id, fun _ => id⟩

theorem growsTo_markEmitted (p : Pass) (name : String) : p.GrowsTo (p.markEmitted name) where
  lines := ⟨[], by rw [List.append_nil, lines_markEmitted]⟩
  enumUsage := ⟨[], by rw [List.append_nil, enumUsage_markEmitted]⟩
  distinct := by
    rw [enumUsage_markEmitted]
    exact id
  emitted other h := by rw [isEmitted_markEmitted, h, Bool.true_or]

theorem usesEnum_iff {p : Pass} {name : String} :
    p.usesEnum name ↔ name ∈ p.enumUsage.map Prod.fst := by
  simp [usesEnum]

/-- An enumeration that is recorded again, under whatever values, keeps its entry. -/
theorem growsTo_recordEnum (p : Pass) (name : String) (values : List String) :
    p.GrowsTo (p.recordEnum name values) := by
  by_cases hused : p.usesEnum name
  · rw [recordEnum, if_pos hused]
    exact .refl p
  · have hnew : name ∉ p.enumUsage.map Prod.fst := usesEnum_iff.not.mp hused
    rw [recordEnum, if_neg hused]
    refine ⟨List.prefix_refl _, ⟨[(name, values)], rfl⟩, fun hdistinct => ?_, fun _ => id⟩
    rw [List.map_append, List.map_singleton, ← List.concat_eq_append]
    exact hdistinct.concat hnew

theorem growsTo_recordField (enums : EnumLookup) (p : Pass) (f : Field) :
    p.GrowsTo (p.recordField enums f) := by
  unfold recordField
  split
  · exact growsTo_recordEnum p _ _
  · exact .refl p

theorem growsTo_recordFields (enums : EnumLookup) (p : Pass) (fields : List Field) :
    p.GrowsTo (p.recordFields enums fields) := by
  induction fields generalizing p with
  | nil => exact .refl p
  | cons f rest ih => exact (growsTo_recordField enums p f).trans (ih _)

theorem growsTo_emit (p : Pass) (e : Entity) : p.GrowsTo (p.emit m s e) := by
  have happend := growsTo_append p (entityBlock m s p e)
  have hfields := growsTo_recordFields m.enumValues (p.append (entityBlock m s p e)) e.scalarFields
  exact (happend.trans hfields).trans (growsTo_markEmitted _ e.name)

/-- **One operation** only adds to the records. -/
theorem growsTo_perform (p : Pass) (operation : Operation) :
    p.GrowsTo (p.perform m s operation).1 := by
  cases operation with
  | recordEnum name values => exact growsTo_recordEnum p name values
  | markEmitted name => exact growsTo_markEmitted p name
  | askEmitted _ => exact .refl p
  | askDeferred _ _ _ => exact .refl p
  | emit e => exact growsTo_emit p e
  | buildField enums f => exact growsTo_recordField enums p f
  | buildFilter _ _ _ => exact .refl p

/-- **A run** only adds to the records. -/
theorem growsTo_performAll (p : Pass) (operations : List Operation) :
    p.GrowsTo (p.performAll m s operations) := by
  induction operations generalizing p with
  | nil => exact .refl p
  | cons operation rest ih => exact (growsTo_perform p operation).trans (ih _)

/-- Only an emission writes lines. -/
theorem lines_perform {operation : Operation} (h : ∀ e, operation ≠ .emit e) (p : Pass) :
    (p.perform m s operation).1.lines = p.lines := by
  cases operation with
  | recordEnum name values => exact lines_recordEnum p name values
  | markEmitted name => exact lines_markEmitted p name
  | askEmitted _ => rfl
  | askDeferred _ _ _ => rfl
  | emit e => exact absurd rfl (h e)
  | buildField enums f => exact lines_recordField enums p f
  | buildFilter _ _ _ => rfl

/-! ## References -/

/-- A reference need not wait if it may be bound, goes to another entity, and this one is
emitted. -/
theorem needsLazy_eq_false {p : Pass} {alwaysLazy : Bool} {current target : String} :
    needsLazy p alwaysLazy current target = false ↔
      alwaysLazy = false ∧ target ≠ current ∧ p.isEmitted target := by
  simp [needsLazy, and_assoc]

/-- What need not wait need not wait later. -/
theorem GrowsTo.needsLazy_eq_false {p q : Pass} (h : p.GrowsTo q) {alwaysLazy : Bool}
    {current target : String} (hp : needsLazy p alwaysLazy current target = false) :
    needsLazy q alwaysLazy current target = false := by
  obtain ⟨hlazy, hother, hemitted⟩ := Pass.needsLazy_eq_false.mp hp
  exact Pass.needsLazy_eq_false.mpr ⟨hlazy, hother, h.emitted target hemitted⟩

end Pass

/-- **Growth.** In any run over a pass that records each enumeration once, every operation leaves
the lines and the recorded enumerations as a beginning of the new ones, each enumeration recorded
once, and the emitted entities emitted. An emission appends the block of its entity, and no other
operation changes the lines. A reference that was found not to wait is found so ever after. -/
theorem records_only_grow (m : DataModel) (s : Settings) {start : Pass}
    (distinct : (start.enumUsage.map Prod.fst).Nodup) (before : List Operation)
    (operation : Operation) (after : List Operation) :
    let p := start.performAll m s before
    let q := (p.perform m s operation).1
    let r := q.performAll m s after
    p.lines <+: q.lines ∧ p.enumUsage <+: q.enumUsage ∧ (q.enumUsage.map Prod.fst).Nodup ∧
      (∀ name, p.isEmitted name → q.isEmitted name) ∧
      (∀ e, operation = .emit e → q.lines = p.lines ++ entityBlock m s p e) ∧
      ((∀ e, operation ≠ .emit e) → q.lines = p.lines) ∧
      ∀ current target, operation = .askDeferred false current target → current ≠ target →
        (p.perform m s operation).2 = .truth false →
          (r.perform m s operation).2 = .truth false := by
  intro p q r
  have hbefore : start.GrowsTo p := Pass.growsTo_performAll start before
  have hstep : p.GrowsTo q := Pass.growsTo_perform p operation
  have hafter : q.GrowsTo r := Pass.growsTo_performAll q after
  refine ⟨hstep.lines, hstep.enumUsage, hstep.distinct (hbefore.distinct distinct), hstep.emitted,
    ?_, fun h => Pass.lines_perform h p, ?_⟩
  · rintro e rfl
    exact Pass.lines_emit m s p e
  · rintro current target rfl - hanswer
    have hp : needsLazy p false current target = false := Answer.truth.inj hanswer
    have hr : needsLazy r false current target = false :=
      (hstep.trans hafter).needsLazy_eq_false hp
    exact congrArg Answer.truth hr

/-- In the forum a post may be bound to its author once users are emitted, also after users have
been emitted again and their roles recorded under other values. -/
theorem author_stays_bound :
    (Pass.empty.enumUsage.map Prod.fst).Nodup ∧
      ((Pass.empty.performAll Sample.forum Settings.default
        [.emit Sample.user, .askDeferred false "Post" "User", .recordEnum "Role" ["X"],
          .emit Sample.user]).perform Sample.forum Settings.default
            (.askDeferred false "Post" "User")).2 = .truth false := by
  have distinct : (Pass.empty.enumUsage.map Prod.fst).Nodup := List.nodup_nil
  have grow := records_only_grow Sample.forum Settings.default distinct [.emit Sample.user]
    (.askDeferred false "Post" "User") [.recordEnum "Role" ["X"], .emit Sample.user]
  refine ⟨distinct, grow.2.2.2.2.2.2 "Post" "User" rfl (by decide) ?_⟩
  have hemitted : (Pass.empty.emit Sample.forum Settings.default Sample.user).isEmitted "User" := by
    rw [Pass.isEmitted_emit]
    decide
  exact congrArg Answer.truth (Pass.needsLazy_eq_false.mpr ⟨rfl, by decide, hemitted⟩)

end Schema

end ModelSchemas
