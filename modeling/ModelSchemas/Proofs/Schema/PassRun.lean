import ModelSchemas.Proofs.Model.Acceptance
import ModelSchemas.Schema.Assembly

/-!
# Runs of a pass

What emitting several entities one after another does to the records of a pass. The step lemmas
stand beside `Pass.emit`; here they are carried along a run. When an entity has its turn, the
emitted names are those of the entities before it, and its block is appended in one piece.
-/

namespace ModelSchemas

namespace Schema

namespace Pass

variable (m : DataModel) (s : Settings)

/-- The pass after several entities, emitted in order. -/
def emitAll (p : Pass) (entities : List Entity) : Pass := entities.foldl (Pass.emit m s) p

variable {m s}

@[simp] theorem emitAll_nil (p : Pass) : p.emitAll m s [] = p := rfl

@[simp] theorem emitAll_cons (p : Pass) (e : Entity) (rest : List Entity) :
    p.emitAll m s (e :: rest) = (p.emit m s e).emitAll m s rest := rfl

theorem emitAll_append (p : Pass) (before after : List Entity) :
    p.emitAll m s (before ++ after) = (p.emitAll m s before).emitAll m s after :=
  List.foldl_append

/-- **The emitted names**: those emitted already, and those of the entities of the run. -/
theorem isEmitted_emitAll (p : Pass) (entities : List Entity) (name : String) :
    (p.emitAll m s entities).isEmitted name =
      (p.isEmitted name || (entities.map Entity.name).contains name) := by
  induction entities generalizing p with
  | nil => simp
  | cons e rest ih =>
    rw [emitAll_cons, ih, isEmitted_emit, List.map_cons, List.contains_cons, Bool.or_assoc]

/-- A run only appends to the line buffer. -/
theorem prefix_lines_emitAll (p : Pass) (entities : List Entity) :
    p.lines <+: (p.emitAll m s entities).lines := by
  induction entities generalizing p with
  | nil => exact List.prefix_refl _
  | cons e rest ih =>
    have hstep : p.lines <+: (p.emit m s e).lines := ⟨_, (lines_emit m s p e).symm⟩
    exact hstep.trans (ih _)

/-- Every entity of a run leaves its block, in the state of the pass at its turn. -/
theorem exists_block_of_mem {entities : List Entity} {e : Entity} (he : e ∈ entities) (p : Pass) :
    ∃ q : Pass, ∀ line ∈ entityBlock m s q e, line ∈ (p.emitAll m s entities).lines := by
  obtain ⟨before, after, rfl⟩ := List.append_of_mem he
  refine ⟨p.emitAll m s before, fun line hline => ?_⟩
  rw [emitAll_append, emitAll_cons]
  refine (prefix_lines_emitAll _ after).subset ?_
  rw [lines_emit]
  exact List.mem_append_right _ hline

end Pass

/-- The pass of a model is the run over its entities from the empty state. -/
theorem runPass_eq_emitAll (m : DataModel) (s : Settings) :
    runPass m s = Pass.empty.emitAll m s m.entities := rfl

/-- The block of an entity stands in the buffer behind what the entities before it have left. -/
theorem exists_lines_runPass (s : Settings) {m : DataModel} {before after : List Entity}
    {e : Entity} (split : m.entities = before ++ e :: after) :
    ∃ rest, (runPass m s).lines =
      (Pass.empty.emitAll m s before).lines ++
        entityBlock m s (Pass.empty.emitAll m s before) e ++ rest := by
  rw [runPass_eq_emitAll, split, Pass.emitAll_append, Pass.emitAll_cons]
  obtain ⟨rest, hrest⟩ := Pass.prefix_lines_emitAll (m := m) (s := s)
    ((Pass.empty.emitAll m s before).emit m s e) after
  exact ⟨rest, by rw [← hrest, Pass.lines_emit]⟩

/-- The same for the document: nothing comes between the lines of a pass. -/
theorem exists_documentLines_runPass (s : Settings) {m : DataModel} {before after : List Entity}
    {e : Entity} (split : m.entities = before ++ e :: after) :
    ∃ head rest, documentLines s (runPass m s) =
      head ++ (Pass.empty.emitAll m s before).lines ++
        entityBlock m s (Pass.empty.emitAll m s before) e ++ rest := by
  obtain ⟨rest, hlines⟩ := exists_lines_runPass s split
  unfold documentLines
  rw [hlines]
  refine ⟨importLines s ++ [""] ++
    (if (runPass m s).enumUsage.isEmpty then [] else enumLines (runPass m s) ++ [""]) ++
    helperLines (indentUnit s) ++ headerLines s, rest, ?_⟩
  simp only [List.append_assoc]

end Schema

end ModelSchemas
