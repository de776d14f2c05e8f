import Mathlib.Data.List.Forall2
import ModelSchemas.Proofs.Schema.PassRun

/-!
# Declarations of a document

Which constants a document declares, and that it does: the enumerations that the pass remembers and
the parts of every entity have lines of their own in the document, in this order.
-/

namespace ModelSchemas

namespace Schema

/-- The constants of an entity, in order. -/
def entityConstants (e : Entity) : List String := Part.all.map fun part => part.constant e.name

/-- The constants that a document declares: those of the enumerations that the pass remembers, and
those of each entity. -/
def declaredConstants (m : DataModel) (s : Settings) : List String :=
  (runPass m s).enumUsage.map (fun entry => enumSchemaName entry.1) ++
    m.entities.flatMap entityConstants

/-! ## Lines that declare -/

/-- A line that declares a constant: the keyword, the name, and a colon or a blank. -/
def DeclaredBy (constant line : String) : Prop :=
  ∃ lead ∈ ["const ", "export const "], ∃ tail : String,
    (tail.toList.head? = some ' ' ∨ tail.toList.head? = some ':') ∧ line = lead ++ constant ++ tail

/-- The line of an exported constant, by what comes right after the name. -/
theorem declaredBy_export (constant tail : String)
    (htail : tail.toList.head? = some ' ' ∨ tail.toList.head? = some ':') :
    DeclaredBy constant ("export const " ++ constant ++ tail) :=
  ⟨_, by decide, tail, htail, rfl⟩

/-- What follows on the line does not matter. -/
theorem DeclaredBy.append {constant line : String} (h : DeclaredBy constant line)
    (rest : String) : DeclaredBy constant (line ++ rest) := by
  obtain ⟨lead, hlead, tail, htail, rfl⟩ := h
  refine ⟨lead, hlead, tail ++ rest, ?_, String.append_assoc⟩
  rw [String.toList_append, List.head?_append]
  rcases htail with htail | htail
  · exact .inl (by rw [htail]; rfl)
  · exact .inr (by rw [htail]; rfl)

/-- Lines that declare some constants in this order, among others. -/
def Declare (lines constants : List String) : Prop :=
  List.SublistForall₂ DeclaredBy constants lines

namespace Declare

variable {lines more constants others : List String}

theorem nothing (lines : List String) : Declare lines [] := List.SublistForall₂.nil

theorem append (h : Declare lines constants) (h' : Declare more others) :
    Declare (lines ++ more) (constants ++ others) := by
  obtain ⟨picked, hpicked, hsub⟩ := List.sublistForall₂_iff.mp h
  obtain ⟨picked', hpicked', hsub'⟩ := List.sublistForall₂_iff.mp h'
  exact List.sublistForall₂_iff.mpr
    ⟨picked ++ picked', List.rel_append hpicked hpicked', hsub.append hsub'⟩

/-- Lines that declare nothing may stand behind the declarations. -/
theorem append_right (h : Declare lines constants) (more : List String) :
    Declare (lines ++ more) constants := by
  simpa using h.append (nothing more)

/-- Lines that declare nothing may stand in front of the declarations. -/
theorem append_left (h : Declare lines constants) (more : List String) :
    Declare (more ++ lines) constants := by
  simpa using (nothing more).append h

theorem head {constant line : String} (h : DeclaredBy constant line) (rest : List String) :
    Declare (line :: rest) [constant] :=
  List.SublistForall₂.cons h (Declare.nothing rest)

end Declare

/-! ## Sections of a block -/

theorem declare_enumLine (name : String) (values : List String) :
    DeclaredBy (enumSchemaName name) (enumLine name values) := by
  have hhead := declaredBy_export (enumSchemaName name) " = z.enum([" (by decide)
  exact (hhead.append _).append _

theorem declare_objectSchema (enums : EnumLookup) (unit : String) (e : Entity) :
    Declare (objectSchema enums unit e) [Part.object.constant e.name] := by
  have hhead := declaredBy_export (Part.object.constant e.name) " = z.object(\x7b" (by decide)
  exact Declare.head hhead _

theorem declare_filterSchema (p : Pass) (alwaysLazy : Bool) (unit : String) (e : Entity) :
    Declare (filterSchema p alwaysLazy unit e)
      [Part.filter.constant e.name, Part.filterBody.constant e.name] := by
  have hfilter := declaredBy_export (Part.filter.constant e.name) ": z.ZodType<Prisma." (by decide)
  have hbody : DeclaredBy (Part.filterBody.constant e.name)
      ("const " ++ Part.filterBody.constant e.name ++ " = z.object(\x7b") :=
    ⟨_, by decide, _, by decide, rfl⟩
  refine List.SublistForall₂.cons ((((hfilter.append _).append _).append _).append _) ?_
  exact List.SublistForall₂.cons_right (Declare.head hbody _)

theorem exists_prependToFirst (lead : String) {lines : List String} (h : lines ≠ []) :
    ∃ line rest, prependToFirst lead lines = (lead ++ line) :: rest := by
  cases lines with
  | nil => exact absurd rfl h
  | cons line rest => exact ⟨line, rest, rfl⟩

theorem appendToLast_ne_nil (suffix : String) {lines : List String} (h : lines ≠ []) :
    appendToLast suffix lines ≠ [] := by
  cases lines with
  | nil => exact absurd rfl h
  | cons line rest => cases rest <;> exact List.cons_ne_nil _ _

theorem declare_uniqueFilterSchema (width : Int) (unit : String) (e : Entity) :
    Declare (uniqueFilterSchema width unit e) [Part.uniqueFilter.constant e.name] := by
  have hhead := declaredBy_export (Part.uniqueFilter.constant e.name) " = " (by decide)
  -- the union and the single branch differ in their lines, not in the first one having the name
  have hbody : ∀ body : List String, body ≠ [] → ∀ cast : String,
      Declare (prependToFirst s!"export const {Part.uniqueFilter.constant e.name} = "
        (appendToLast cast body) ++ [""]) [Part.uniqueFilter.constant e.name] := by
    intro body hbody cast
    obtain ⟨line, rest, heq⟩ := exists_prependToFirst
      s!"export const {Part.uniqueFilter.constant e.name} = " (appendToLast_ne_nil cast hbody)
    rw [heq]
    exact Declare.head (hhead.append line) _
  unfold uniqueFilterSchema
  split
  · exact Declare.head ((((hhead.append _).append _).append _).append _) _
  · refine hbody _ ?_ _
    split
    · rename_i branch hbranches
      obtain ⟨combo, -, rfl⟩ : ∃ combo ∈ uniqueCombos e, uniqueBranch unit e.name combo = branch :=
        List.mem_map.mp (hbranches ▸ List.mem_cons_self)
      exact List.cons_ne_nil _ _
    · exact List.cons_ne_nil _ _

theorem declare_includeSchema (unit : String) (e : Entity) :
    Declare (includeSchema unit e) [Part.inclusion.constant e.name] := by
  have hempty := declaredBy_export (Part.inclusion.constant e.name)
    " = z.object(\x7b\x7d).strip();" (by decide)
  have hhead := declaredBy_export (Part.inclusion.constant e.name) " = z.object(\x7b" (by decide)
  unfold includeSchema
  split
  · exact Declare.head hempty _
  · exact Declare.head hhead _

theorem declare_createInputSchema (m : DataModel) (unit : String) (e : Entity) :
    Declare (createInputSchema m unit e) [Part.createInput.constant e.name] := by
  have hhead := declaredBy_export (Part.createInput.constant e.name) " = " (by decide)
  exact Declare.head ((hhead.append _).append _) _

theorem declare_updateInputSchema (e : Entity) :
    Declare (updateInputSchema e) [Part.updateInput.constant e.name] := by
  have hhead := declaredBy_export (Part.updateInput.constant e.name) " = " (by decide)
  exact Declare.head (hhead.append _) _

theorem declare_argumentSchemas (unit : String) (e : Entity) :
    Declare (argumentSchemas unit e)
      ((argumentMembers e).map fun member => member.1.constant e.name) := by
  unfold argumentSchemas
  induction argumentMembers e with
  | nil => exact Declare.nothing _
  | cons member rest ih =>
    have hhead := declaredBy_export (member.1.constant e.name) " = z.object(\x7b" (by decide)
    exact (Declare.head hhead _).append ih

/-- A block declares all constants of its entity. -/
theorem declare_entityBlock (m : DataModel) (s : Settings) (p : Pass) (e : Entity) :
    Declare (entityBlock m s p e) (entityConstants e) := by
  have hparts := (((((((Declare.nothing [s!"// {e.name}"]).append
    (declare_objectSchema m.enumValues (indentUnit s) e)).append
    (declare_filterSchema p s.alwaysLazyReferences (indentUnit s) e)).append
    (declare_uniqueFilterSchema s.indentSize (indentUnit s) e)).append
    (declare_includeSchema (indentUnit s) e)).append
    (declare_createInputSchema m (indentUnit s) e)).append
    (declare_updateInputSchema e)).append
    (declare_argumentSchemas (indentUnit s) e)
  exact hparts

/-! ## The document -/

theorem declare_emitAll (m : DataModel) (s : Settings) (entities : List Entity) {p : Pass}
    {constants : List String} (h : Declare p.lines constants) :
    Declare (p.emitAll m s entities).lines (constants ++ entities.flatMap entityConstants) := by
  induction entities generalizing p constants with
  | nil => simpa using h
  | cons e rest ih =>
    have hemit : Declare (p.emit m s e).lines (constants ++ entityConstants e) := by
      rw [Pass.lines_emit]
      exact h.append (declare_entityBlock m s p e)
    rw [List.flatMap_cons, ← List.append_assoc]
    exact ih hemit

theorem declare_enumLines (p : Pass) :
    Declare (enumLines p) (p.enumUsage.map fun entry => enumSchemaName entry.1) := by
  unfold enumLines
  induction p.enumUsage with
  | nil => exact Declare.nothing _
  | cons entry rest ih => exact List.SublistForall₂.cons (declare_enumLine entry.1 entry.2) ih

/-- **Declarations of a document.** The lines of a document declare the constants of the model, each
on a line of its own and in order. -/
theorem declare_documentLines (m : DataModel) (s : Settings) :
    Declare (documentLines s (runPass m s)) (declaredConstants m s) := by
  have henums : Declare (if (runPass m s).enumUsage.isEmpty then []
      else enumLines (runPass m s) ++ [""])
      ((runPass m s).enumUsage.map fun entry => enumSchemaName entry.1) := by
    split
    · rename_i hempty
      rw [List.isEmpty_iff.mp hempty]
      exact Declare.nothing _
    · exact (declare_enumLines _).append_right _
  have hblocks := declare_emitAll m s m.entities (Declare.nothing Pass.empty.lines)
  have hfirst := henums.append_left (importLines s ++ [""])
  exact ((hfirst.append_right _).append_right _).append hblocks

end Schema

end ModelSchemas
