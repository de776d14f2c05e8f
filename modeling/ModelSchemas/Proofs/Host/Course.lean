import ModelSchemas.Host.Pipeline
import ModelSchemas.Proofs.Export.Outcome

/-!
# The course of a run

A run of the pipeline takes its steps in order, and the first one that fails is the last one taken.
Its report is put together on the way: one record for each step, the errors of a failed one, the
document, and the path that it was written to. A course says in one place what a report has in many,
and every step is shown to carry the report of one course to the report of the next.
-/

namespace ModelSchemas

open Document Files

namespace Pipeline

/-! ## Steps and errors -/

/-- The lists of errors in a report. -/
inductive ErrorList where
  | ingestion
  | generation
  | placement
deriving DecidableEq, Repr

/-- The errors of a report in one of its lists. -/
def ErrorList.errors (r : Report) : ErrorList → List String
  | ingestion => r.ingestionErrors
  | generation => r.generationErrors
  | placement => r.exportErrors

theorem ErrorList.forall_errors_eq_nil_iff (r : Report) :
    (∀ list : ErrorList, list.errors r = []) ↔
      r.ingestionErrors = [] ∧ r.generationErrors = [] ∧ r.exportErrors = [] := by
  constructor
  · exact fun h => ⟨h .ingestion, h .generation, h .placement⟩
  · rintro ⟨hingestion, hgeneration, hexport⟩ list
    cases list with
    | ingestion => exact hingestion
    | generation => exact hgeneration
    | placement => exact hexport

namespace Step

/-- The steps of a full run, in order. -/
def all : List Step := [loading, parsing, assembling, exporting]

/-- The list that takes the errors of a step. -/
def errorList : Step → ErrorList
  | loading | parsing => .ingestion
  | assembling => .generation
  | exporting => .placement

/-- The report has a record of the step, with this success. -/
def IsRecordedAs (step : Step) (success : Bool) (r : Report) : Prop :=
  ∃ metric ∈ r.steps, metric.stepName = step.name ∧ metric.success = success

/-- The report has a record of the step. -/
def IsRecorded (step : Step) (r : Report) : Prop := ∃ success, step.IsRecordedAs success r

theorem name_injective : Function.Injective name := by
  intro step other h
  cases step <;> cases other <;> first | rfl | exact absurd h (by decide)

end Step

/-! ## Courses -/

/-- The course of a run: the steps that succeeded, in order, and the one that failed, if one did. -/
structure Course where
  done : List Step
  failed : Option Step

namespace Course

/-- The steps of a course, in order. -/
def taken (c : Course) : List Step := c.done ++ c.failed.toList

/-- The course that has one more step than these, which succeeded or not. -/
def after (done : List Step) (step : Step) (success : Bool) : Course :=
  if success then ⟨done ++ [step], none⟩ else ⟨done, some step⟩

@[simp] theorem taken_after (done : List Step) (step : Step) (success : Bool) :
    (after done step success).taken = done ++ [step] := by
  cases success with
  | true => simp [after, taken]
  | false => simp [after, taken]

end Course

/-- A report tells of a course: it records the steps with their success, it has errors exactly in
the list of a failed step, a document once it has been assembled, and a path once it was written. -/
structure Tells (r : Report) (c : Course) : Prop where
  steps : r.steps.map (fun metric => (metric.stepName, metric.success)) =
    c.done.map (fun step => (step.name, true)) ++
      c.failed.toList.map fun step => (step.name, false)
  errors : ∀ list : ErrorList, list.errors r ≠ [] ↔ ∃ step ∈ c.failed, step.errorList = list
  text : r.outputText ≠ "" ↔ .assembling ∈ c.done
  path : r.outputPath ≠ "" ↔ .exporting ∈ c.done

/-- A document is not empty: it ends with a line feed. -/
theorem documentText_ne_empty (s : Settings) (p : Schema.Pass) : Schema.documentText s p ≠ "" := by
  intro h
  have hlist := congrArg String.toList h
  simp [Schema.documentText, Schema.closeText] at hlist

theorem outputText_assemble (m : DataModel) (s : Settings) (r : Report) :
    (assemble m s r).outputText = Schema.documentText s (Schema.runPass m s) := by
  rw [assemble, addStep]

theorem steps_assemble (m : DataModel) (s : Settings) (r : Report) :
    (assemble m s r).steps =
      r.steps ++ [Step.assembling.metric true (assemblyDetail (assemble m s r))] := by
  rw [assemble, addStep]
  rfl

theorem outputPath_assemble (m : DataModel) (s : Settings) (r : Report) :
    (assemble m s r).outputPath = r.outputPath := by
  rw [assemble, addStep]

theorem errors_assemble (list : ErrorList) (m : DataModel) (s : Settings) (r : Report) :
    list.errors (assemble m s r) = list.errors r := by
  cases list <;> simp only [ErrorList.errors, assemble, addStep]

theorem render_ne_empty (p : Path) : p.render ≠ "" := by
  intro h
  have hlist := congrArg String.toList h
  simp [Path.render] at hlist

namespace Tells

variable {r : Report} {done : List Step} {c : Course}

theorem empty : Tells .empty ⟨[], none⟩ where
  steps := rfl
  errors list := by cases list <;> simp [ErrorList.errors, Report.empty]
  text := by simp [Report.empty]
  path := by simp [Report.empty]

theorem errors_eq_nil (h : Tells r ⟨done, none⟩) (list : ErrorList) : list.errors r = [] := by
  have hnone : ¬∃ step ∈ (none : Option Step), step.errorList = list := by simp
  exact Decidable.of_not_not (mt (h.errors list).mp hnone)

/-- The records with success are those of the steps done. -/
theorem isRecordedAs_true_iff (h : Tells r c) {step : Step} :
    step.IsRecordedAs true r ↔ step ∈ c.done := by
  have hmem : step.IsRecordedAs true r ↔
      (step.name, true) ∈ r.steps.map fun metric => (metric.stepName, metric.success) := by
    simp [Step.IsRecordedAs]
  rw [hmem, h.steps]
  simp [Step.name_injective.eq_iff]

/-- The record without success is that of the failed step. -/
theorem isRecordedAs_false_iff (h : Tells r c) {step : Step} :
    step.IsRecordedAs false r ↔ step ∈ c.failed := by
  have hmem : step.IsRecordedAs false r ↔
      (step.name, false) ∈ r.steps.map fun metric => (metric.stepName, metric.success) := by
    simp [Step.IsRecordedAs]
  rw [hmem, h.steps]
  simp [Step.name_injective.eq_iff]

theorem isRecorded_iff (h : Tells r c) {step : Step} : step.IsRecorded r ↔ step ∈ c.taken := by
  rw [Step.IsRecorded, Bool.exists_bool, h.isRecordedAs_true_iff, h.isRecordedAs_false_iff,
    Course.taken, List.mem_append, or_comm, Option.mem_toList, Option.mem_def]

/-- The names in the records are those of the steps taken. -/
theorem map_stepName (h : Tells r c) :
    r.steps.map StepMetric.stepName = c.taken.map Step.name := by
  have hnames := congrArg (List.map Prod.fst) h.steps
  simpa [Course.taken, Function.comp_def] using hnames

/-- Only the last record may be one without success. -/
theorem success_of_mem_dropLast (h : Tells r c) {metric : StepMetric}
    (hmetric : metric ∈ r.steps.dropLast) : metric.success = true := by
  have hmem : (metric.stepName, metric.success) ∈
      (r.steps.map fun metric => (metric.stepName, metric.success)).dropLast := by
    rw [← List.map_dropLast]
    exact List.mem_map_of_mem hmetric
  rw [h.steps] at hmem
  have hdone : (metric.stepName, metric.success) ∈ c.done.map fun step => (step.name, true) := by
    cases hfailed : c.failed with
    | none =>
      rw [hfailed] at hmem
      simp only [Option.toList_none, List.map_nil, List.append_nil] at hmem
      exact List.dropLast_subset _ hmem
    | some step =>
      rw [hfailed] at hmem
      simpa only [Option.toList_some, List.map_cons, List.map_nil, List.dropLast_concat] using hmem
  obtain ⟨step, _, hstep⟩ := List.mem_map.mp hdone
  exact (Prod.ext_iff.mp hstep).2.symm

/-- Nothing failed exactly if every record is one with success. -/
theorem failed_eq_none_iff (h : Tells r c) :
    c.failed = none ↔ ∀ metric ∈ r.steps, metric.success = true := by
  have hflags : r.steps.map StepMetric.success =
      c.done.map (fun _ => true) ++ c.failed.toList.map fun _ => false := by
    have hmap := congrArg (List.map Prod.snd) h.steps
    simpa [Function.comp_def] using hmap
  have hall : (∀ metric ∈ r.steps, metric.success = true) ↔
      ∀ flag ∈ r.steps.map StepMetric.success, flag = true := by simp
  rw [hall, hflags]
  cases c.failed with
  | none => simp
  | some step => simp

/-- Nothing failed exactly if there are no errors. -/
theorem failed_eq_none_iff_errors (h : Tells r c) :
    c.failed = none ↔ ∀ list : ErrorList, list.errors r = [] := by
  constructor
  · intro hnone list
    obtain ⟨done, failed⟩ := c
    subst hnone
    exact h.errors_eq_nil list
  · intro herrors
    cases hfailed : c.failed with
    | none => rfl
    | some step =>
      have hlist := (h.errors step.errorList).mpr ⟨step, hfailed, rfl⟩
      exact absurd (herrors step.errorList) hlist

/-- The end of a run changes nothing that the course is told by. -/
theorem finish (h : Tells r c) : Tells (Pipeline.finish r) c where
  steps := h.steps
  errors list := by
    have hsame : list.errors (Pipeline.finish r) = list.errors r := by cases list <;> rfl
    rw [hsame]
    exact h.errors list
  text := h.text
  path := h.path

/-! ### One more step -/

/-- A step that succeeds: its record is the last one, and there are no errors. -/
theorem succeed (h : Tells r ⟨done, none⟩) (step : Step) (detail : String) {r' : Report}
    (hsteps : r'.steps = r.steps ++ [step.metric true detail])
    (herrors : ∀ list : ErrorList, list.errors r' = [])
    (htext : r'.outputText ≠ "" ↔ .assembling ∈ done ++ [step])
    (hpath : r'.outputPath ≠ "" ↔ .exporting ∈ done ++ [step]) :
    Tells r' ⟨done ++ [step], none⟩ where
  steps := by
    rw [hsteps, List.map_append, h.steps, List.map_append]
    simp [Step.metric]
  errors list := by simp [herrors list]
  text := htext
  path := hpath

/-- A step that fails: its record is the last one, and its errors are the only ones. -/
theorem fail (h : Tells r ⟨done, none⟩) (step : Step) (detail : String) (errors : List String)
    {r' : Report} (hsteps : r'.steps = r.steps ++ [step.metric false detail]) (hne : errors ≠ [])
    (herrors : ∀ list : ErrorList, list.errors r' =
      if list = step.errorList then errors else [])
    (htext : r'.outputText = r.outputText) (hpath : r'.outputPath = r.outputPath) :
    Tells r' ⟨done, some step⟩ where
  steps := by
    rw [hsteps, List.map_append, h.steps]
    simp [Step.metric]
  errors list := by
    rw [herrors]
    by_cases heq : list = step.errorList
    · simp [heq, hne]
    · simp [heq, Ne.symm heq]
  text := by
    rw [htext]
    exact h.text
  path := by
    rw [hpath]
    exact h.path

/-- A model file that cannot be loaded. -/
theorem loadFailure (fault : LoadFault) :
    Tells (Pipeline.loadFailure fault) ⟨[], some .loading⟩ := by
  refine finish (empty.fail _ fault.message [fault.message] rfl ?_ (fun list => ?_) rfl rfl)
  · exact List.cons_ne_nil _ _
  · cases list <;> rfl

/-- A document that is not accepted. -/
theorem parseFailure (h : Tells r ⟨done, none⟩) (fault : IngestionFault) :
    Tells (Pipeline.parseFailure r fault) ⟨done, some .parsing⟩ := by
  refine finish (h.fail _ "parse failed" [fault.message] rfl ?_ (fun list => ?_) rfl rfl)
  · exact List.cons_ne_nil _ _
  · cases list with
    | ingestion => rfl
    | generation => exact h.errors_eq_nil .generation
    | placement => exact h.errors_eq_nil .placement

/-- An assembly that is given up. -/
theorem assemblyFailure (h : Tells r ⟨done, none⟩) (fault : AssemblyFault) :
    Tells (Pipeline.assemblyFailure r fault) ⟨done, some .assembling⟩ := by
  refine finish (h.fail _ "assembly failed" (r.generationErrors ++ [fault.fatalMessage]) rfl ?_
    (fun list => ?_) rfl rfl)
  · simp
  · cases list with
    | ingestion => exact h.errors_eq_nil .ingestion
    | generation => rfl
    | placement => exact h.errors_eq_nil .placement

/-- A step that succeeds and leaves nothing but its record. -/
theorem addStep (h : Tells r ⟨done, none⟩) {step : Step} (htext : step ≠ .assembling)
    (hpath : step ≠ .exporting) (detail : String) :
    Tells (Pipeline.addStep r (step.metric true detail)) ⟨done ++ [step], none⟩ := by
  refine h.succeed step detail rfl (fun list => ?_) (h.text.trans ?_) (h.path.trans ?_)
  · rw [← h.errors_eq_nil list]
    cases list <;> rfl
  · simp [htext.symm]
  · simp [hpath.symm]

/-- The assembly: the document ends with a line feed, so that it is not empty. -/
theorem assemble (h : Tells r ⟨done, none⟩) (m : DataModel) (s : Settings) :
    Tells (Pipeline.assemble m s r) ⟨done ++ [.assembling], none⟩ := by
  refine h.succeed _ _ (steps_assemble m s r) (fun list => ?_) ?_ ?_
  · exact (errors_assemble list m s r).trans (h.errors_eq_nil list)
  · simp [outputText_assemble, documentText_ne_empty]
  · rw [outputPath_assemble, h.path]
    simp

/-- The export: it leaves the path of the document, or errors of its own. -/
theorem addExport (h : Tells r ⟨done, none⟩) (hdone : .exporting ∉ done) {result : ExportResult}
    {target : Path}
    (hresult : (result.errors = [] ∧ result.success = true ∧ result.outputPath = some target) ∨
      (result.errors ≠ [] ∧ result.success = false ∧ result.outputPath = none)) :
    Tells (Pipeline.addExport r result) (.after done .exporting result.success) := by
  have herrors := h.errors_eq_nil
  rcases hresult with ⟨hnone, hsuccess, houtput⟩ | ⟨hsome, hsuccess, houtput⟩
  · rw [hsuccess, Course.after, if_pos rfl]
    refine h.succeed _ (exportDetail result.manifest) ?_ (fun list => ?_) ?_ ?_
    · rw [Pipeline.addExport, Pipeline.addStep, hsuccess]
    · cases list with
      | ingestion => exact herrors .ingestion
      | generation => exact herrors .generation
      | placement =>
        show r.exportErrors ++ result.errors = []
        rw [hnone, List.append_nil]
        exact herrors .placement
    · show r.outputText ≠ "" ↔ _
      rw [h.text]
      simp
    · have hne : (Pipeline.addExport r result).outputPath ≠ "" := by
        rw [Pipeline.addExport, Pipeline.addStep, houtput]
        exact render_ne_empty target
      simp [hne]
  · rw [hsuccess, Course.after, if_neg Bool.false_ne_true]
    refine h.fail _ (exportDetail result.manifest) result.errors ?_ hsome (fun list => ?_) rfl ?_
    · rw [Pipeline.addExport, Pipeline.addStep, hsuccess]
    · cases list with
      | ingestion => exact herrors .ingestion
      | generation => exact herrors .generation
      | placement =>
        show r.exportErrors ++ result.errors = result.errors
        rw [show r.exportErrors = [] from herrors .placement, List.nil_append]
    · have hpath : r.outputPath = "" := Decidable.of_not_not (mt h.path.mp hdone)
      rw [Pipeline.addExport, Pipeline.addStep, houtput, hpath]

end Tells

theorem success_finish_iff (r : Report) : (finish r).success = true ↔
    (finish r).ingestionErrors = [] ∧ (finish r).generationErrors = [] ∧
      (finish r).exportErrors = [] := by
  simp only [finish, Bool.and_eq_true, List.isEmpty_iff, and_assoc]

/-! ## Runs -/

/-- What a run does before it exports: the report of a run that failed on the way, or the settings
and the report once the document has been assembled. -/
def prepare (limits : Limits) (overrides : Entries) (p : Path) (found : Option Entry) :
    Except Report (Settings × Report) :=
  match ModelFile.load p found with
  | .error fault => .error (loadFailure fault)
  | .ok doc =>
    match Ingestion.runWith doc overrides with
    | .error fault => .error (parseFailure (loaded p) fault)
    | .ok (model, s) =>
      match limits model s with
      | some fault => .error (assemblyFailure (parsed (loaded p) model) fault)
      | none => .ok (s, assemble model s (parsed (loaded p) model))

/-- What a run may come to: it stops before the export, or it would only have the export left to do,
or it breaks down where it would export, or it exports. Only an export touches the disk. -/
inductive Outcome (limits : Limits) (machine : Machine) (q : Request) (p : Path) (d : Disk) :
    Except Breakdown Report → Disk → Prop where
  | stopped {r : Report} (prepared : prepare limits q.overrides p (d.tree.look p) = .error r) :
    Outcome limits machine q p d (.ok r) d
  | dry {s : Settings} {r : Report} (dryRun : q.dryRun = true)
      (prepared : prepare limits q.overrides p (d.tree.look p) = .ok (s, r)) :
    Outcome limits machine q p d (.ok (finish r)) d
  | unresolved {s : Settings} {r : Report} (dryRun : q.dryRun = false)
      (prepared : prepare limits q.overrides p (d.tree.look p) = .ok (s, r))
      (unresolvable : machine.resolves (q.outputPath s) = false) :
    Outcome limits machine q p d (.error (.unresolvable (q.outputPath s))) d
  | brokeDown {s : Settings} {r : Report} (dryRun : q.dryRun = false)
      (prepared : prepare limits q.overrides p (d.tree.look p) = .ok (s, r)) {b : Breakdown}
      {after : Disk}
      (run : (q.exportPlan s (q.outputPath s).resolve).run (Disk.calls machine) .empty
        r.outputText d = (.error b, after)) : Outcome limits machine q p d (.error b) after
  | exported {s : Settings} {r : Report} (dryRun : q.dryRun = false)
      (prepared : prepare limits q.overrides p (d.tree.look p) = .ok (s, r))
      {result : ExportResult} {ledger : ExportLedger} {log : Log} {after : Disk}
      (run : (q.exportPlan s (q.outputPath s).resolve).run (Disk.calls machine) .empty
        r.outputText d = (.ok (result, ledger, log), after)) :
    Outcome limits machine q p d (.ok (finish (addExport r result))) after

/-- What a run that has assembled its document may come to. -/
theorem outcome_generate {limits : Limits} {machine : Machine} {q : Request} {p : Path}
    {d after : Disk} {model : DataModel} {s : Settings} {r : Report}
    {outcome : Except Breakdown (Report × Log)} (hlimit : limits model s = none)
    (prepared : prepare limits q.overrides p (d.tree.look p) = .ok (s, assemble model s r))
    (h : generate (Disk.calls machine) q model s r limits d = (outcome, after)) :
    Outcome limits machine q p d (outcome.map Prod.fst) after := by
  unfold generate at h
  rw [hlimit] at h
  cases hdry : q.dryRun with
  | true =>
    simp only [hdry, if_true] at h
    cases h
    exact .dry hdry prepared
  | false =>
    simp only [hdry, Bool.false_eq_true, if_false] at h
    obtain ⟨b, rfl, hresolve⟩ | ⟨directory, d₁, hresolve, h⟩ := bind_cases h
    · obtain ⟨rfl, hok | ⟨hunresolvable, hresolves⟩⟩ := resolve_cases hresolve
      · cases hok
      · cases hunresolvable
        exact .unresolved hdry prepared hresolves
    · obtain ⟨rfl, hok | ⟨hunresolvable, -⟩⟩ := resolve_cases hresolve
      · cases hok
        obtain ⟨b, rfl, hrun⟩ | ⟨⟨result, ledger, log⟩, d₂, hrun, h⟩ := bind_cases h
        · exact .brokeDown hdry prepared hrun
        · cases h
          exact .exported hdry prepared hrun
      · cases hunresolvable

theorem outcome_run {limits : Limits} {machine : Machine} {q : Request} {p : Path} {d after : Disk}
    {outcome : Except Breakdown (Report × Log)}
    (h : run (Disk.calls machine) q p limits d = (outcome, after)) :
    Outcome limits machine q p d (outcome.map Prod.fst) after := by
  have hlook : (Disk.calls machine).look p d = (.ok (d.tree.look p), d) := rfl
  unfold run at h
  rw [run_bind hlook] at h
  unfold runOn at h
  cases hload : ModelFile.load p (d.tree.look p) with
  | error fault =>
    have hprepared : prepare limits q.overrides p (d.tree.look p) = .error (loadFailure fault) := by
      simp only [prepare, hload]
    simp only [hload] at h
    cases h
    exact .stopped hprepared
  | ok doc =>
    cases hparse : Ingestion.runWith doc q.overrides with
    | error fault =>
      have hprepared : prepare limits q.overrides p (d.tree.look p) =
          .error (parseFailure (loaded p) fault) := by
        simp only [prepare, hload, hparse]
      simp only [hload, hparse] at h
      cases h
      exact .stopped hprepared
    | ok read =>
      obtain ⟨model, s⟩ := read
      simp only [hload, hparse] at h
      cases hlimit : limits model s with
      | some fault =>
        have hprepared : prepare limits q.overrides p (d.tree.look p) =
            .error (assemblyFailure (parsed (loaded p) model) fault) := by
          simp only [prepare, hload, hparse, hlimit]
        unfold generate at h
        rw [hlimit] at h
        cases h
        exact .stopped hprepared
      | none =>
        have hprepared : prepare limits q.overrides p (d.tree.look p) =
            .ok (s, assemble model s (parsed (loaded p) model)) := by
          simp only [prepare, hload, hparse, hlimit]
        obtain ⟨b, rfl, hgenerate⟩ | ⟨⟨r, more⟩, d₁, hgenerate, h⟩ := bind_cases h
        · exact outcome_generate hlimit hprepared hgenerate
        · have houtcome := outcome_generate hlimit hprepared hgenerate
          cases h
          exact houtcome

/-- A run that comes to a report says something on the way. -/
theorem exists_log_of_map_eq_ok {outcome : Except Breakdown (Report × Log)} {r : Report}
    (h : outcome.map Prod.fst = .ok r) : ∃ log, outcome = .ok (r, log) := by
  cases outcome with
  | error b => cases h
  | ok told =>
    cases h
    exact ⟨told.2, rfl⟩

/-- A run that is not prepared is over. -/
theorem Outcome.of_error {limits : Limits} {machine : Machine} {q : Request} {p : Path}
    {d after : Disk} {outcome : Except Breakdown Report} {r : Report}
    (h : Outcome limits machine q p d outcome after)
    (prepared : prepare limits q.overrides p (d.tree.look p) = .error r) :
    outcome = .ok r ∧ after = d := by
  cases h with
  | stopped prepared' =>
    rw [prepared] at prepared'
    cases prepared'
    exact ⟨rfl, rfl⟩
  | dry _ prepared' | unresolved _ prepared' | brokeDown _ prepared' | exported _ prepared' =>
    exact nomatch prepared.symm.trans prepared'

/-- A run that stops before the export has failed in one of the first three steps; otherwise these
have succeeded. -/
theorem tells_prepare (limits : Limits) (overrides : Entries) (p : Path) (found : Option Entry) :
    match prepare limits overrides p found with
    | .error r => ∃ done failed, Tells r ⟨done, some failed⟩ ∧ done ++ [failed] <+: Step.all ∧
        .exporting ∉ done ++ [failed] ∧ ∃ r', r = finish r'
    | .ok (_, r) => Tells r ⟨[.loading, .parsing, .assembling], none⟩ := by
  have hloaded : Tells (loaded p) ⟨[.loading], none⟩ :=
    Tells.empty.addStep (by decide) (by decide) _
  have hparsed (model : DataModel) : Tells (parsed (loaded p) model) ⟨[.loading, .parsing], none⟩ :=
    hloaded.addStep (by decide) (by decide) _
  unfold prepare
  cases ModelFile.load p found with
  | error fault =>
    refine ⟨[], .loading, ?_, by decide, by decide, _, rfl⟩
    exact .loadFailure fault
  | ok doc =>
    cases hparse : Ingestion.runWith doc overrides with
    | error fault =>
      simp only [hparse]
      refine ⟨[.loading], .parsing, ?_, by decide, by decide, _, rfl⟩
      exact hloaded.parseFailure fault
    | ok read =>
      obtain ⟨model, s⟩ := read
      simp only [hparse]
      cases limits model s with
      | some fault =>
        refine ⟨[.loading, .parsing], .assembling, ?_, by decide, by decide, _, rfl⟩
        exact (hparsed model).assemblyFailure fault
      | none => exact (hparsed model).assemble model s

/-- Every run that comes to a report has a course: some of the steps, in order. A course without the
export leaves the disk alone, and so does a dry run. -/
theorem Outcome.exists_course {limits : Limits} {machine : Machine} {q : Request} {p : Path}
    {d after : Disk} {r : Report} (h : Outcome limits machine q p d (.ok r) after) :
    ∃ c, Tells r c ∧ (∃ r', r = finish r') ∧ c.taken ≠ [] ∧ c.taken <+: Step.all ∧
      (.exporting ∉ c.taken → after = d) ∧ (q.dryRun = true → .exporting ∉ c.taken) := by
  have hprepare := tells_prepare limits q.overrides p (d.tree.look p)
  cases h with
  | stopped prepared =>
    rw [prepared] at hprepare
    obtain ⟨done, failed, htells, hprefix, hexport, hfinish⟩ := hprepare
    exact ⟨_, htells, hfinish, by simp [Course.taken], hprefix, fun _ => rfl, fun _ => hexport⟩
  | dry dryRun prepared =>
    rw [prepared] at hprepare
    exact ⟨_, hprepare.finish, ⟨_, rfl⟩, by decide, by decide, fun _ => rfl, fun _ => by decide⟩
  | exported dryRun prepared run =>
    rw [prepared] at hprepare
    -- the export is the last step, so that what it leaves on the disk does not matter here
    have hresult := ExportPlan.result_run (Disk.calls machine) _ _ run
    have htells := (hprepare.addExport (by decide) hresult).finish
    refine ⟨_, htells, ⟨_, rfl⟩, ?_, ?_, ?_, by simp [dryRun]⟩
    · simp
    · rw [Course.taken_after]
      decide
    · simp

/-- Every report tells whether its run was a success. -/
theorem Outcome.success_iff {limits : Limits} {machine : Machine} {q : Request} {p : Path}
    {d after : Disk} {r : Report} (h : Outcome limits machine q p d (.ok r) after) :
    r.success = true ↔
      r.ingestionErrors = [] ∧ r.generationErrors = [] ∧ r.exportErrors = [] := by
  obtain ⟨-, -, ⟨r', rfl⟩, -⟩ := h.exists_course
  exact success_finish_iff r'

/-- Only a run that would export breaks down. -/
theorem Outcome.exists_report {limits : Limits} {machine : Machine} {q : Request} {p : Path}
    {d after : Disk} {outcome : Except Breakdown Report}
    (h : Outcome limits machine q p d outcome after) (hdry : q.dryRun = true) :
    ∃ r, outcome = .ok r := by
  cases h with
  | stopped | dry => exact ⟨_, rfl⟩
  | unresolved hfull | brokeDown hfull | exported hfull => exact nomatch hdry.symm.trans hfull

/-- **A report agrees with itself and with the disk.** Whatever stands on the disk, whichever
changes it refuses, whatever the machine makes of that, and whichever assembly it gives up, a dry
run comes to a report, and the report that any run comes to
- records steps from the first one on, at least one, and all but the last with success,
- is a success exactly if all records are, and exactly if it has no errors,
- has errors exactly in the list of a step that failed, and so in one list at most,
- holds a document exactly if it was assembled, and a path exactly if it was exported to;
and a run without a record of the export, as every dry run is, leaves the disk as it was. -/
theorem report_agrees_with_course (limits : Limits) (machine : Machine) (q : Request) (p : Path)
    (d : Disk) :
    (q.dryRun = true → ∃ r log, run (Disk.calls machine) q p limits d = (.ok (r, log), d)) ∧
    ∀ r log after, run (Disk.calls machine) q p limits d = (.ok (r, log), after) →
      let names := r.steps.map StepMetric.stepName
      (names ≠ [] ∧ names <+:
          ["Load Model File", "Parse Model", "Assemble Schemas", "Export to Filesystem"]) ∧
        (∀ metric ∈ r.steps.dropLast, metric.success = true) ∧
        (r.success = true ↔ ∀ metric ∈ r.steps, metric.success = true) ∧
        (r.success = true ↔
          r.ingestionErrors = [] ∧ r.generationErrors = [] ∧ r.exportErrors = []) ∧
        (∀ list : ErrorList, list.errors r ≠ [] ↔
          ∃ step : Step, step.IsRecordedAs false r ∧ step.errorList = list) ∧
        (∀ list other : ErrorList, list.errors r ≠ [] → other.errors r ≠ [] → list = other) ∧
        (r.outputText ≠ "" ↔ Step.assembling.IsRecordedAs true r) ∧
        (r.outputPath ≠ "" ↔ Step.exporting.IsRecordedAs true r) ∧
        (¬Step.exporting.IsRecorded r → after = d) ∧
        (q.dryRun = true → ¬Step.exporting.IsRecorded r) := by
  refine ⟨fun hdry => ?_, fun r log after hrun => ?_⟩
  · rcases hrun : run (Disk.calls machine) q p limits d with ⟨outcome, after⟩
    have houtcome := outcome_run hrun
    obtain ⟨r, hr⟩ := houtcome.exists_report hdry
    obtain ⟨log, rfl⟩ := exists_log_of_map_eq_ok hr
    obtain ⟨c, -, -, -, -, hdisk, hnot⟩ := houtcome.exists_course
    exact ⟨r, log, by rw [hdisk (hnot hdry)]⟩
  have houtcome : Outcome limits machine q p d (.ok r) after := outcome_run hrun
  obtain ⟨c, htells, -, hne, hprefix, hdisk, hdry⟩ := houtcome.exists_course
  have hnames : r.steps.map StepMetric.stepName = c.taken.map Step.name := htells.map_stepName
  refine ⟨⟨?_, ?_⟩, ?_, ?_, houtcome.success_iff, ?_, ?_, ?_, ?_, ?_, ?_⟩
  · rw [hnames]
    simpa using hne
  · rw [hnames]
    exact hprefix.map Step.name
  · exact fun metric => htells.success_of_mem_dropLast
  · rw [houtcome.success_iff, ← ErrorList.forall_errors_eq_nil_iff,
      ← htells.failed_eq_none_iff_errors]
    exact htells.failed_eq_none_iff
  · intro list
    rw [htells.errors list]
    refine exists_congr fun step => and_congr_left fun _ => ?_
    exact htells.isRecordedAs_false_iff.symm
  · intro list other hlist hother
    obtain ⟨step, hstep, rfl⟩ := (htells.errors list).mp hlist
    obtain ⟨step', hstep', rfl⟩ := (htells.errors other).mp hother
    rw [Option.mem_unique hstep hstep']
  · rw [htells.isRecordedAs_true_iff]
    exact htells.text
  · rw [htells.isRecordedAs_true_iff]
    exact htells.path
  · rw [htells.isRecorded_iff]
    exact hdisk
  · rw [htells.isRecorded_iff]
    exact hdry

/-- A model file that declares nothing. -/
def sampleFile : List UInt8 := [123, 34, 109, 111, 100, 101, 108, 115, 34, 58, 91, 93, 125]

/-- A disk with just that file. -/
def sampleDisk : Disk := .ofTree ⟨[(⟨["m.json"]⟩, .file sampleFile)]⟩ "tag"

/-- Where no directory can be made, the run has errors of the export and of nothing else, and it is
the export that is recorded without success. -/
theorem refused_export_is_reported :
    let q : Request := ⟨.root, none, [], false, true, "noon"⟩
    let d : Disk := { sampleDisk with refusals := [some ⟨.noSpace, []⟩] }
    ∃ r log after, run (Disk.calls .sound) q ⟨["m.json"]⟩ .none d = (.ok (r, log), after) ∧
      r.exportErrors ≠ [] ∧ r.ingestionErrors = [] ∧ r.generationErrors = [] ∧
      r.success = false ∧ Step.exporting.IsRecordedAs false r := by
  intro q d
  have hresult : ((run (Disk.calls .sound) q ⟨["m.json"]⟩ .none d).1.toOption.any fun told =>
      !told.1.exportErrors.isEmpty) = true := by decide +kernel
  obtain ⟨⟨r, log⟩, hrun, htest⟩ :=
    exists_of_any (run (Disk.calls .sound) q ⟨["m.json"]⟩ .none) d hresult
  have hexport : r.exportErrors ≠ [] := by simpa using htest
  obtain ⟨-, hreport⟩ := report_agrees_with_course .none .sound q ⟨["m.json"]⟩ d
  obtain ⟨-, -, -, hsuccess, herrors, honly, -⟩ := hreport r log _ hrun
  obtain ⟨step, hrecorded, hstep⟩ := (herrors .placement).mp hexport
  refine ⟨r, log, _, hrun, hexport, ?_, ?_, ?_, ?_⟩
  · exact Decidable.of_not_not fun h => nomatch honly .ingestion .placement h hexport
  · exact Decidable.of_not_not fun h => nomatch honly .generation .placement h hexport
  · rw [Bool.eq_false_iff]
    exact fun h => hexport (hsuccess.mp h).2.2
  · cases step with
    | exporting => exact hrecorded
    | _ => cases hstep

end Pipeline

end ModelSchemas
