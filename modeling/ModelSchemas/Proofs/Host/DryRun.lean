import ModelSchemas.Proofs.Export.Document
import ModelSchemas.Proofs.Files.Nesting
import ModelSchemas.Proofs.Host.Course

/-!
# Dry runs

A dry run and a full run with the same overrides are prepared alike, so that the one foretells the
other: both fail before the export, or both come to the same document. What a dry run cannot tell is
how the export goes, and whether the place of the output can be reached at all.
-/

namespace ModelSchemas

open Document Files

/-! ## Settings of a run -/

/-- The settings of a run have been accepted. -/
theorem Ingestion.exists_decode_of_runWith {doc overrides : Entries} {m : DataModel} {s : Settings}
    (h : Ingestion.runWith doc overrides = .ok (m, s)) :
    ∃ description, Settings.decode description = .accepted s := by
  unfold runWith at h
  cases hoverride : override doc overrides with
  | error fault =>
    rw [hoverride] at h
    cases h
  | ok entries =>
    rw [hoverride] at h
    change run entries = _ at h
    unfold run at h
    cases hmodel : findModel entries with
    | error fault =>
      rw [hmodel] at h
      cases h
    | ok model =>
      rw [hmodel] at h
      simp only [bind, Except.bind] at h
      split at h
      · cases h
      · split at h
        · cases h
        · rename_i hsettings
          cases h
          exact ⟨_, hsettings⟩

namespace Pipeline

section Runs

variable {limits : Limits} {machine : Machine} {p : Path} {d : Disk}

/-- These are the settings of what was found at the path of a model file, under some overrides. -/
def HasSettings (p : Path) (found : Option Entry) (overrides : Entries) (s : Settings) : Prop :=
  ∃ doc m, ModelFile.load p found = .ok doc ∧ Ingestion.runWith doc overrides = .ok (m, s)

/-- The settings under which a run got as far as the export are those of the model file. -/
theorem hasSettings_of_prepare {overrides : Entries} {found : Option Entry} {s : Settings}
    {r : Report} (h : prepare limits overrides p found = .ok (s, r)) :
    HasSettings p found overrides s := by
  unfold prepare at h
  cases hload : ModelFile.load p found with
  | error fault =>
    rw [hload] at h
    cases h
  | ok doc =>
    rw [hload] at h
    cases hread : Ingestion.runWith doc overrides with
    | error fault =>
      simp only [hread] at h
      cases h
    | ok read =>
      obtain ⟨m, settings⟩ := read
      simp only [hread] at h
      split at h
      · cases h
      · cases h
        exact ⟨doc, m, hload, hread⟩

theorem HasSettings.isBareFileName {overrides : Entries} {found : Option Entry} {s : Settings}
    (h : HasSettings p found overrides s) : Settings.isBareFileName s.outputFileName := by
  obtain ⟨doc, m, -, hread⟩ := h
  obtain ⟨description, hsettings⟩ := Ingestion.exists_decode_of_runWith hread
  exact Settings.isBareFileName_of_decode hsettings

/-- A run that stops before the export is no success. -/
theorem success_eq_false_of_prepare {overrides : Entries} {found : Option Entry} {r : Report}
    (h : prepare limits overrides p found = .error r) : r.success = false := by
  have htells := tells_prepare limits overrides p found
  rw [h] at htells
  obtain ⟨done, failed, htells, -, -, r', rfl⟩ := htells
  have herrors : failed.errorList.errors (finish r') ≠ [] :=
    (htells.errors failed.errorList).mpr ⟨failed, rfl, rfl⟩
  rw [Bool.eq_false_iff]
  intro hsuccess
  exact herrors ((ErrorList.forall_errors_eq_nil_iff _).mpr ((success_finish_iff r').mp hsuccess) _)

/-! ## The place of the output -/

/-- The plan of a run under its settings, once the output directory has been resolved. -/
def planOf (q : Request) (s : Settings) : ExportPlan := q.exportPlan s (q.outputPath s).resolve

/-- Why the place of the output may be out of reach on a machine: its path cannot be resolved, or
calls cannot nest as deep as it has names, so that its directories cannot all wait for the one
above them. -/
def IsOutOfReach (machine : Machine) (q : Request) (s : Settings) : Breakdown → Prop
  | .unresolvable p => p = q.outputPath s ∧ machine.resolves p = false
  | .tooDeep => machine.EndsBefore (q.outputPath s).resolve.names.length

/-- An export breaks down only if its directories are too many. -/
theorem isOutOfReach_of_run {q : Request} {s : Settings}
    (hbare : Settings.isBareFileName s.outputFileName) {text : String} {b : Breakdown}
    {after : Disk} (hrun : (planOf q s).run (Disk.calls machine) .empty text d =
      (.error b, after)) : IsOutOfReach machine q s b := by
  have hdirectory : (planOf q s).directory.IsResolved := Path.isResolved_resolve _
  have houtcome : ExportPlan.Outcome machine (planOf q s) text d.tree after.tree (.error b) :=
    ExportPlan.outcome_run hdirectory hbare hrun
  cases houtcome with
  | brokeDown deep | brokeDownLater deep => exact deep

/-- A successful export of the pipeline leaves its document at the path in the report, unless the
manifest goes there. -/
theorem look_target_of_success {q : Request} {s : Settings}
    (hbare : Settings.isBareFileName s.outputFileName) {r : Report} {result : ExportResult}
    {ledger : ExportLedger} {log : Log} {after : Disk}
    (hrun : (planOf q s).run (Disk.calls machine) .empty r.outputText d =
      (.ok (result, ledger, log), after))
    (hsuccess : (finish (addExport r result)).success = true) :
    (addExport r result).outputPath = (planOf q s).target.render ∧
      (s.outputFileName ≠ ExportPlan.manifestName →
        after.tree.look (planOf q s).target = some (.file (Utf8.encode r.outputText))) := by
  have hnone : result.errors = [] := by
    obtain ⟨-, -, herrors⟩ := (success_finish_iff _).mp hsuccess
    have herrors : r.exportErrors ++ result.errors = [] := herrors
    exact (List.append_eq_nil_iff.mp herrors).2
  have hresult := ExportPlan.result_run (Disk.calls machine) (planOf q s) r.outputText hrun
  obtain ⟨-, hdone, hpath⟩ := hresult.resolve_right fun h => h.1 hnone
  constructor
  · simp only [addExport, addStep, hpath]
  · intro hname
    have hdirectory : (planOf q s).directory.IsResolved := Path.isResolved_resolve _
    have houtcome : ExportPlan.Outcome machine (planOf q s) r.outputText d.tree after.tree
        (.ok result) := ExportPlan.outcome_run hdirectory hbare hrun
    obtain ⟨found, hlook, hholds⟩ := houtcome.look_target hbare hdone
    have hnot : ¬(planOf q s).ManifestReplaces result := fun h => hname h.2.1
    rw [hlook, hholds.kept hnot]

/-- An export leaves the document of the report and the errors of the other steps alone. -/
theorem kept_by_export (r : Report) (result : ExportResult) :
    (finish (addExport r result)).outputText = r.outputText ∧
      (finish (addExport r result)).ingestionErrors = r.ingestionErrors ∧
      (finish (addExport r result)).generationErrors = r.generationErrors := by
  simp only [finish, addExport, addStep, and_self]

section Outcomes

variable {q : Request} {r : Report} {s : Settings} {outcome : Except Breakdown Report}
  {after : Disk} (h : Outcome limits machine q p d outcome after)

include h

/-- A dry run that is prepared is over. -/
theorem Outcome.of_dry (prepared : prepare limits q.overrides p (d.tree.look p) = .ok (s, r))
    (hdry : q.dryRun = true) : outcome = .ok (finish r) ∧ after = d := by
  cases h with
  | stopped prepared' => exact nomatch prepared.symm.trans prepared'
  | dry _ prepared' =>
    rw [prepared] at prepared'
    cases prepared'
    exact ⟨rfl, rfl⟩
  | unresolved hfull | brokeDown hfull | exported hfull => exact nomatch hdry.symm.trans hfull

/-- A full run that is prepared exports, or the place of its output is out of reach. -/
theorem Outcome.of_full (prepared : prepare limits q.overrides p (d.tree.look p) = .ok (s, r))
    (hfull : q.dryRun = false) :
    (∃ b, outcome = .error b ∧ IsOutOfReach machine q s b) ∨
      ∃ result ledger log, outcome = .ok (finish (addExport r result)) ∧
        (planOf q s).run (Disk.calls machine) .empty r.outputText d =
          (.ok (result, ledger, log), after) := by
  have hsettings := hasSettings_of_prepare prepared
  cases h with
  | stopped prepared' => exact nomatch prepared.symm.trans prepared'
  | dry hdry => exact nomatch hdry.symm.trans hfull
  | unresolved _ prepared' unresolvable =>
    rw [prepared] at prepared'
    cases prepared'
    exact .inl ⟨_, rfl, rfl, unresolvable⟩
  | brokeDown _ prepared' run =>
    rw [prepared] at prepared'
    cases prepared'
    exact .inl ⟨_, rfl, isOutOfReach_of_run hsettings.isBareFileName run⟩
  | exported _ prepared' run =>
    rw [prepared] at prepared'
    cases prepared'
    exact .inr ⟨_, _, _, rfl, run⟩

/-- A full run that is prepared breaks down where calls may not nest as deep as directories are
missing. -/
theorem Outcome.exists_breakdown
    (prepared : prepare limits q.overrides p (d.tree.look p) = .ok (s, r))
    (hfull : q.dryRun = false) (hrefusals : d.refusals = []) {limit : Nat}
    (hnesting : machine.nesting = some limit) {first : String} {rest : List String}
    (hpath : (q.outputPath s).resolve = ⟨first :: rest⟩) (hname : first ≠ Path.upName)
    (hsize : first.utf8ByteSize ≤ Tree.nameLimit) (hfree : d.tree.get? ⟨[first]⟩ = none)
    (hdeep : limit < rest.length) : ∃ b, outcome = .error b := by
  rcases h.of_full prepared hfull with ⟨b, hbroke, -⟩ | ⟨result, ledger, log, -, hrun⟩
  · exact ⟨b, hbroke⟩
  · have hdirectory : ensureDirectory (Disk.calls machine) (planOf q s).directory d =
        (.error .tooDeep, d) := by
      rw [planOf, Request.exportPlan, hpath]
      exact ensureDirectory_tooDeep hnesting hrefusals hname hsize hfree hdeep
    have hwrite : (planOf q s).writeDocument (Disk.calls machine) r.outputText d =
        (.error .tooDeep, d) := run_bind_error hdirectory
    have hbroke : (planOf q s).run (Disk.calls machine) .empty r.outputText d =
        (.error .tooDeep, d) := run_bind_error hwrite
    exact nomatch (congrArg Prod.fst hbroke).symm.trans (congrArg Prod.fst hrun)

end Outcomes

/-! ## Foretelling -/

/-- What goes on to the export is a success so far. -/
theorem success_finish_of_prepare {overrides : Entries} {found : Option Entry} {s : Settings}
    {r : Report} (h : prepare limits overrides p found = .ok (s, r)) :
    (finish r).success = true := by
  have htells := tells_prepare limits overrides p found
  rw [h] at htells
  exact (success_finish_iff r).mpr ((ErrorList.forall_errors_eq_nil_iff r).mp htells.errors_eq_nil)

/-- What a dry run tells of a full run that came to this outcome and disk. It fails alike, or it has
the same document. Then only the export can fail, and if it does not, the document is at the path in
the report, unless it goes under the name of the manifest; and the export breaks down only where the
place of the output is out of reach. -/
inductive Foretells (machine : Machine) (p : Path) (d : Disk) (full : Request) (told : Report)
    (after : Disk) : Except Breakdown Report → Prop where
  | failed (success : told.success = false) : Foretells machine p d full told after (.ok told)
  | outOfReach (success : told.success = true) {s : Settings}
      (settings : HasSettings p (d.tree.look p) full.overrides s) {b : Breakdown}
      (unreached : IsOutOfReach machine full s b) : Foretells machine p d full told after (.error b)
  | assembled (success : told.success = true) {r : Report}
      (outputText : r.outputText = told.outputText)
      (ingestionErrors : r.ingestionErrors = []) (generationErrors : r.generationErrors = [])
      (placed : r.success = true → ∃ s, HasSettings p (d.tree.look p) full.overrides s ∧
        r.outputPath = (planOf full s).target.render ∧
        (s.outputFileName ≠ ExportPlan.manifestName →
          after.tree.look (planOf full s).target = some (.file (Utf8.encode told.outputText)))) :
    Foretells machine p d full told after (.ok r)

/-- **A dry run foretells the full run** with the same overrides, and leaves the disk alone. -/
theorem dry_foretells {dry full : Request} (hdry : dry.dryRun = true) (hfull : full.dryRun = false)
    (hoverrides : dry.overrides = full.overrides) {outcome outcome' : Except Breakdown Report}
    {left after : Disk} (h : Outcome limits machine dry p d outcome left)
    (h' : Outcome limits machine full p d outcome' after) :
    ∃ told, outcome = .ok told ∧ left = d ∧ Foretells machine p d full told after outcome' := by
  -- both runs are prepared by the same function of the overrides and the file, so that they stop
  -- together or come to the same settings and report
  cases prepared : prepare limits full.overrides p (d.tree.look p) with
  | error stopped =>
    obtain ⟨rfl, hleft⟩ := h.of_error (hoverrides ▸ prepared)
    obtain ⟨rfl, -⟩ := h'.of_error prepared
    exact ⟨stopped, rfl, hleft, .failed (success_eq_false_of_prepare prepared)⟩
  | ok ready =>
    obtain ⟨s, assembled⟩ := ready
    have hsettings := hasSettings_of_prepare prepared
    obtain ⟨rfl, hleft⟩ := h.of_dry (hoverrides ▸ prepared) hdry
    have hsuccess : (finish assembled).success = true := success_finish_of_prepare prepared
    have herrors := (success_finish_iff assembled).mp hsuccess
    refine ⟨_, rfl, hleft, ?_⟩
    rcases h'.of_full prepared hfull with ⟨b, rfl, hreach⟩ | ⟨result, ledger, log, rfl, hrun⟩
    · exact .outOfReach hsuccess hsettings hreach
    · obtain ⟨htext, hingestion, hgeneration⟩ := kept_by_export assembled result
      exact .assembled hsuccess htext (hingestion.trans herrors.1)
        (hgeneration.trans herrors.2.1) fun hdone =>
          ⟨s, hsettings, look_target_of_success hsettings.isBareFileName hrun hdone⟩

end Runs

end Pipeline

end ModelSchemas
