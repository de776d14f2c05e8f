import ModelSchemas.Proofs.Export.Outcome

/-!
# What an export leaves alone

An export that replaces files in one step touches the document and the manifest and no other file,
and leaves no temporary file behind, even if it breaks down. If it fails, every file is as it was:
what a refused write has put into a temporary file goes with that file.
-/

namespace ModelSchemas

open Files Document

namespace Files

/-! ## Temporary files -/

/-- A path that a temporary file may get when the file at `p` is replaced. -/
def IsTemporaryOf (p q : Path) : Prop :=
  ∃ middle, q = p.parent.child ("." ++ p.name ++ "." ++ middle ++ ".tmp")

theorem IsTemporaryOf.head?_name {p q : Path} (h : IsTemporaryOf p q) :
    q.name.toList.head? = some '.' := by
  obtain ⟨middle, rfl⟩ := h
  rw [Path.name_child]
  simp

theorem Tree.freshName_eq (t : Tree) (directory : Path) (tag before after : String) :
    ∃ middle, t.freshName directory tag before after = before ++ middle ++ after := by
  unfold freshName
  dsimp only
  cases hfound : (List.find? _ _ : Option String) with
  | none => exact ⟨tag, rfl⟩
  | some name =>
    obtain ⟨n, -, rfl⟩ := List.mem_map.mp (List.mem_of_find?_eq_some hfound)
    exact ⟨tag ++ String.ofList (List.replicate n '_'), by simp [String.append_assoc]⟩

/-- A temporary file is made at such a path. -/
theorem isTemporaryOf_of_createTemporary {machine : Machine} {p temporary : Path} {d d₁ : Disk}
    (h : (Disk.calls machine).createTemporary p.parent s!".{p.name}." ".tmp" d =
      (.ok (.ok temporary), d₁)) : IsTemporaryOf p temporary := by
  rcases createTemporary_cases h with ⟨⟨fault, hfault⟩, -⟩ | ⟨made, hmade, hfresh, -⟩
  · cases hfault
  · cases hmade
    obtain ⟨middle, hname⟩ := d.tree.freshName_eq p.parent d.tag s!".{p.name}." ".tmp"
    exact ⟨middle, hfresh.trans (congrArg p.parent.child hname)⟩

end Files

namespace ExportPlan

theorem manifestPath_not_isTemporaryOf (plan : ExportPlan) (p : Path) :
    ¬IsTemporaryOf p plan.manifestPath := by
  intro h
  have hhead := h.head?_name
  rw [manifestPath, Path.name_child] at hhead
  exact absurd hhead (by decide)

/-! ## Outcomes -/

section Outcomes

variable {machine : Machine} {plan : ExportPlan} {text : String} {t u : Tree}
  {outcome : Except Breakdown ExportResult} (hatomic : plan.atomic = true)

include hatomic

/-- What stood anywhere stands there still, apart from the document and a wanted manifest. -/
theorem Outcome.kept (h : Outcome machine plan text t u outcome) {q : Path} {e : Entry}
    (hq : t.get? q = some e) :
    q = plan.target ∨ (plan.withManifest = true ∧ q = plan.manifestPath) ∨ u.get? q = some e := by
  cases h with
  | brokeDown _ tree | failed _ tree => exact .inr (.inr (tree.kept q e hq))
  | brokeDownLater _ tree | document _ _ _ _ tree =>
    exact (tree.hasSaved.kept q e hq).imp_right .inr
  | torn _ inPlace | tornManifest _ _ _ _ _ inPlace => exact nomatch hatomic.symm.trans inPlace
  | both _ _ wanted _ _ document manifest =>
    rcases document.hasSaved.kept q e hq with heq | hmid
    · exact .inl heq
    · exact .inr ((manifest.hasSaved.kept q e hmid).imp_left (⟨wanted, ·⟩))

/-- A file is the document, or the wanted manifest, or it has been there. -/
theorem Outcome.file_cases (h : Outcome machine plan text t u outcome) {q : Path}
    {bytes : List UInt8} (hq : u.get? q = some (.file bytes)) :
    q = plan.target ∨ (plan.withManifest = true ∧ q = plan.manifestPath) ∨
      t.get? q = some (.file bytes) := by
  cases h with
  | brokeDown _ tree | failed _ tree => exact .inr (.inr (tree.added q bytes hq))
  | brokeDownLater _ tree | document _ _ _ _ tree =>
    exact (tree.hasSaved.added q bytes hq).imp_right .inr
  | torn _ inPlace | tornManifest _ _ _ _ _ inPlace => exact nomatch hatomic.symm.trans inPlace
  | both _ _ wanted _ _ document manifest =>
    rcases manifest.hasSaved.added q bytes hq with heq | hmid
    · exact .inr (.inl ⟨wanted, heq⟩)
    · exact (document.hasSaved.added q bytes hmid).imp_right .inr

/-- A failure adds directories at most. -/
theorem Outcome.onlyDirectoriesAdded {result : ExportResult}
    (h : Outcome machine plan text t u (.ok result)) (hfailed : result.success = false) :
    t.OnlyDirectoriesAdded u := by
  cases h with
  | failed _ tree => exact tree
  | torn _ inPlace | tornManifest _ _ _ _ _ inPlace => exact nomatch hatomic.symm.trans inPlace
  | document success | both success => exact nomatch hfailed.symm.trans success

end Outcomes

/-! ## The frame -/

/-- **The frame of an export.** Whichever changes the disk refuses, and whatever its refused writes
leave in a file, an export that replaces files in one step
- makes temporary files at the paths for temporary files of the document or the manifest, and leaves
  none there that was not there before,
- changes no file but the document and, if one is wanted, the manifest, and makes no other,
- and if it fails, leaves every file as it was, makes none, and loses no directory.
The first two hold even of an export that breaks down. -/
theorem atomic_export_frame {description : Value} {plan : ExportPlan}
    (haccepted : Settings.decode description = .accepted plan.settings)
    (hdirectory : plan.directory.IsResolved) (hatomic : plan.atomic = true) (text : String)
    (machine : Machine) (d : Disk) :
    let exported := plan.run (Disk.calls machine) .empty text d
    let before := d.tree
    let after := exported.2.tree
    (∀ p ∈ [plan.target, plan.manifestPath],
        (∀ now temporary later, (Disk.calls machine).createTemporary p.parent s!".{p.name}." ".tmp"
          now = (.ok (.ok temporary), later) → IsTemporaryOf p temporary) ∧
        ∀ q, IsTemporaryOf p q → q ≠ plan.target →
          (∀ bytes, before.get? q ≠ some (.file bytes)) →
            ∀ bytes, after.get? q ≠ some (.file bytes)) ∧
      (∀ q ≠ plan.target, ¬(plan.withManifest = true ∧ q = plan.manifestPath) →
        ∀ bytes, after.get? q = some (.file bytes) ↔ before.get? q = some (.file bytes)) ∧
      (∀ result ledger log, exported.1 = .ok (result, ledger, log) → result.success = false →
        (∀ q bytes, after.get? q = some (.file bytes) ↔ before.get? q = some (.file bytes)) ∧
          ∀ q, before.get? q = some .directory → after.get? q = some .directory) := by
  intro exported before after
  have hbare := Settings.isBareFileName_of_decode haccepted
  have houtcome : Outcome machine plan text before after (exported.1.map Prod.fst) :=
    outcome_run hdirectory hbare rfl
  refine ⟨?temporary, ?others, ?failed⟩
  case temporary =>
    refine fun p _ => ⟨fun _ _ _ => isTemporaryOf_of_createTemporary, ?_⟩
    intro q htemporary htarget hbefore bytes hafter
    rcases houtcome.file_cases hatomic hafter with heq | ⟨-, heq⟩ | hfile
    · exact htarget heq
    · rw [heq] at htemporary
      exact plan.manifestPath_not_isTemporaryOf p htemporary
    · exact hbefore bytes hfile
  case others =>
    intro q htarget hmanifest bytes
    constructor
    · intro hafter
      exact ((houtcome.file_cases hatomic hafter).resolve_left htarget).resolve_left hmanifest
    · intro hbefore
      exact ((houtcome.kept hatomic hbefore).resolve_left htarget).resolve_left hmanifest
  case failed =>
    intro result ledger log hresult hfailed
    rw [hresult] at houtcome
    have hadded := houtcome.onlyDirectoriesAdded hatomic hfailed
    exact ⟨fun q bytes => ⟨hadded.added q bytes, hadded.kept q _⟩, fun q => hadded.kept q _⟩

/-- A document is on disk, and when it is exported again there is room for one byte only: the
document is as it was, and the byte is gone. -/
theorem no_space_keeps_document :
    let plan : ExportPlan := ⟨.default, ⟨["out"]⟩, true, true, "1970-01-01T00:00:00+0000"⟩
    let machine : Machine := { Machine.sound with torn := fun bytes => some (bytes.take 1) }
    let document : Path := ⟨["out", "index.ts"]⟩
    let d : Disk := ⟨⟨[(⟨["out"]⟩, .directory), (document, .file [120, 10])]⟩,
      [none, none, none, some ⟨.noSpace, []⟩], "tag"⟩
    let exported := plan.run (Disk.calls machine) .empty "y\n" d
    (∃ result ledger log, exported.1 = .ok (result, ledger, log) ∧ result.success = false) ∧
      exported.2.tree.get? document = some (.file [120, 10]) ∧
      ∀ bytes, exported.2.tree.get? ⟨["out", ".index.ts.tag.tmp"]⟩ ≠ some (.file bytes) := by
  intro plan machine document d exported
  have haccepted : Settings.decode (.mapping []) = .accepted plan.settings := rfl
  have hdirectory : plan.directory.IsResolved := by simp [plan, Path.IsResolved, Path.upName]
  obtain ⟨htemporary, -, hfailed⟩ := atomic_export_frame haccepted hdirectory rfl "y\n" machine d
  have hresult : (exported.1.toOption.any fun run => !run.1.success) = true := by decide +kernel
  obtain ⟨⟨result, ledger, log⟩, hrun, htest⟩ :=
    exists_of_any (plan.run (Disk.calls machine) .empty "y\n") d hresult
  have hsuccess : result.success = false := Bool.not_eq_true' _ ▸ htest
  have hexported : exported.1 = .ok (result, ledger, log) := congrArg Prod.fst hrun
  obtain ⟨hfiles, -⟩ := hfailed result ledger log hexported hsuccess
  have htarget : IsTemporaryOf plan.target ⟨["out", ".index.ts.tag.tmp"]⟩ :=
    ⟨"tag", by decide +kernel⟩
  have hfree : d.tree.get? ⟨["out", ".index.ts.tag.tmp"]⟩ = none := by decide
  refine ⟨⟨result, ledger, log, hexported, hsuccess⟩, (hfiles document _).mpr (by decide), ?_⟩
  exact (htemporary plan.target List.mem_cons_self).2 _ htarget (by decide +kernel)
    fun bytes => by simp [hfree]

end ExportPlan

end ModelSchemas
