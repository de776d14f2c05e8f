import ModelSchemas.Export.Exporter
import ModelSchemas.Proofs.Files.Saving
import ModelSchemas.Proofs.Model.AcceptedSettings

/-!
# The outcome of an export

What an export with a fresh ledger may come to on a disk that may refuse any change, and on a
machine that may leave part of a file or break down: it fails and leaves directories behind at most,
or what a refused write has left of the document; or it saves the document, and after it perhaps the
manifest. It breaks down only while it makes directories.
-/

namespace ModelSchemas

open Files

namespace ExportPlan

/-! ## Places -/

/-- A bare file name leads to an entry of the directory, or to the directory itself. -/
theorem target_cases {plan : ExportPlan}
    (h : Settings.isBareFileName plan.settings.outputFileName) :
    plan.target = plan.directory.child plan.settings.outputFileName ∨
      plan.target = plan.directory := by
  unfold target
  generalize plan.settings.outputFileName = name at h
  obtain ⟨hslash, -⟩ := Bool.and_eq_true_iff.mp h
  have hslash : '/' ∉ name.toList := by simpa using hslash
  have hhead : name.toList.head? ≠ some '/' := fun heq => hslash (List.mem_of_head? heq)
  rw [Path.follow, if_neg hhead, Path.namesOf, List.splitOn_eq_singleton hslash]
  by_cases hnil : name.toList = []
  · right
    simp [hnil]
  · by_cases hdot : name.toList = ['.']
    · right
      simp [hdot]
    · left
      simp [hnil, hdot, Path.child]

/-- The directory of the document is the output directory, or the one above it. -/
theorem length_parent_target_le {plan : ExportPlan}
    (h : Settings.isBareFileName plan.settings.outputFileName) :
    plan.target.parent.names.length ≤ plan.directory.names.length := by
  rcases target_cases h with heq | heq
  · exact Nat.le_of_eq (by rw [heq, Path.parent_child])
  · rw [heq, Path.parent, List.length_dropLast]
    exact Nat.sub_le _ _

/-! ## Writing -/

variable {machine : Machine}

/-- A file is saved at its path, which leads there, after directories may have been added. -/
structure Saves (t u : Tree) (p : Path) (bytes : List UInt8) : Prop where
  hasSaved : t.HasSaved u p bytes
  walk : u.walk p = .ok p

theorem Saves.look_eq {t u : Tree} {p : Path} {bytes : List UInt8} (h : Saves t u p bytes) :
    u.look p = some (.file bytes) :=
  (Tree.look_eq h.walk).trans h.hasSaved.holds

/-- What was saved stays where it is when a file is saved at another place. -/
theorem Saves.look_eq_of_ne {t u v : Tree} {p q : Path} {bytes other : List UInt8}
    (h : Saves t u p bytes) (h' : Saves u v q other) (hne : p ≠ q) :
    v.look p = some (.file bytes) := by
  have hwalk := Tree.walk_of_keepsDirectories h'.hasSaved.keepsDirectories h.walk
  have hkept := h'.hasSaved.kept _ _ h.hasSaved.holds
  exact (Tree.look_eq hwalk).trans (hkept.resolve_left hne)

/-- What stays when directories are added after a file was saved. -/
theorem Saves.trans_onlyDirectoriesAdded {t u v : Tree} {p : Path} {bytes : List UInt8}
    (h : Saves t u p bytes) (h' : u.OnlyDirectoriesAdded v) : Saves t v p bytes where
  hasSaved := h.hasSaved.trans_onlyDirectoriesAdded h'
  walk := Tree.walk_of_keepsDirectories h'.keepsDirectories h.walk

theorem Saves.of_onlyDirectoriesAdded {t u v : Tree} {p : Path} {bytes : List UInt8}
    (h : t.OnlyDirectoriesAdded u) (h' : Saves u v p bytes) : Saves t v p bytes where
  hasSaved := h.trans_hasSaved h'.hasSaved
  walk := h'.walk

/-- A path at which files can only be saved at the path itself. -/
def IsPlace (p : Path) : Prop :=
  ∀ {t u : Tree} {bytes : List UInt8} {place : Path}, IsSaved t u p bytes place → place = p

theorem IsPlace.saves {t u : Tree} {p place : Path} {bytes : List UInt8} (hp : IsPlace p)
    (h : IsSaved t u p bytes place) : Saves t u p bytes := by
  obtain rfl := hp h
  exact ⟨h.hasSaved, Tree.walk_of_keepsDirectories h.hasSaved.keepsDirectories h.walk⟩

theorem isPlace_target {plan : ExportPlan} (hdirectory : plan.directory.IsResolved)
    (hname : Settings.isBareFileName plan.settings.outputFileName) : IsPlace plan.target := by
  intro t u bytes place h
  rcases target_cases hname with heq | heq
  · rw [heq] at h ⊢
    exact h.place_eq_child hdirectory
  · rw [heq] at h ⊢
    exact Tree.eq_of_walk hdirectory h.walk

theorem isPlace_manifestPath {plan : ExportPlan} (hdirectory : plan.directory.IsResolved) :
    IsPlace plan.manifestPath :=
  fun h => h.place_eq_child hdirectory

/-- What writing a text may come to. Calls nest as deep as `depth` at most. A write that is refused
leaves directories behind, and in place also what the machine leaves of the text. -/
inductive Attempt (machine : Machine) (plan : ExportPlan) (depth : Nat) (r : FileRecord) (p : Path)
    (text : String) (t u : Tree) : Except Breakdown (Except Fault FileRecord × Log) → Prop where
  | brokeDown (deep : machine.EndsBefore depth) (tree : t.OnlyDirectoriesAdded u) :
    Attempt machine plan depth r p text t u (.error .tooDeep)
  | refused {fault : Fault} {log : Log} (tree : t.OnlyDirectoriesAdded u) :
    Attempt machine plan depth r p text t u (.ok (.error fault, log))
  | torn {fault : Fault} {log : Log} (inPlace : plan.atomic = false) {left : List UInt8}
      (leaves : machine.torn (Utf8.encode text) = some left) (tree : Saves t u p left) :
    Attempt machine plan depth r p text t u (.ok (.error fault, log))
  | saved {log : Log} (tree : Saves t u p (Utf8.encode text)) :
    Attempt machine plan depth r p text t u (.ok (.ok r, log))

/-- Directories may have been added before, and something else may be said. -/
theorem Attempt.after {plan : ExportPlan} {depth deeper : Nat} {r : FileRecord} {p : Path}
    {text : String} {t u v : Tree} {outcome : Except Breakdown (Except Fault FileRecord × Log)}
    (h : Attempt machine plan depth r p text u v outcome) (hadded : t.OnlyDirectoriesAdded u)
    (hle : depth ≤ deeper) (more : Log) :
    Attempt machine plan deeper r p text t v
      (outcome.map fun written => (written.1, more ++ written.2)) := by
  cases h with
  | brokeDown deep tree => exact .brokeDown (deep.mono hle) (hadded.trans tree)
  | refused tree => exact .refused (hadded.trans tree)
  | torn inPlace leaves tree => exact .torn inPlace leaves (.of_onlyDirectoriesAdded hadded tree)
  | saved tree => exact .saved (.of_onlyDirectoriesAdded hadded tree)

theorem attempt_writeText {plan : ExportPlan} {name : String} {p : Path} {text : String}
    {d d₁ : Disk} {outcome : Except Breakdown (Except Fault FileRecord × Log)} (hp : IsPlace p)
    (h : writeText (Disk.calls machine) plan name p text d = (outcome, d₁)) :
    Attempt machine plan p.parent.names.length (record name p text) p text d.tree d₁.tree
      outcome := by
  have hdirectories := @AddsDirectories.ensureDirectory machine p.parent d
  unfold writeText at h
  obtain ⟨b, rfl, hensure⟩ | ⟨ensured, d₂, hensure, h⟩ := bind_cases h
  · rw [hensure] at hdirectories
    obtain ⟨rfl, hdeep⟩ := hdirectories.2 b rfl
    exact .brokeDown hdeep hdirectories.1
  rw [hensure] at hdirectories
  have hadded : d.tree.OnlyDirectoriesAdded d₂.tree := hdirectories.1
  cases ensured with
  | error fault =>
    cases h
    exact .refused hadded
  | ok =>
    obtain ⟨b, rfl, hsave⟩ | ⟨saved, d₃, hsave, h⟩ := bind_cases h
    · rcases saveFile_cases hsave with ⟨⟨fault, hfault⟩, -⟩ | ⟨hok, -⟩
      · cases hfault
      · cases hok
    · rcases saveFile_cases hsave with
        ⟨⟨fault, hfault⟩, hsame | ⟨inPlace, left, hleft, place, hsaved⟩⟩ | ⟨hok, place, hsaved⟩
      · cases hfault
        cases h
        exact .refused (hadded.trans (.of_get?_eq hsame))
      · cases hfault
        cases h
        exact .torn inPlace hleft (.of_onlyDirectoriesAdded hadded (hp.saves hsaved))
      · cases hok
        cases h
        exact .saved (.of_onlyDirectoriesAdded hadded (hp.saves hsaved))

/-- The record of a text as the document. -/
def documentRecord (plan : ExportPlan) (text : String) : FileRecord :=
  record plan.settings.outputFileName plan.target text

theorem attempt_writeDocument {plan : ExportPlan} (hdirectory : plan.directory.IsResolved)
    (hname : Settings.isBareFileName plan.settings.outputFileName) {text : String} {d d₁ : Disk}
    {outcome : Except Breakdown (Except Fault FileRecord × Log)}
    (h : writeDocument (Disk.calls machine) plan text d = (outcome, d₁)) :
    Attempt machine plan plan.directory.names.length (plan.documentRecord text) plan.target text
      d.tree d₁.tree outcome := by
  have hdirectories := @AddsDirectories.ensureDirectory machine plan.directory d
  unfold writeDocument at h
  obtain ⟨b, rfl, hensure⟩ | ⟨ensured, d₂, hensure, h⟩ := bind_cases h
  · rw [hensure] at hdirectories
    obtain ⟨rfl, hdeep⟩ := hdirectories.2 b rfl
    exact .brokeDown hdeep hdirectories.1
  rw [hensure] at hdirectories
  have hadded : d.tree.OnlyDirectoriesAdded d₂.tree := hdirectories.1
  cases ensured with
  | error fault =>
    cases h
    exact .refused hadded
  | ok =>
    have hplace : IsPlace plan.target := isPlace_target hdirectory hname
    have hle := length_parent_target_le hname
    obtain ⟨b, rfl, hwrite⟩ | ⟨written, d₃, hwrite, h⟩ := bind_cases h
    · exact (attempt_writeText hplace hwrite).after hadded hle []
    · cases h
      exact (attempt_writeText hplace hwrite).after hadded hle (directoryLog plan.directory)

/-- The manifest is an attempt to write its text, of which the ledger takes note. -/
theorem attempt_writeManifest {plan : ExportPlan} (hdirectory : plan.directory.IsResolved)
    {ledger : ExportLedger} {d d₁ : Disk} {outcome : Except Breakdown (ExportLedger × Log)}
    (h : writeManifest (Disk.calls machine) plan ledger d = (outcome, d₁)) :
    ∃ written, Attempt machine plan plan.directory.names.length
        (record manifestName plan.manifestPath (plan.manifestText ledger.records))
        plan.manifestPath (plan.manifestText ledger.records) d.tree d₁.tree written ∧
      outcome = written.map (noteManifest ledger) := by
  have hplace : IsPlace plan.manifestPath := isPlace_manifestPath hdirectory
  have hdepth : plan.manifestPath.parent.names.length = plan.directory.names.length := by
    rw [manifestPath, Path.parent_child]
  unfold writeManifest at h
  rw [← hdepth]
  obtain ⟨b, rfl, hwrite⟩ | ⟨written, d₂, hwrite, h⟩ := bind_cases h
  · exact ⟨_, attempt_writeText hplace hwrite, rfl⟩
  · cases h
    exact ⟨_, attempt_writeText hplace hwrite, rfl⟩

/-! ## Results -/

/-- Whatever the calls do, writing the manifest adds no error. -/
theorem errors_writeManifest (fs : Calls OnDisk) (plan : ExportPlan) {ledger ledger₁ : ExportLedger}
    {log : Log} {d d₁ : Disk} (h : writeManifest fs plan ledger d = (.ok (ledger₁, log), d₁)) :
    ledger₁.errors = ledger.errors := by
  unfold writeManifest at h
  obtain ⟨b, hb, -⟩ | ⟨⟨written, more⟩, d₂, -, h⟩ := bind_cases h
  · cases hb
  · cases written with
    | error fault =>
      cases h
      rfl
    | ok r =>
      cases h
      rfl

/-- Whatever the calls do, an export with a fresh ledger that comes to a result makes no error and
reports the path of the document, or it makes an error and reports no path. -/
theorem result_run (fs : Calls OnDisk) (plan : ExportPlan) (text : String) {d d₁ : Disk}
    {result : ExportResult} {ledger : ExportLedger} {log : Log}
    (h : plan.run fs .empty text d = (.ok (result, ledger, log), d₁)) :
    (result.errors = [] ∧ result.success = true ∧ result.outputPath = some plan.target) ∨
      (result.errors ≠ [] ∧ result.success = false ∧ result.outputPath = none) := by
  unfold run at h
  obtain ⟨b, hb, -⟩ | ⟨⟨written, more⟩, d₂, -, h⟩ := bind_cases h
  · cases hb
  cases written with
  | error fault =>
    cases h
    exact .inr ⟨List.cons_ne_nil _ _, rfl, rfl⟩
  | ok r =>
    left
    cases hwanted : plan.withManifest with
    | false =>
      simp only [hwanted, Bool.false_eq_true, if_false] at h
      cases h
      exact ⟨rfl, rfl, rfl⟩
    | true =>
      simp only [hwanted, if_true] at h
      obtain ⟨b, hb, -⟩ | ⟨⟨ledger₁, manifestLog⟩, d₃, hmanifest, h⟩ := bind_cases h
      · cases hb
      have herrors : ledger₁.errors = [] := errors_writeManifest fs plan hmanifest
      cases h
      refine ⟨herrors, ?_, ?_⟩
      · show ledger₁.errors.isEmpty = true
        rw [herrors]
        rfl
      · show (if ledger₁.errors.isEmpty && true then some plan.target else none) = _
        rw [herrors]
        rfl

/-! ## Exports -/

/-- What an export with a fresh ledger may come to: failure, the document alone, or the document and
then the manifest, or what a refused write has left of it. It may break down on the way to the
document or on the way to the manifest. -/
inductive Outcome (machine : Machine) (plan : ExportPlan) (text : String) (t u : Tree) :
    Except Breakdown ExportResult → Prop where
  | brokeDown (deep : machine.EndsBefore plan.directory.names.length)
      (tree : t.OnlyDirectoriesAdded u) : Outcome machine plan text t u (.error .tooDeep)
  | brokeDownLater (deep : machine.EndsBefore plan.directory.names.length)
      (tree : Saves t u plan.target (Utf8.encode text)) :
    Outcome machine plan text t u (.error .tooDeep)
  | failed {result : ExportResult} (success : result.success = false)
      (tree : t.OnlyDirectoriesAdded u) : Outcome machine plan text t u (.ok result)
  | torn {result : ExportResult} (success : result.success = false)
      (inPlace : plan.atomic = false) {left : List UInt8} (tree : Saves t u plan.target left) :
    Outcome machine plan text t u (.ok result)
  | document {result : ExportResult} (success : result.success = true)
      (outputPath : result.outputPath = some plan.target)
      (files : result.manifest.files = [plan.documentRecord text])
      (warned : plan.withManifest = true → result.warnings ≠ [])
      (tree : Saves t u plan.target (Utf8.encode text)) :
    Outcome machine plan text t u (.ok result)
  | tornManifest {result : ExportResult} (success : result.success = true)
      (outputPath : result.outputPath = some plan.target)
      (files : result.manifest.files = [plan.documentRecord text])
      (wanted : plan.withManifest = true) (warned : result.warnings ≠ [])
      (inPlace : plan.atomic = false) {mid : Tree}
      (document : Saves t mid plan.target (Utf8.encode text)) {left : List UInt8}
      (leaves : machine.torn (Utf8.encode (plan.manifestText [plan.documentRecord text])) =
        some left) (tree : Saves mid u plan.manifestPath left) :
    Outcome machine plan text t u (.ok result)
  | both {result : ExportResult} (success : result.success = true)
      (outputPath : result.outputPath = some plan.target)
      (wanted : plan.withManifest = true) (warnings : result.warnings = []) {r : FileRecord}
      (files : result.manifest.files = [plan.documentRecord text, r]) {mid : Tree}
      (document : Saves t mid plan.target (Utf8.encode text))
      (manifest : Saves mid u plan.manifestPath
        (Utf8.encode (plan.manifestText [plan.documentRecord text]))) :
    Outcome machine plan text t u (.ok result)

/-- **The outcome of an export.** Whichever changes the disk refuses, and whatever the machine makes
of that, an export with a fresh ledger has one of these outcomes. -/
theorem outcome_run {plan : ExportPlan} (hdirectory : plan.directory.IsResolved)
    (hname : Settings.isBareFileName plan.settings.outputFileName) {text : String} {d d₁ : Disk}
    {outcome : Except Breakdown (ExportResult × ExportLedger × Log)}
    (h : plan.run (Disk.calls machine) .empty text d = (outcome, d₁)) :
    Outcome machine plan text d.tree d₁.tree (outcome.map Prod.fst) := by
  unfold run at h
  obtain ⟨b, rfl, hwrite⟩ | ⟨⟨written, log⟩, d₂, hwrite, h⟩ := bind_cases h
  · cases attempt_writeDocument hdirectory hname hwrite with
    | brokeDown deep tree => exact .brokeDown deep tree
  cases attempt_writeDocument hdirectory hname hwrite with
  | refused tree =>
    cases h
    exact .failed rfl tree
  | torn inPlace _ tree =>
    cases h
    exact .torn rfl inPlace tree
  | saved saves =>
    cases hwanted : plan.withManifest with
    | false =>
      simp only [hwanted, Bool.false_eq_true, if_false] at h
      cases h
      exact .document rfl rfl rfl (fun h => nomatch hwanted.symm.trans h) saves
    | true =>
      simp only [hwanted, if_true] at h
      obtain ⟨b, rfl, hmanifest⟩ | ⟨ledger, d₃, hmanifest, h⟩ := bind_cases h
      · obtain ⟨written, hattempt, hnoted⟩ := attempt_writeManifest hdirectory hmanifest
        cases hattempt with
        | brokeDown deep tree =>
          cases hnoted
          exact .brokeDownLater deep (saves.trans_onlyDirectoriesAdded tree)
        | _ => cases hnoted
      · obtain ⟨written, hattempt, hnoted⟩ := attempt_writeManifest hdirectory hmanifest
        cases h
        cases hattempt with
        | brokeDown deep tree => cases hnoted
        | refused tree =>
          cases hnoted
          exact .document rfl rfl rfl (fun _ => List.cons_ne_nil _ _)
            (saves.trans_onlyDirectoriesAdded tree)
        | torn inPlace leaves tree =>
          cases hnoted
          exact .tornManifest rfl rfl rfl hwanted (List.cons_ne_nil _ _) inPlace saves leaves tree
        | saved tree =>
          cases hnoted
          exact .both rfl rfl hwanted rfl rfl saves tree

end ExportPlan

end ModelSchemas
