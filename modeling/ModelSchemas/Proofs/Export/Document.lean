import ModelSchemas.Proofs.Export.Outcome

/-!
# The document on disk

A successful export leaves the document at the path that it reports, unless the manifest goes under
the same name: it is written after the document and takes its place, and so does what is left of it
if it is written in place and refused on the way.
-/

namespace ModelSchemas

open Files Document

/-! ## Texts and bytes -/

namespace Utf8

/-- Bytes are listed from a position on, behind those that are listed already. -/
theorem toList_loop (bytes : ByteArray) (i : Nat) (done : List UInt8) :
    ByteArray.toList.loop bytes i done = done.reverse ++ bytes.data.toList.drop i := by
  rw [ByteArray.toList.loop.eq_def]
  split_ifs with hi
  · have hlength : i < bytes.data.toList.length := by simpa using hi
    have hnext : bytes.get! i = bytes.data.toList[i] := by
      simp [ByteArray.get!, getElem!_pos bytes.data i (by simpa using hi)]
    rw [toList_loop bytes (i + 1), List.reverse_cons, List.append_assoc, List.singleton_append,
      hnext, ← List.drop_eq_getElem_cons hlength]
  · have hlength : bytes.data.toList.length ≤ i := by simpa using hi
    rw [List.drop_eq_nil_of_le hlength, List.append_nil]
termination_by bytes.size - i

/-- Different texts have different bytes. -/
theorem encode_injective {s t : String} (h : encode s = encode t) : s = t := by
  unfold encode ByteArray.toList at h
  rw [toList_loop, toList_loop] at h
  have hdata : s.toUTF8.data = t.toUTF8.data := Array.toList_inj.mp (by simpa using h)
  exact String.toByteArray_inj.mp (ByteArray.ext hdata)

end Utf8

namespace ExportPlan

/-- A manifest starts with a brace. -/
theorem head?_manifestText (plan : ExportPlan) (records : List FileRecord) :
    (plan.manifestText records).toList.head? = some '\x7b' := by
  rw [manifestText, ExportManifest.toJson, Json.render, String.toList_ofList,
    ExportManifest.toValue, Json.write]
  rfl

/-! ## The path of the document -/

/-- The manifest stands beside the document if their names differ. -/
theorem target_ne_manifestPath {plan : ExportPlan}
    (hbare : Settings.isBareFileName plan.settings.outputFileName)
    (hname : plan.settings.outputFileName ≠ manifestName) : plan.target ≠ plan.manifestPath := by
  intro heq
  have hnames := congrArg Path.names heq
  rcases target_cases hbare with htarget | htarget
  · rw [htarget, manifestPath, Path.names_child, Path.names_child] at hnames
    exact hname (List.singleton_inj.mp (List.append_cancel_left hnames))
  · rw [htarget, manifestPath, Path.names_child] at hnames
    simpa using congrArg List.length hnames

/-- Under the name of the document, the manifest has its path. -/
theorem target_eq_manifestPath {plan : ExportPlan}
    (hname : plan.settings.outputFileName = manifestName) : plan.target = plan.manifestPath := by
  rw [target, hname]
  rfl

/-- The manifest was wanted under the name of the document, and it was written, or at least begun in
place. -/
def ManifestReplaces (plan : ExportPlan) (result : ExportResult) : Prop :=
  plan.withManifest = true ∧ plan.settings.outputFileName = manifestName ∧
    (result.warnings = [] ∨ plan.atomic = false)

instance (plan : ExportPlan) (result : ExportResult) : Decidable (plan.ManifestReplaces result) :=
  inferInstanceAs (Decidable (_ ∧ _ ∧ _))

/-- A file holds the document after an export. Where the manifest replaces it, the file holds the
manifest instead, or, if there is a warning, what a refused write has made of the document. -/
structure Holds (machine : Machine) (plan : ExportPlan) (result : ExportResult)
    (document manifest found : List UInt8) : Prop where
  kept : ¬plan.ManifestReplaces result → found = document
  replaced : plan.ManifestReplaces result → result.warnings = [] → found = manifest
  torn : plan.ManifestReplaces result → result.warnings ≠ [] →
    found = document ∨ machine.torn manifest = some found

section Outcomes

variable {machine : Machine} {plan : ExportPlan} {text : String} {t u : Tree}
  {result : ExportResult}

/-- What stands at the path of the document after a success. -/
theorem Outcome.look_target (h : Outcome machine plan text t u (.ok result))
    (hbare : Settings.isBareFileName plan.settings.outputFileName)
    (hsuccess : result.success = true) :
    ∃ found, u.look plan.target = some (.file found) ∧
      plan.Holds machine result (Utf8.encode text)
        (Utf8.encode (plan.manifestText [plan.documentRecord text])) found := by
  cases h with
  | failed success => simp [success] at hsuccess
  | torn success => simp [success] at hsuccess
  | document _ _ _ warned tree =>
    exact ⟨_, tree.look_eq, fun _ => rfl, fun hreplaces hnone => absurd hnone (warned hreplaces.1),
      fun _ _ => .inl rfl⟩
  | @tornManifest _ _ _ _ wanted warned inPlace mid document left leaves tree =>
    by_cases hname : plan.settings.outputFileName = manifestName
    · refine ⟨left, target_eq_manifestPath hname ▸ tree.look_eq, fun hnot => ?_,
        fun _ hnone => absurd hnone warned, fun _ _ => .inr leaves⟩
      exact absurd ⟨wanted, hname, .inr inPlace⟩ hnot
    · refine ⟨_, document.look_eq_of_ne tree (target_ne_manifestPath hbare hname), fun _ => rfl,
        fun hreplaces => absurd hreplaces.2.1 hname, fun _ _ => .inl rfl⟩
  | both _ _ wanted warnings _ document manifest =>
    by_cases hname : plan.settings.outputFileName = manifestName
    · refine ⟨_, target_eq_manifestPath hname ▸ manifest.look_eq, fun hnot => ?_,
        fun _ _ => rfl, fun _ hwarned => absurd warnings hwarned⟩
      exact absurd ⟨wanted, hname, .inl warnings⟩ hnot
    · exact ⟨_, document.look_eq_of_ne manifest (target_ne_manifestPath hbare hname), fun _ => rfl,
        fun hreplaces => absurd hreplaces.2.1 hname, fun _ _ => .inl rfl⟩

/-- A success reports the path of the document and records the document first. -/
theorem Outcome.report (h : Outcome machine plan text t u (.ok result))
    (hsuccess : result.success = true) :
    result.outputPath = some plan.target ∧
      ∃ rest, result.manifest.files = plan.documentRecord text :: rest := by
  cases h with
  | failed success => simp [success] at hsuccess
  | torn success => simp [success] at hsuccess
  | document _ outputPath files => exact ⟨outputPath, [], files⟩
  | tornManifest _ outputPath files => exact ⟨outputPath, [], files⟩
  | both _ outputPath _ _ files => exact ⟨outputPath, _, files⟩

end Outcomes

/-! ## Success -/

/-- **What a successful export leaves.** Whichever changes the disk has refused, and whatever the
machine has left of them, a success reports the path of the document and records the document first,
with the size, the line count and the digest of its text. The file at that path holds the text,
unless the manifest was written or begun under the name of the document: then the file holds the
manifest of that record, or, with a warning, what a refused write has left there. -/
theorem success_leaves_document {description : Value} {plan : ExportPlan}
    (haccepted : Settings.decode description = .accepted plan.settings)
    (hdirectory : plan.directory.IsResolved) {machine : Machine} {text : String} {d after : Disk}
    {result : ExportResult} {ledger : ExportLedger} {log : Log}
    (hrun : plan.run (Disk.calls machine) .empty text d = (.ok (result, ledger, log), after))
    (hsuccess : result.success = true) :
    let bytes := Utf8.encode text
    let r : FileRecord := ⟨plan.settings.outputFileName, plan.target.render, bytes.length,
      Schema.countLines text, Sha256.hexDigest bytes⟩
    result.outputPath = some plan.target ∧
      (∃ rest, result.manifest.files = r :: rest) ∧
      ∃ found, after.tree.look plan.target = some (.file found) ∧
        plan.Holds machine result bytes (Utf8.encode (plan.manifestText [r])) found := by
  intro bytes r
  have hbare := Settings.isBareFileName_of_decode haccepted
  have houtcome : Outcome machine plan text d.tree after.tree (.ok result) :=
    outcome_run hdirectory hbare hrun
  obtain ⟨hpath, hfiles⟩ := houtcome.report hsuccess
  exact ⟨hpath, hfiles, houtcome.look_target hbare hsuccess⟩

/-- An export of one line to an empty disk, with a manifest. -/
def sample : ExportPlan where
  settings := .default
  directory := ⟨["out"]⟩
  atomic := true
  withManifest := true
  timestamp := "1970-01-01T00:00:00+0000"

/-- The sample export in place succeeds although there is no room for the manifest, and its document
is on disk. -/
theorem sample_leaves_document :
    let plan : ExportPlan := { sample with atomic := false }
    let machine : Machine := { Machine.sound with torn := fun bytes => some (bytes.take 1) }
    let d : Disk := ⟨.empty, [none, none, none, none, some ⟨.noSpace, []⟩], "tag"⟩
    Settings.decode (.mapping []) = .accepted plan.settings ∧
      ∃ result ledger log after,
        plan.run (Disk.calls machine) .empty "x\n" d = (.ok (result, ledger, log), after) ∧
          result.success = true ∧ result.warnings ≠ [] ∧
          after.tree.look ⟨["out", "index.ts"]⟩ = some (.file [120, 10]) := by
  intro plan machine d
  have haccepted : Settings.decode (.mapping []) = .accepted plan.settings := rfl
  have hdirectory : plan.directory.IsResolved := by
    simp [plan, sample, Path.IsResolved, Path.upName]
  have hresult : ((plan.run (Disk.calls machine) .empty "x\n" d).1.toOption.any fun run =>
      run.1.success && !run.1.warnings.isEmpty) = true := by decide +kernel
  obtain ⟨⟨result, ledger, log⟩, hrun, htest⟩ :=
    exists_of_any (plan.run (Disk.calls machine) .empty "x\n") d hresult
  obtain ⟨hsuccess, hwarned⟩ := Bool.and_eq_true_iff.mp htest
  obtain ⟨-, -, found, hlook, hholds⟩ :=
    success_leaves_document haccepted hdirectory hrun hsuccess
  have hbytes : Utf8.encode "x\n" = [120, 10] := by decide +kernel
  have htarget : plan.target = ⟨["out", "index.ts"]⟩ := by decide +kernel
  have hnot : ¬plan.ManifestReplaces result := fun h => absurd h.2.1 (by decide)
  rw [htarget, hholds.kept hnot, hbytes] at hlook
  exact ⟨haccepted, result, ledger, log, _, hrun, hsuccess, by simpa using hwarned, hlook⟩

/-- The sample with its document under the name of the manifest. -/
def homonym : ExportPlan :=
  { sample with settings := { Settings.default with outputFileName := manifestName } }

/-- The settings are accepted and the export succeeds without a warning, and yet what it leaves at
the path that it reports is not the document. -/
theorem manifest_replaces_document :
    let d : Disk := .ofTree .empty "tag"
    Settings.decode (.mapping [("output_file_name", .str manifestName)]) =
        .accepted homonym.settings ∧
      ∃ result ledger log after,
        homonym.run (Disk.calls .sound) .empty "x\n" d = (.ok (result, ledger, log), after) ∧
          result.success = true ∧ result.warnings = [] ∧
          result.outputPath = some homonym.target ∧
          after.tree.look homonym.target ≠ some (.file (Utf8.encode "x\n")) := by
  intro d
  have haccepted : Settings.decode (.mapping [("output_file_name", .str manifestName)]) =
      .accepted homonym.settings := by
    rfl
  have hbare := Settings.isBareFileName_of_decode haccepted
  have hdirectory : homonym.directory.IsResolved := by
    simp [homonym, sample, Path.IsResolved, Path.upName]
  have hresult : ((homonym.run (Disk.calls .sound) .empty "x\n" d).1.toOption.any fun run =>
      run.1.success && run.1.warnings.isEmpty) = true := by decide +kernel
  obtain ⟨⟨result, ledger, log⟩, hrun, htest⟩ :=
    exists_of_any (homonym.run (Disk.calls .sound) .empty "x\n") d hresult
  obtain ⟨hsuccess, hempty⟩ := Bool.and_eq_true_iff.mp htest
  have hwarnings : result.warnings = [] := List.isEmpty_iff.mp hempty
  have houtcome : Outcome .sound homonym "x\n" _ _ (.ok result) :=
    outcome_run hdirectory hbare hrun
  refine ⟨haccepted, result, ledger, log, _, hrun, hsuccess, hwarnings,
    (houtcome.report hsuccess).1, ?_⟩
  obtain ⟨found, hlook, hholds⟩ := houtcome.look_target hbare hsuccess
  rw [hlook, hholds.replaced ⟨rfl, rfl, .inl hwarnings⟩ hwarnings]
  intro heq
  have htext := Utf8.encode_injective (Entry.file.inj (Option.some.inj heq))
  have hhead := head?_manifestText homonym [homonym.documentRecord "x\n"]
  rw [htext] at hhead
  exact absurd hhead (by decide)

end ExportPlan

end ModelSchemas
