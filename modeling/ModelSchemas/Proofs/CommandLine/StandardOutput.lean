import ModelSchemas.CommandLine.Command
import ModelSchemas.Proofs.CommandLine.Reading
import ModelSchemas.Proofs.Host.DryRun

/-!
# The standard output

A command that puts the document on the standard output is a dry run. It says of a model file what
the command that writes the document to a file says of it: both fail alike before the export, or
they come to the same document. It says nothing of the place of the output. Where that cannot be
reached, the command that writes to a file breaks down.
-/

namespace ModelSchemas

open Document Files

namespace CommandLine

/-! ## Exit codes -/

theorem number_ofReport (r : Report) : (ExitCode.ofReport r).number =
    if r.ingestionErrors ≠ [] then 4
    else if r.generationErrors ≠ [] then 2
    else if r.exportErrors ≠ [] then 3
    else 0 := by
  cases hingestion : r.ingestionErrors with
  | cons error rest => simp [ExitCode.ofReport, ExitCode.number, hingestion]
  | nil =>
    cases hgeneration : r.generationErrors with
    | cons error rest => simp [ExitCode.ofReport, ExitCode.number, hingestion, hgeneration]
    | nil =>
      cases hexport : r.exportErrors with
      | cons error rest =>
        simp [ExitCode.ofReport, ExitCode.number, hingestion, hgeneration, hexport]
      | nil =>
        simp [ExitCode.ofReport, ExitCode.number, hingestion, hgeneration, hexport]

/-- The exit code for bad input. -/
theorem number_ofReport_eq_four_iff (r : Report) :
    (ExitCode.ofReport r).number = 4 ↔ r.ingestionErrors ≠ [] := by
  rw [number_ofReport]
  split_ifs with hingestion <;> simp [hingestion]

/-- The exit code for a run without errors. -/
theorem number_ofReport_eq_zero_iff (r : Report) : (ExitCode.ofReport r).number = 0 ↔
    r.ingestionErrors = [] ∧ r.generationErrors = [] ∧ r.exportErrors = [] := by
  rw [number_ofReport]
  split_ifs with hingestion hgeneration hexport
  · simp [hingestion]
  · simp [hgeneration]
  · simp [hexport]
  · simp only [ne_eq, Decidable.not_not] at hingestion hgeneration hexport
    simp [hingestion, hgeneration, hexport]

/-- The exit codes of a run that got as far as the document. -/
theorem number_ofReport_of_assembled {r : Report} (hingestion : r.ingestionErrors = [])
    (hgeneration : r.generationErrors = []) :
    (ExitCode.ofReport r).number = 0 ∨ (ExitCode.ofReport r).number = 3 := by
  rw [number_ofReport, hingestion, hgeneration]
  by_cases hexport : r.exportErrors = []
  · simp [hexport]
  · simp [hexport]

/-! ## Commands on a model file -/

/-- The number with which a command ends, which is one if it breaks down. -/
def exitNumber : Except Breakdown Outcome → Nat
  | .ok outcome => outcome.exitCode.number
  | .error _ => 1

/-- The number that the outcome of its pipeline asks for. -/
def reportNumber : Except Breakdown Report → Nat
  | .ok r => (ExitCode.ofReport r).number
  | .error _ => 1

section Foretold

variable {limits : Pipeline.Limits} {machine : Machine} {q dry : Request} {p : Path}
  {d after left : Disk} {told : Report} {outcome : Except Breakdown Report}

/-- A pipeline ends with zero exactly if it comes to a report of success. -/
theorem reportNumber_eq_zero_iff (h : Pipeline.Outcome limits machine q p d outcome after) :
    reportNumber outcome = 0 ↔ ∃ r, outcome = .ok r ∧ r.success = true := by
  cases outcome with
  | error b => exact iff_of_false Nat.one_ne_zero fun ⟨_, hr, _⟩ => nomatch hr
  | ok r =>
    have hzero : reportNumber (.ok r) = 0 ↔ r.success = true :=
      (number_ofReport_eq_zero_iff r).trans h.success_iff.symm
    refine hzero.trans ⟨fun hr => ⟨r, rfl, hr⟩, ?_⟩
    rintro ⟨r', heq, hr⟩
    cases heq
    exact hr

/-- A dry run rejects its input if and only if the full run does. -/
theorem reportNumber_eq_four_iff (hdry : Pipeline.Outcome limits machine dry p d (.ok told) left)
    (h : Pipeline.Foretells machine p d q told after outcome) :
    reportNumber (.ok told) = 4 ↔ reportNumber outcome = 4 := by
  have htold (success : told.success = true) : reportNumber (.ok told) ≠ 4 := fun hfour =>
    (number_ofReport_eq_four_iff told).mp hfour (hdry.success_iff.mp success).1
  cases h with
  | failed => exact Iff.rfl
  | outOfReach success => exact iff_of_false (htold success) fun hfour => nomatch hfour
  | assembled success _ ingestionErrors =>
    exact iff_of_false (htold success) fun hfour =>
      (number_ofReport_eq_four_iff _).mp hfour ingestionErrors

end Foretold

section Commands

variable {machine : Machine} {o : Options} {base : Path} {timestamp : String} {model : Path}
  {limits : Pipeline.Limits} {d : Disk}

/-- What the options ask of the pipeline once their output directory has been resolved. -/
def Options.request (o : Options) (base : Path) (timestamp : String) : Request :=
  o.pipelineRequest base ((o.outputPath base).map Path.resolve) timestamp

/-- The output directory that the options give, if it cannot be resolved. -/
def Options.unresolvable? (o : Options) (machine : Machine) (base : Path) : Option Path :=
  (o.outputPath base).filter fun p => !machine.resolves p

theorem unresolvable?_congr {o o' : Options} (output : o'.output = o.output) (machine : Machine)
    (base : Path) : o'.unresolvable? machine base = o.unresolvable? machine base := by
  rw [Options.unresolvable?, Options.unresolvable?, Options.outputPath, output, Options.outputPath]

/-- The command breaks down on an output directory that cannot be resolved; otherwise the pipeline
is run on the request. -/
theorem runPipeline_eq (machine : Machine) (o : Options) (base : Path) (timestamp : String)
    (model : Path) (limits : Pipeline.Limits) (d : Disk) :
    o.runPipeline (Disk.calls machine) base timestamp model limits d =
      match o.unresolvable? machine base with
      | some p => (.error (.unresolvable p), d)
      | none =>
        let q := o.request base timestamp
        let told := Pipeline.run (Disk.calls machine) q model limits d
        (told.1.map fun told => (q, told), told.2) := by
  have hrun (hresolve : (o.outputPath base).mapM (Disk.calls machine).resolve d =
      (.ok ((o.outputPath base).map Path.resolve), d)) :
      o.runPipeline (Disk.calls machine) base timestamp model limits d =
        let q := o.request base timestamp
        let told := Pipeline.run (Disk.calls machine) q model limits d
        (told.1.map fun told => (q, told), told.2) := by
    have hrest : o.runPipeline (Disk.calls machine) base timestamp model limits d =
        (do
          let told ← Pipeline.run (Disk.calls machine) (o.request base timestamp) model limits
          return (o.request base timestamp, told) : OnDisk _) d := run_bind hresolve
    rw [hrest]
    dsimp only
    rcases htold : Pipeline.run (Disk.calls machine) (o.request base timestamp) model limits d with
      ⟨told | told, after⟩
    · exact run_bind_error htold
    · exact run_bind htold
  unfold Options.unresolvable?
  cases houtput : o.outputPath base with
  | none =>
    refine hrun ?_
    rw [houtput]
    rfl
  | some p =>
    have hresolve := resolve_eq machine p d
    cases hresolves : machine.resolves p with
    | false =>
      rw [hresolves, if_neg Bool.false_ne_true] at hresolve
      simp only [Option.filter_some, hresolves, Bool.not_false, if_true]
      refine run_bind_error ?_
      rw [houtput]
      exact run_bind_error hresolve
    | true =>
      rw [hresolves, if_pos rfl] at hresolve
      simp only [Option.filter_some, hresolves, Bool.not_true, Bool.false_eq_true, if_false]
      refine hrun ?_
      rw [houtput]
      exact run_bind hresolve

section Found

variable {arguments : List String} (read : Invocation.ofArguments arguments = .run o)
  (generating : o.manifest = false) {text : String} (named : o.model = some text)
  (resolved : machine.resolves (base.follow text) = true) {bytes : List UInt8}
  (found : d.tree.look (base.follow text).resolve = some (.file bytes))

include read generating named resolved found

/-- A command that finds its model file leaves what its pipeline comes to. -/
theorem run_eq (limits : Pipeline.Limits) (timestamp : String) :
    let model := (base.follow text).resolve
    let piped := o.runPipeline (Disk.calls machine) base timestamp model limits d
    run (Disk.calls machine) base timestamp arguments limits d =
      (piped.1.map (o.outcomeOf model), piped.2) := by
  intro model piped
  have hresolve : (Disk.calls machine).resolve (base.follow text) d = (.ok model, d) := by
    rw [resolve_eq, resolved, if_pos rfl]
  have hlook : (Disk.calls machine).look model d = (.ok (some (.file bytes)), d) :=
    congrArg (fun entry => (Except.ok entry, d)) found
  have hcommand : run (Disk.calls machine) base timestamp arguments limits d =
      generate (Disk.calls machine) o base timestamp model limits d := by
    unfold run
    rw [read]
    dsimp only
    unfold runOptions
    rw [generating, named]
    simp only [Bool.false_eq_true, if_false]
    rw [run_bind hresolve, run_bind hlook]
  rw [hcommand]
  rcases hpiped : piped with ⟨b | told, after⟩
  · exact run_bind_error hpiped
  · exact run_bind hpiped

/-- A command with an output directory that cannot be resolved breaks down before it does
anything. -/
theorem run_unresolvable {p : Path} (unresolvable : o.unresolvable? machine base = some p)
    (limits : Pipeline.Limits) (timestamp : String) :
    run (Disk.calls machine) base timestamp arguments limits d = (.error (.unresolvable p), d) := by
  rw [run_eq read generating named resolved found, runPipeline_eq, unresolvable]
  rfl

end Found

/-- The exit code is the one that the outcome of the pipeline asks for. -/
theorem exitNumber_map (o : Options) (model : Path) (q : Request)
    (told : Except Breakdown (Report × Log)) :
    exitNumber ((told.map fun told => (q, told)).map (o.outcomeOf model)) =
      reportNumber (told.map Prod.fst) := by
  cases told with
  | error b => rfl
  | ok told => rfl

/-- What a command with the standard output has printed after a success agrees with what the other
command has come to. -/
theorem agrees_of_foretells {o o' : Options} (toStdout : o'.stdout = true) {q q' : Request}
    {told : Report} {after : Disk} {outcome : Except Breakdown (Report × Log)}
    (h : Pipeline.Foretells machine model d q told after (outcome.map Prod.fst))
    (hdone : told.success = true) (log : Log) :
    let printed := o'.outcomeOf model (q', told, log)
    let filed := (outcome.map fun told => (q, told)).map (o.outcomeOf model)
    (∃ r log, outcome = .ok (r, log) ∧ printed.output = r.outputText ∧
        (exitNumber filed = 0 ∨ exitNumber filed = 3) ∧
        (r.success = true → ∃ s, Pipeline.HasSettings model (d.tree.look model) q.overrides s ∧
          r.outputPath = (Pipeline.planOf q s).target.render ∧
          (s.outputFileName ≠ ExportPlan.manifestName →
            after.tree.look (Pipeline.planOf q s).target =
              some (.file (Utf8.encode printed.output))))) ∨
      ∃ b s, outcome = .error b ∧ Pipeline.HasSettings model (d.tree.look model) q.overrides s ∧
        Pipeline.IsOutOfReach machine q s b := by
  intro printed filed
  have hprint : printed.output = told.outputText := by
    show o'.reportOutput told = told.outputText
    rw [Options.reportOutput, toStdout, hdone]
    rfl
  cases outcome with
  | error b =>
    cases h with
    | outOfReach _ settings unreached => exact .inr ⟨b, _, rfl, settings, unreached⟩
  | ok both =>
    obtain ⟨r, log⟩ := both
    cases h with
    | failed success => exact nomatch hdone.symm.trans success
    | assembled _ outputText ingestionErrors generationErrors placed =>
      rw [hprint]
      exact .inl ⟨r, log, rfl, outputText.symm,
        number_ofReport_of_assembled ingestionErrors generationErrors, placed⟩

/-- A pipeline was run, and its report is a success. -/
def Succeeds (piped : Except Breakdown (Request × Report × Log)) : Prop :=
  ∃ q r log, piped = .ok (q, r, log) ∧ r.success = true

theorem succeeds_map_iff (q : Request) (told : Except Breakdown (Report × Log)) :
    Succeeds (told.map fun told => (q, told)) ↔
      ∃ r, told.map Prod.fst = .ok r ∧ r.success = true := by
  cases told with
  | error b => exact iff_of_false (fun ⟨_, _, _, h, _⟩ => nomatch h) fun ⟨_, h, _⟩ => nomatch h
  | ok told =>
    constructor
    · rintro ⟨q', r, log, heq, h⟩
      cases heq
      exact ⟨r, rfl, h⟩
    · rintro ⟨r, heq, h⟩
      cases heq
      exact ⟨q, told.1, told.2, rfl, h⟩

/-- A command ends with zero exactly if its pipeline is a success. -/
theorem exitNumber_eq_zero_iff (machine : Machine) (o : Options) (base : Path) (timestamp : String)
    (model : Path) (limits : Pipeline.Limits) (d : Disk) :
    let piped := o.runPipeline (Disk.calls machine) base timestamp model limits d
    exitNumber (piped.1.map (o.outcomeOf model)) = 0 ↔ Succeeds piped.1 := by
  intro piped
  have hpiped : piped = _ := runPipeline_eq machine o base timestamp model limits d
  rw [hpiped]
  cases o.unresolvable? machine base with
  | some p => exact iff_of_false Nat.one_ne_zero fun ⟨_, _, _, h, _⟩ => nomatch h
  | none =>
    rw [exitNumber_map, succeeds_map_iff]
    exact reportNumber_eq_zero_iff (Pipeline.outcome_run rfl)

/-- Of two commands that share their output directory and their overrides, the one that writes no
files foretells the other, unless their output directory cannot be resolved. -/
theorem runPipeline_foretells {o' : Options} (output : o'.output = o.output)
    (overrides : o'.overrides = o.overrides) (full : o.isDry = false) (dry : o'.isDry = true)
    (resolvable : o.unresolvable? machine base = none) (timestamp timestamp' : String)
    (model : Path) (limits : Pipeline.Limits) (d : Disk) :
    ∃ (told : Report) (log : Log) (outcome : Except Breakdown (Report × Log)) (after : Disk),
      o.runPipeline (Disk.calls machine) base timestamp model limits d =
        (outcome.map fun told => (o.request base timestamp, told), after) ∧
      o'.runPipeline (Disk.calls machine) base timestamp' model limits d =
        (.ok (o'.request base timestamp', told, log), d) ∧
      Pipeline.Outcome limits machine (o.request base timestamp) model d (outcome.map Prod.fst)
        after ∧
      Pipeline.Outcome limits machine (o'.request base timestamp') model d (.ok told) d ∧
      Pipeline.Foretells machine model d (o.request base timestamp) told after
        (outcome.map Prod.fst) := by
  have resolvable' : o'.unresolvable? machine base = none :=
    (unresolvable?_congr output machine base).trans resolvable
  rcases hrun : Pipeline.run (Disk.calls machine) (o.request base timestamp) model limits d with
    ⟨outcome, after⟩
  rcases hrun' : Pipeline.run (Disk.calls machine) (o'.request base timestamp') model limits d with
    ⟨outcome', left⟩
  have hreport := Pipeline.outcome_run hrun'
  obtain ⟨told, htold, rfl, hforetells⟩ :=
    Pipeline.dry_foretells dry full overrides hreport (Pipeline.outcome_run hrun)
  obtain ⟨log, rfl⟩ := Pipeline.exists_log_of_map_eq_ok htold
  refine ⟨told, log, outcome, after, ?_, ?_, Pipeline.outcome_run hrun, hreport, hforetells⟩
  · rw [runPipeline_eq, resolvable]
    dsimp only
    rw [hrun]
  · rw [runPipeline_eq, resolvable']
    dsimp only
    rw [hrun']
    rfl

end Commands

theorem SameButStdout.others {o o' : Options} (h : SameButStdout o o') :
    o'.model = o.model ∧ o'.manifest = o.manifest ∧ o'.output = o.output ∧
      o'.overrides = o.overrides := by
  obtain ⟨on, rfl⟩ := h
  exact ⟨rfl, rfl, rfl, rfl⟩

/-- **The standard output agrees with the file.** Two command lines name an existing model file and
differ only in the option for the standard output. On any disk, whichever changes it refuses,
whatever the machine makes of that, and whichever assemblies it gives up,
- the one with the option leaves the disk alone,
- both or neither reject their input,
- if the one with the option succeeds, its output is the document of the other and nothing else;
  the other succeeds or fails to export, and if it succeeds, the file that it reports holds that
  document in UTF-8 unless it goes under the name of the manifest; or else the other breaks down,
  and the place of its output is out of reach on the machine,
- and the exit code of either is zero exactly if its run was a success. -/
theorem stdout_agrees_with_file {arguments arguments' : List String}
    (differ : AddsStdout arguments arguments') {o o' : Options}
    (read : Invocation.ofArguments arguments = .run o)
    (read' : Invocation.ofArguments arguments' = .run o')
    (toFile : o.stdout = false) (toStdout : o'.stdout = true) (real : o.dryRun = false)
    (generating : o.manifest = false) {text : String} (named : o.model = some text) {base : Path}
    {machine : Machine} (resolved : machine.resolves (base.follow text) = true)
    {bytes : List UInt8} {d : Disk}
    (found : d.tree.look (base.follow text).resolve = some (.file bytes))
    (limits : Pipeline.Limits) (timestamp timestamp' : String) :
    let fs := Disk.calls machine
    let model := (base.follow text).resolve
    let filed := run fs base timestamp arguments limits d
    let printed := run fs base timestamp' arguments' limits d
    let piped := o.runPipeline fs base timestamp model limits d
    let piped' := o'.runPipeline fs base timestamp' model limits d
    let q := o.request base timestamp
    let settings := Pipeline.HasSettings model (d.tree.look model) q.overrides
    printed.2 = d ∧
    (exitNumber printed.1 = 4 ↔ exitNumber filed.1 = 4) ∧
    (exitNumber printed.1 = 0 → ∃ outcome, printed.1 = .ok outcome ∧
      ((∃ r log, piped.1 = .ok (q, r, log) ∧ outcome.output = r.outputText ∧
          (exitNumber filed.1 = 0 ∨ exitNumber filed.1 = 3) ∧
          (exitNumber filed.1 = 0 → ∃ s, settings s ∧
            r.outputPath = (Pipeline.planOf q s).target.render ∧
            (s.outputFileName ≠ ExportPlan.manifestName →
              filed.2.tree.look (Pipeline.planOf q s).target =
                some (.file (Utf8.encode outcome.output))))) ∨
        ∃ b s, filed.1 = .error b ∧ settings s ∧ Pipeline.IsOutOfReach machine q s b)) ∧
    (exitNumber printed.1 = 0 ↔ Succeeds piped'.1) ∧
    (exitNumber filed.1 = 0 ↔ Succeeds piped.1) := by
  intro fs model filed printed piped piped' q settings
  obtain ⟨hmodel, hmanifest, houtput, hoverrides⟩ := (differ.sameButStdout read read').others
  have hfiled : filed = (piped.1.map (o.outcomeOf model), piped.2) :=
    run_eq read generating named resolved found limits timestamp
  have hprinted : printed = (piped'.1.map (o'.outcomeOf model), piped'.2) :=
    run_eq read' (hmanifest.trans generating) (hmodel.trans named) resolved found limits timestamp'
  have hzero : exitNumber filed.1 = 0 ↔ Succeeds piped.1 := by
    rw [hfiled]
    exact exitNumber_eq_zero_iff machine o base timestamp model limits d
  have hzero' : exitNumber printed.1 = 0 ↔ Succeeds piped'.1 := by
    rw [hprinted]
    exact exitNumber_eq_zero_iff machine o' base timestamp' model limits d
  cases hresolvable : o.unresolvable? machine base with
  | some p =>
    -- both commands come to that before anything else
    have hbroke : filed = (.error (.unresolvable p), d) :=
      run_unresolvable read generating named resolved found hresolvable limits timestamp
    have hbroke' : printed = (.error (.unresolvable p), d) :=
      run_unresolvable read' (hmanifest.trans generating) (hmodel.trans named) resolved found
        ((unresolvable?_congr houtput machine base).trans hresolvable) limits timestamp'
    refine ⟨congrArg Prod.snd hbroke', ?_, fun h => ?_, hzero', hzero⟩
    · rw [hbroke, hbroke']
    · rw [hbroke'] at h
      cases h
  | none =>
    have hfull : o.isDry = false := by
      rw [Options.isDry, real, toFile]
      rfl
    have hdry : o'.isDry = true := by
      rw [Options.isDry, toStdout, Bool.or_true]
    obtain ⟨told, log, outcome, after, hpiped, hpiped', -, hreport, hforetells⟩ :=
      runPipeline_foretells houtput hoverrides hfull hdry hresolvable timestamp timestamp' model
        limits d
    have hpiped : piped = _ := hpiped
    have hpiped' : piped' = _ := hpiped'
    rw [hpiped] at hfiled
    rw [hpiped'] at hprinted
    have hnumber : exitNumber filed.1 = reportNumber (outcome.map Prod.fst) := by
      rw [hfiled]
      exact exitNumber_map o model q outcome
    have hnumber' : exitNumber printed.1 = reportNumber (.ok told) := by
      rw [hprinted]
      rfl
    refine ⟨congrArg Prod.snd hprinted, ?_, fun h => ⟨_, congrArg Prod.fst hprinted, ?_⟩,
      hzero', hzero⟩
    · rw [hnumber, hnumber']
      exact reportNumber_eq_four_iff hreport hforetells
    · have hdone : told.success = true := by
        obtain ⟨r, hr, hsuccess⟩ := (reportNumber_eq_zero_iff hreport).mp (hnumber'.symm.trans h)
        cases hr
        exact hsuccess
      rcases agrees_of_foretells toStdout hforetells hdone log with
        ⟨r, log', rfl, hprint, hcode, hplaced⟩ | ⟨b, s, rfl, hs, hreach⟩
      · refine .inl ⟨r, log', congrArg Prod.fst hpiped, hprint, ?_, fun hended => ?_⟩
        · rw [hfiled]
          exact hcode
        · obtain ⟨_, _, _, heq, hsuccess⟩ := hzero.mp hended
          rw [hpiped] at heq
          cases heq
          rw [hfiled]
          exact hplaced hsuccess
      · exact .inr ⟨b, s, congrArg Prod.fst hfiled, hs, hreach⟩

theorem look_sampleDisk : Pipeline.sampleDisk.tree.look (Path.root.follow "m.json").resolve =
    some (.file Pipeline.sampleFile) := by
  decide +kernel

/-- Both command lines succeed on the sample disk: what the one prints is what the other leaves. -/
theorem sample_printed_is_filed :
    let fs := Disk.calls .sound
    let filed := run fs .root "noon" ["-m", "m.json"] .none Pipeline.sampleDisk
    let printed := run fs .root "noon" ["-m", "m.json", "--stdout"] .none Pipeline.sampleDisk
    exitNumber printed.1 = 0 ∧ exitNumber filed.1 = 0 ∧ printed.2 = Pipeline.sampleDisk ∧
      ∃ outcome, printed.1 = .ok outcome ∧
        filed.2.tree.look ⟨["node_modules", "@prisma", "zod", "index.ts"]⟩ =
          some (.file (Utf8.encode outcome.output)) := by
  intro fs filed printed
  have differ : AddsStdout ["-m", "m.json"] ["-m", "m.json", "--stdout"] :=
    .keep _ (.keep _ (.insert rfl .nil))
  have read : Invocation.ofArguments ["-m", "m.json"] =
      .run { Options.default with model := some "m.json" } := by decide +kernel
  have read' : Invocation.ofArguments ["-m", "m.json", "--stdout"] =
      .run { Options.default with model := some "m.json", stdout := true } := by decide +kernel
  have resolved : Machine.sound.resolves (Path.root.follow "m.json") = true := rfl
  have hzero : exitNumber printed.1 = 0 := by decide +kernel
  have hzero' : exitNumber filed.1 = 0 := by decide +kernel
  obtain ⟨hdisk, -, hprinted, -, -⟩ := stdout_agrees_with_file differ read read' rfl rfl rfl rfl
    rfl resolved look_sampleDisk .none "noon" "noon"
  obtain ⟨outcome, houtcome, ⟨r, log, -, -, -, hfiled⟩ | ⟨b, -, hbroke, -⟩⟩ := hprinted hzero
  · obtain ⟨s, ⟨doc, m, hload, hread⟩, -, hlook⟩ := hfiled hzero'
    have hsettings : ((ModelFile.load (Path.root.follow "m.json").resolve
        (Pipeline.sampleDisk.tree.look (Path.root.follow "m.json").resolve)).toOption.bind
          fun doc => (Ingestion.runWith doc []).toOption.map Prod.snd) = some Settings.default := by
      decide +kernel
    have hread : Ingestion.runWith doc [] = .ok (m, s) := hread
    rw [hload, Except.toOption, Option.bind_some, hread] at hsettings
    obtain rfl : s = .default := Option.some.inj hsettings
    exact ⟨hzero, hzero', hdisk, outcome, houtcome, hlook (by decide)⟩
  · rw [hbroke] at hzero'
    cases hzero'

/-! ## Deep directories -/

/-- An output directory without two dots is where the output goes. -/
theorem Options.resolve_outputPath {o : Options} {base p : Path}
    (houtput : o.outputPath base = some p) (hp : p.IsResolved) (timestamp : String)
    (s : Settings) : ((o.request base timestamp).outputPath s).resolve = p := by
  rw [Request.outputPath, request, pipelineRequest, houtput, Option.map_some, Option.getD_some,
    hp.resolve_eq, hp.resolve_eq]

/-- What the sample disk holds gets as far as the export. -/
theorem exists_prepare_sampleDisk : ∃ s r, Pipeline.prepare .none []
    (Path.root.follow "m.json").resolve
    (Pipeline.sampleDisk.tree.look (Path.root.follow "m.json").resolve) = .ok (s, r) := by
  have hready : (Pipeline.prepare .none [] (Path.root.follow "m.json").resolve
      (Pipeline.sampleDisk.tree.look (Path.root.follow "m.json").resolve)).toOption.isSome =
        true := by decide +kernel
  revert hready
  cases Pipeline.prepare .none [] (Path.root.follow "m.json").resolve
    (Pipeline.sampleDisk.tree.look (Path.root.follow "m.json").resolve) with
  | error r => exact nofun
  | ok ready => exact fun _ => ⟨ready.1, ready.2, rfl⟩

/-- The path of a directory in equally named directories. -/
theorem follow_deep (n : Nat) :
    let deep := String.intercalate "/" (List.replicate (n + 1) "a")
    let path : Path := ⟨"a" :: List.replicate n "a"⟩
    deep.toList.head? = some 'a' ∧ Path.root.follow deep = path ∧ path.IsResolved := by
  intro deep path
  have hnames : ∀ name ∈ List.replicate (n + 1) "a",
      '/' ∉ name.toList ∧ name ≠ "" ∧ name ≠ "." := by
    intro name hname
    rw [List.eq_of_mem_replicate hname]
    decide
  refine ⟨head?_intercalate rfl (List.replicate n "a"), Path.follow_intercalate .root hnames, ?_⟩
  intro hmem
  exact absurd (List.eq_of_mem_replicate (n := n + 1) hmem) (by decide)

/-- Where calls may not nest as deep as directories are missing, the command breaks down on the
sample disk. With the standard output it succeeds. -/
theorem toDirectory_breaksDown {machine : Machine} (resolves : ∀ p, machine.resolves p = true)
    {limit : Nat} (nesting : machine.nesting = some limit) {n : Nat} (hdeep : limit < n) :
    let fs := Disk.calls machine
    let deep := String.intercalate "/" (List.replicate (n + 1) "a")
    let filed := run fs .root "noon" ["-m", "m.json", "-o", deep] .none Pipeline.sampleDisk
    let printed := run fs .root "noon" ["-m", "m.json", "-o", deep, "--stdout"] .none
      Pipeline.sampleDisk
    AddsStdout ["-m", "m.json", "-o", deep] ["-m", "m.json", "-o", deep, "--stdout"] ∧
      exitNumber printed.1 = 0 ∧ exitNumber filed.1 = 1 := by
  intro fs deep filed printed
  let o : Options := { Options.default with model := some "m.json", output := some deep }
  let o' : Options := { o with stdout := true }
  let model : Path := (Path.root.follow "m.json").resolve
  obtain ⟨hhead, hpath, hresolved⟩ : deep.toList.head? = some 'a' ∧
      Path.root.follow deep = _ ∧ Path.IsResolved _ := follow_deep n
  have hdash : deep.toList.head? ≠ some '-' := by
    rw [hhead]
    decide
  obtain ⟨read, read'⟩ := ofArguments_toDirectory hdash
  obtain ⟨s, r, prepared⟩ := exists_prepare_sampleDisk
  have houtput : o.outputPath .root = some ⟨"a" :: List.replicate n "a"⟩ := by
    have hempty : deep ≠ "" := by
      intro heq
      rw [heq] at hhead
      cases hhead
    exact (if_neg hempty).trans (congrArg some hpath)
  have hresolvable : o.unresolvable? machine .root = none := by
    rw [Options.unresolvable?, houtput, Option.filter_some, resolves]
    rfl
  have output : o'.output = o.output := rfl
  obtain ⟨told, log, outcome, after, hpiped, hpiped', hfull, hdry, -⟩ :=
    runPipeline_foretells output rfl rfl rfl hresolvable "noon" "noon" model .none
      Pipeline.sampleDisk
  have hfiled : filed = _ := run_eq read rfl rfl (resolves _) look_sampleDisk .none "noon"
  have hprinted : printed = _ := run_eq read' rfl rfl (resolves _) look_sampleDisk .none "noon"
  refine ⟨.keep _ (.keep _ (.keep _ (.keep _ (.insert rfl .nil)))), ?_, ?_⟩
  · obtain ⟨htold, -⟩ := hdry.of_dry prepared rfl
    have hsuccess : told.success = true := by
      cases htold
      exact Pipeline.success_finish_of_prepare prepared
    rw [hprinted, hpiped']
    exact (reportNumber_eq_zero_iff hdry).mpr ⟨told, rfl, hsuccess⟩
  · have hplace := Options.resolve_outputPath houtput hresolved "noon" s
    have hlong : limit < (List.replicate n "a").length := by rwa [List.length_replicate]
    obtain ⟨b, hbroke⟩ := hfull.exists_breakdown prepared rfl rfl nesting hplace (by decide)
      (by decide) (by decide +kernel) hlong
    rw [hfiled, hpiped]
    exact (exitNumber_map o model _ outcome).trans (congrArg reportNumber hbroke)

/-- **Deep directories.** Where calls may nest a thousand deep, the command breaks down on an output
directory with some more names that are missing. With the standard output it succeeds. -/
theorem deep_directory_breaks_down :
    let fs := Disk.calls { Machine.sound with nesting := some 1000 }
    let deep := String.intercalate "/" (List.replicate 1500 "a")
    let filed := run fs .root "noon" ["-m", "m.json", "-o", deep] .none Pipeline.sampleDisk
    let printed := run fs .root "noon" ["-m", "m.json", "-o", deep, "--stdout"] .none
      Pipeline.sampleDisk
    AddsStdout ["-m", "m.json", "-o", deep] ["-m", "m.json", "-o", deep, "--stdout"] ∧
      exitNumber printed.1 = 0 ∧ exitNumber filed.1 = 1 := by
  have hdeep : 1000 < 1499 := by decide
  exact toDirectory_breaksDown (fun _ => rfl) rfl hdeep

end CommandLine

end ModelSchemas
