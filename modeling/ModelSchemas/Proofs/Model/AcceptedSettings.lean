import ModelSchemas.Model.Settings
import ModelSchemas.Proofs.Validation.Accepted

/-!
# Accepted settings

Settings are accepted exactly if the check of every setting accepts what it finds and nothing else
is set. What these checks guarantee can so be used for single settings: the name of the output file
is a bare file name.
-/

namespace ModelSchemas

open Document

namespace Settings

theorem decodeFileName_eq_accepted {v : Value} {name : String} :
    decodeFileName v = .accepted name ↔
      Decoder.nonEmptyString v = .accepted name ∧ isBareFileName name := by
  constructor
  · intro h
    obtain ⟨given, hgiven, hbare⟩ := Checked.andThen_eq_accepted.mp h
    split_ifs at hbare with hname
    · cases hbare
      exact ⟨hgiven, hname⟩
    · cases hbare
  · rintro ⟨hgiven, hname⟩
    exact Checked.andThen_eq_accepted.mpr ⟨name, hgiven, if_pos hname⟩

/-- Every setting is what the check of its entry gives, and there are no other entries. -/
structure IsReadFrom (s : Settings) (entries : Entries) : Prop where
  schemaModule : Record.withDefault entries ["schema_module"] default.schemaModule
    Decoder.nonEmptyString = .accepted s.schemaModule
  clientModule : Record.withDefault entries ["client_module"] default.clientModule
    Decoder.nonEmptyString = .accepted s.clientModule
  outputDir : Record.withDefault entries ["output_dir"] default.outputDir
    Decoder.nonEmptyString = .accepted s.outputDir
  outputFileName : Record.withDefault entries ["output_file_name"] default.outputFileName
    decodeFileName = .accepted s.outputFileName
  headerComment : Record.withDefault entries ["header_comment"] default.headerComment
    Decoder.string = .accepted s.headerComment
  indentSize : Record.withDefault entries ["indent_size"] default.indentSize decodeIndentSize =
    .accepted s.indentSize
  alwaysLazyReferences : Record.withDefault entries ["always_lazy_references"]
    default.alwaysLazyReferences Decoder.bool = .accepted s.alwaysLazyReferences
  writeManifest : Record.withDefault entries ["write_manifest"] default.writeManifest
    Decoder.bool = .accepted s.writeManifest
  closed : Record.closed entries properties = .accepted ()

theorem decode_eq_accepted {entries : Entries} {s : Settings} :
    decode (.mapping entries) = .accepted s ↔ s.IsReadFrom entries := by
  constructor
  · intro h
    obtain ⟨_, _, h, hclosed, heq₉⟩ := Checked.and_eq_accepted h
    obtain ⟨_, _, h, hwriteManifest, heq₈⟩ := Checked.seq_eq_accepted h
    obtain ⟨_, _, h, halwaysLazy, heq₇⟩ := Checked.seq_eq_accepted h
    obtain ⟨_, _, h, hindentSize, heq₆⟩ := Checked.seq_eq_accepted h
    obtain ⟨_, _, h, hheaderComment, heq₅⟩ := Checked.seq_eq_accepted h
    obtain ⟨_, _, h, houtputFileName, heq₄⟩ := Checked.seq_eq_accepted h
    obtain ⟨_, _, h, houtputDir, heq₃⟩ := Checked.seq_eq_accepted h
    obtain ⟨_, _, h, hclientModule, heq₂⟩ := Checked.seq_eq_accepted h
    obtain ⟨_, _, h, hschemaModule, heq₁⟩ := Checked.seq_eq_accepted h
    cases h
    subst heq₁ heq₂ heq₃ heq₄ heq₅ heq₆ heq₇ heq₈ heq₉
    exact ⟨hschemaModule, hclientModule, houtputDir, houtputFileName, hheaderComment, hindentSize,
      halwaysLazy, hwriteManifest, hclosed⟩
  · intro h
    simp only [decode, Record.ofMapping, h.schemaModule, h.clientModule, h.outputDir,
      h.outputFileName, h.headerComment, h.indentSize, h.alwaysLazyReferences, h.writeManifest,
      h.closed]
    rfl

/-- The output file of accepted settings has a bare file name. -/
theorem isBareFileName_of_decode {description : Value} {s : Settings}
    (h : Settings.decode description = .accepted s) : isBareFileName s.outputFileName := by
  cases description with
  | mapping entries =>
    have hread := decode_eq_accepted.mp h
    have hcheck : ∀ v name, decodeFileName v = .accepted name → isBareFileName name :=
      fun _ _ hname => (decodeFileName_eq_accepted.mp hname).2
    exact Record.of_withDefault (P := fun name => isBareFileName name) (by decide) hcheck
      hread.outputFileName
  | _ => cases h

end Settings

end ModelSchemas
