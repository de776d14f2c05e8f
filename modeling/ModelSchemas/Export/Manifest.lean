import ModelSchemas.Document.Json.Writer

/-!
# Export manifests

The manifest of an export says which files it wrote, with their sizes, line counts and digests. As a
document it leaves out where the files are.
-/

namespace ModelSchemas

open Document

/-- One exported file. -/
structure FileRecord where
  relativePath : String
  absolutePath : String
  sizeBytes : Int
  lineCount : Int
  sha256 : String
deriving DecidableEq, Repr

/-- What one export wrote. -/
structure ExportManifest where
  generatorVersion : String
  exportTimestamp : String
  outputDirectory : String
  schemaModule : String
  clientModule : String
  totalFiles : Int
  totalBytes : Int
  totalLines : Int
  files : List FileRecord
deriving DecidableEq, Repr

namespace FileRecord

/-- A count added up over records. -/
def total (count : FileRecord → Int) (records : List FileRecord) : Int :=
  records.foldr (fun r rest => count r + rest) 0

/-- The record as a document. -/
def toValue (r : FileRecord) : Value :=
  .mapping [("relative_path", .str r.relativePath), ("size_bytes", .int r.sizeBytes),
    ("line_count", .int r.lineCount), ("sha256", .str r.sha256)]

end FileRecord

namespace ExportManifest

/-- The manifest as a document. -/
def toValue (m : ExportManifest) : Value :=
  .mapping [("generator_version", .str m.generatorVersion),
    ("export_timestamp", .str m.exportTimestamp), ("output_directory", .str m.outputDirectory),
    ("schema_module", .str m.schemaModule), ("client_module", .str m.clientModule),
    ("total_files", .int m.totalFiles), ("total_bytes", .int m.totalBytes),
    ("total_lines", .int m.totalLines), ("files", .list (m.files.map FileRecord.toValue))]

/-- The manifest as JSON with the given indentation. -/
def toJson (m : ExportManifest) (indent : Nat) : String :=
  Json.render ⟨.full, some indent⟩ m.toValue

end ExportManifest

end ModelSchemas
