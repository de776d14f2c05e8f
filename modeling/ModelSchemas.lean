import ModelSchemas.CommandLine.Command
import ModelSchemas.CommandLine.Options
import ModelSchemas.Decimal.Digits
import ModelSchemas.Decimal.Fixed
import ModelSchemas.Decimal.Literal
import ModelSchemas.Decimal.Shortest
import ModelSchemas.Diagnostics.Log
import ModelSchemas.Document.Display
import ModelSchemas.Document.Json.Reader
import ModelSchemas.Document.Json.Writer
import ModelSchemas.Document.Value
import ModelSchemas.Document.Yaml.Cursor
import ModelSchemas.Document.Yaml.Node
import ModelSchemas.Document.Yaml.Reader
import ModelSchemas.Document.Yaml.Scalar
import ModelSchemas.Document.Yaml.Token
import ModelSchemas.Document.Yaml.Typed
import ModelSchemas.Export.Exporter
import ModelSchemas.Export.Manifest
import ModelSchemas.Expression.Modifier
import ModelSchemas.Expression.Nesting
import ModelSchemas.Expression.Normalisation
import ModelSchemas.Expression.Override
import ModelSchemas.Expression.Parse
import ModelSchemas.Expression.Split
import ModelSchemas.Expression.Tree
import ModelSchemas.Files.Calls
import ModelSchemas.Files.Fault
import ModelSchemas.Files.Path
import ModelSchemas.Files.Save
import ModelSchemas.Files.Tree
import ModelSchemas.Hash.Sha256
import ModelSchemas.Host.Ingestion
import ModelSchemas.Host.ModelFile
import ModelSchemas.Host.Pipeline
import ModelSchemas.Host.Report
import ModelSchemas.Main
import ModelSchemas.Model.Assignment
import ModelSchemas.Model.DataModel
import ModelSchemas.Model.Entity
import ModelSchemas.Model.Enumeration
import ModelSchemas.Model.Field
import ModelSchemas.Model.Names
import ModelSchemas.Model.Settings
import ModelSchemas.Proofs.CommandLine.Reading
import ModelSchemas.Proofs.CommandLine.StandardOutput
import ModelSchemas.Proofs.Export.Document
import ModelSchemas.Proofs.Export.Frame
import ModelSchemas.Proofs.Export.Outcome
import ModelSchemas.Proofs.Expression.Alphabet
import ModelSchemas.Proofs.Expression.Application
import ModelSchemas.Proofs.Expression.Balance
import ModelSchemas.Proofs.Expression.CallText
import ModelSchemas.Proofs.Expression.Continuation
import ModelSchemas.Proofs.Expression.Cutting
import ModelSchemas.Proofs.Expression.Generic
import ModelSchemas.Proofs.Expression.Idempotence
import ModelSchemas.Proofs.Expression.Ink
import ModelSchemas.Proofs.Expression.InkGrowth
import ModelSchemas.Proofs.Expression.Literal
import ModelSchemas.Proofs.Expression.Modifiers
import ModelSchemas.Proofs.Expression.NormalForm
import ModelSchemas.Proofs.Expression.OverrideLine
import ModelSchemas.Proofs.Expression.OverrideText
import ModelSchemas.Proofs.Expression.PassThrough
import ModelSchemas.Proofs.Expression.Reading
import ModelSchemas.Proofs.Expression.Rewrites
import ModelSchemas.Proofs.Expression.RoundTrip
import ModelSchemas.Proofs.Expression.Soundness
import ModelSchemas.Proofs.Expression.Splitting
import ModelSchemas.Proofs.Expression.Subtrees
import ModelSchemas.Proofs.Expression.Throughout
import ModelSchemas.Proofs.Expression.WellNested
import ModelSchemas.Proofs.Expression.Whole
import ModelSchemas.Proofs.Files.Change
import ModelSchemas.Proofs.Files.Saving
import ModelSchemas.Proofs.Host.Course
import ModelSchemas.Proofs.Host.DryRun
import ModelSchemas.Proofs.Host.Overriding
import ModelSchemas.Proofs.Host.Shapes
import ModelSchemas.Proofs.Model.Acceptance
import ModelSchemas.Proofs.Model.AcceptedEntities
import ModelSchemas.Proofs.Model.AcceptedSettings
import ModelSchemas.Proofs.Model.Assignment
import ModelSchemas.Proofs.Model.OpenKinds
import ModelSchemas.Proofs.Model.Records
import ModelSchemas.Proofs.Model.Rejection
import ModelSchemas.Proofs.Model.Rereading
import ModelSchemas.Proofs.Schema.BackRelations
import ModelSchemas.Proofs.Schema.Constants
import ModelSchemas.Proofs.Schema.Declarations
import ModelSchemas.Proofs.Schema.EnumLine
import ModelSchemas.Proofs.Schema.EnumLiterals
import ModelSchemas.Proofs.Schema.EnumUsage
import ModelSchemas.Proofs.Schema.FieldModifiers
import ModelSchemas.Proofs.Schema.KeyCombinations
import ModelSchemas.Proofs.Schema.Locality
import ModelSchemas.Proofs.Schema.PassGrowth
import ModelSchemas.Proofs.Schema.PassRun
import ModelSchemas.Proofs.Schema.ReferenceOrder
import ModelSchemas.Proofs.Text.Ink
import ModelSchemas.Proofs.Text.Join
import ModelSchemas.Proofs.Text.Trim
import ModelSchemas.Proofs.Validation.Accepted
import ModelSchemas.Proofs.Validation.Rereading
import ModelSchemas.Schema.Assembly
import ModelSchemas.Schema.Code
import ModelSchemas.Schema.EntityBlock
import ModelSchemas.Schema.FieldExpression
import ModelSchemas.Schema.Pass
import ModelSchemas.Schema.Relation
import ModelSchemas.Schema.UniqueKeys
import ModelSchemas.Text.Basic
import ModelSchemas.Text.Blank
import ModelSchemas.Text.Printable
import ModelSchemas.Text.Quoted
import ModelSchemas.Text.Utf8
import ModelSchemas.Text.WordChar
import ModelSchemas.Validation.Checked
import ModelSchemas.Validation.Record
import ModelSchemas.Validation.Scalar
