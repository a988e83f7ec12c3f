import Stencil.Bound.Basic
import Stencil.Bound.Fill
import Stencil.Bound.Fixate
import Stencil.Bound.Report
import Stencil.Codec
import Stencil.CommandLine.Arguments
import Stencil.CommandLine.Run
import Stencil.Content.Basic
import Stencil.Content.Emit
import Stencil.Content.Escaping
import Stencil.Content.Html
import Stencil.Content.Sink
import Stencil.Failure
import Stencil.Fault
import Stencil.Format.Directive
import Stencil.Format.Numeral
import Stencil.Format.Render
import Stencil.IndexMap
import Stencil.Main
import Stencil.Markup.Basic
import Stencil.Markup.Config
import Stencil.Markup.File
import Stencil.Number.Decimal
import Stencil.Number.Double
import Stencil.Number.Limit
import Stencil.Number.Shortest
import Stencil.Path
import Stencil.Pattern.Basic
import Stencil.Pattern.Match
import Stencil.Pattern.Reader
import Stencil.Proofs.Bound.Binding
import Stencil.Proofs.Bound.Fixation
import Stencil.Proofs.Bound.Keeps
import Stencil.Proofs.Content.Accounting
import Stencil.Proofs.Content.Induction
import Stencil.Proofs.Content.Keeps
import Stencil.Proofs.Content.Shadow
import Stencil.Proofs.Content.Writing
import Stencil.Proofs.Content.Written
import Stencil.Proofs.Source.Keeps
import Stencil.Proofs.Source.Keys
import Stencil.Proofs.Source.Layout
import Stencil.Proofs.Source.Rendering
import Stencil.Proofs.Source.Scene
import Stencil.Proofs.Source.Simulation
import Stencil.Proofs.Template.Edits
import Stencil.Proofs.Template.Parts
import Stencil.Proofs.Template.Produced
import Stencil.Proofs.Template.SlotTable
import Stencil.Proofs.Template.WellFormed
import Stencil.Proofs.Text.Mark
import Stencil.Source.Catalog
import Stencil.Source.File
import Stencil.Source.FileName
import Stencil.Source.Inline
import Stencil.Source.Lines
import Stencil.Source.Parse
import Stencil.Stock.Functions
import Stencil.Stock.Sinks
import Stencil.Template.Basic
import Stencil.Template.Rename
import Stencil.Text.Blank
import Stencil.Text.Bytes
import Stencil.Text.Case
import Stencil.Text.Charset
import Stencil.Text.Cut
import Stencil.Text.Digit
import Stencil.Text.Json
import Stencil.Text.Newline
import Stencil.Text.Point
import Stencil.Text.Printable
import Stencil.Text.Quoted
import Stencil.Text.Ranges
import Stencil.Text.Utf8
import Stencil.Text.Word
import Stencil.Value.Basic
import Stencil.Value.Text
import Stencil.Value.View
import Stencil.Value.Whole
import Stencil.Workspace
import Stencil.Yaml.Cursor
import Stencil.Yaml.Document
import Stencil.Yaml.Node
import Stencil.Yaml.Resolve
import Stencil.Yaml.Scalar
import Stencil.Yaml.Token
import Stencil.Proofs.Source.Course
import Stencil.Proofs.Markup.Legible
import Stencil.Proofs.Source.Steady
import Stencil.Proofs.Source.Inline
import Stencil.Proofs.Source.Acceptance
import Stencil.Proofs.Source.Nested
import Stencil.Proofs.Source.Outermost
import Stencil.Proofs.Text.Utf8
import Stencil.Proofs.Content.Escaped
import Stencil.Proofs.Content.Faults
import Stencil.Proofs.Bound.Wraps
import Stencil.Proofs.Bound.Fill
import Stencil.Proofs.Bound.Report
import Stencil.Proofs.Bound.Closed
import Stencil.Proofs.Content.References
import Stencil.Proofs.Content.Shown
import Stencil.Proofs.Shared.Reports
import Stencil.Proofs.Content.Forwarding
import Stencil.Proofs.Content.Harmless
import Stencil.Proofs.Bound.Building
import Stencil.Proofs.Source.Continued
import Stencil.Proofs.Shared.Continued
import Stencil.Proofs.Markup.Safe
import Stencil.Proofs.Template.Transform
import Stencil.Proofs.Template.Rename
import Stencil.Proofs.Source.Files
import Stencil.Proofs.Bound.Faults
import Stencil.Proofs.CommandLine.Outcome
import Stencil.Proofs.Bound.Copy
import Stencil.Proofs.Bound.Evaluation
import Stencil.Proofs.Shared.Static
import Stencil.Proofs.Bound.Renaming
import Stencil.Proofs.Bound.Calls
import Stencil.Proofs.Bound.Filling
import Stencil.Proofs.Shared.Renaming
import Stencil.Proofs.Text.Pieces
import Stencil.Proofs.Path.Joined
import Stencil.Proofs.Markup.Configured
import Stencil.Proofs.Template.Naming
import Stencil.Proofs.Bound.Naming
import Stencil.Proofs.Content.Causes
import Stencil.Proofs.IndexMap.Tags
import Stencil.Proofs.IndexMap.Filling
import Stencil.Proofs.IndexMap.Binding
import Stencil.Proofs.Content.Unescaped
