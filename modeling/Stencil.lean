import Stencil.Cache
import Stencil.CommandLine.Arguments
import Stencil.CommandLine.Help
import Stencil.CommandLine.Run
import Stencil.Component
import Stencil.Decimal.Layout
import Stencil.Decimal.Shortest
import Stencil.Diagnostic.Report
import Stencil.Diagnostic.Style
import Stencil.Failure
import Stencil.Files.Basic
import Stencil.Files.Path
import Stencil.Files.Tree
import Stencil.Handler
import Stencil.Main
import Stencil.Markup.Basic
import Stencil.Markup.Escape
import Stencil.Message
import Stencil.Registry
import Stencil.Renderer
import Stencil.Route
import Stencil.Rule
import Stencil.Scope
import Stencil.Settings
import Stencil.Sidecar
import Stencil.Template.Body
import Stencil.Template.Evaluation
import Stencil.Template.Grammar
import Stencil.Template.Lexeme
import Stencil.Template.Parse
import Stencil.Template.Printer
import Stencil.Template.Quoted
import Stencil.Template.Reader
import Stencil.Template.Segment
import Stencil.Template.Token
import Stencil.Text.Blank
import Stencil.Text.Case
import Stencil.Text.CaseTable
import Stencil.Text.InvisibleTable
import Stencil.Text.Lines
import Stencil.Text.Percent
import Stencil.Text.Slashes
import Stencil.Text.Utf8
import Stencil.Text.Visible
import Stencil.Text.Width
import Stencil.Text.WidthTable
import Stencil.Toml.Document
import Stencil.Toml.Lexical
import Stencil.Toml.Moment
import Stencil.Toml.Number
import Stencil.Value.Basic
import Stencil.Value.Json
import Stencil.Value.Plain
import Stencil.Word
import Stencil.Proofs.Reading.Complete
import Stencil.Proofs.Reading.Sound
import Stencil.Proofs.Caching.Fresh
import Stencil.Proofs.Markup.Inert
import Stencil.Proofs.Reading.Faults
import Stencil.Proofs.Rendering.Escaping
import Stencil.Proofs.Printing.Found
import Stencil.Proofs.Printing.Parsed
import Stencil.Proofs.Printing.RoundTrip
import Stencil.Proofs.Views.Stages
import Stencil.Proofs.Lexing.Coverage
import Stencil.Proofs.Joining.Concatenation
import Stencil.Proofs.Rules.Written
import Stencil.Proofs.Rendering.Calls
import Stencil.Proofs.Rendering.Evaluated
import Stencil.Proofs.Handlers.Consistent
import Stencil.Proofs.Handlers.Chains
import Stencil.Proofs.Handlers.Rounds
import Stencil.Proofs.Handlers.Configured
import Stencil.Proofs.Caching.Counts
import Stencil.Proofs.Rendering.Embedding
import Stencil.Proofs.Rendering.Uncached
import Stencil.Proofs.Rendering.Written
import Stencil.Proofs.Rendering.Paths
import Stencil.Proofs.Printing.Literals
import Stencil.Proofs.Rules.Blankness
import Stencil.Proofs.Reporting.Distinct
import Stencil.Proofs.Files.Paths
import Stencil.Proofs.Files.Directories
import Stencil.Proofs.Files.Audit
import Stencil.Proofs.Files.Names
import Stencil.Proofs.Reading.Progress
import Stencil.Proofs.Reading.Stuck
import Stencil.Proofs.Reading.Errors
import Stencil.Proofs.Rendering.Mentioned
import Stencil.Proofs.Joining.Closed
import Stencil.Proofs.Commenting.Hanging
import Stencil.Proofs.Commenting.Letters
import Stencil.Proofs.Commenting.Invisible
import Stencil.Proofs.Slicing.Nodes
import Stencil.Proofs.Slicing.Slices
import Stencil.Proofs.Slicing.Spans
import Stencil.Proofs.Markup.Inverse
import Stencil.Proofs.Routing.Filling
import Stencil.Proofs.Scanning.Agreement
import Stencil.Proofs.Scanning.Openings
import Stencil.Proofs.Scanning.Recognition
import Stencil.Proofs.Files.Selection
import Stencil.Proofs.Reporting.Bytes
import Stencil.Proofs.Values.Leaves
import Stencil.Proofs.Rendering.Numerals
import Stencil.Proofs.Rendering.Plain
