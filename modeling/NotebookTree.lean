import NotebookTree.Command.Arguments
import NotebookTree.Command.Request
import NotebookTree.Command.Run
import NotebookTree.Fault
import NotebookTree.Fault.Arguments
import NotebookTree.Files
import NotebookTree.Html.Document
import NotebookTree.Html.Event
import NotebookTree.Html.Syntax
import NotebookTree.Html.Writer
import NotebookTree.Json.Reader
import NotebookTree.Json.Writer
import NotebookTree.Log
import NotebookTree.Log.Setup
import NotebookTree.Main
import NotebookTree.Markdown.Block.Definition
import NotebookTree.Markdown.Block.Extension
import NotebookTree.Markdown.Block.Line
import NotebookTree.Markdown.Block.Nesting
import NotebookTree.Markdown.Block.Progress
import NotebookTree.Markdown.Block.Reader
import NotebookTree.Markdown.Block.Table
import NotebookTree.Markdown.Destination
import NotebookTree.Markdown.Document
import NotebookTree.Markdown.HtmlWriter
import NotebookTree.Markdown.RunningText
import NotebookTree.Markdown.SourceWriter
import NotebookTree.Markdown.Span
import NotebookTree.Markdown.Syntax
import NotebookTree.Markdown.Tag
import NotebookTree.Markdown.Token
import NotebookTree.Mime.Category
import NotebookTree.Mime.Payload
import NotebookTree.Mime.Table
import NotebookTree.Notebook.Convert
import NotebookTree.Notebook.Source
import NotebookTree.Number.Double
import NotebookTree.Output.Bundle
import NotebookTree.Output.Render
import NotebookTree.Proofs.Alike
import NotebookTree.Proofs.Command.Answers
import NotebookTree.Proofs.Command.Listing
import NotebookTree.Proofs.Command.Outputs
import NotebookTree.Proofs.Entries
import NotebookTree.Proofs.Html.Bodies
import NotebookTree.Proofs.Html.Reading
import NotebookTree.Proofs.Html.RoundTrip
import NotebookTree.Proofs.Json.Lexing
import NotebookTree.Proofs.Json.Reader
import NotebookTree.Proofs.Json.RoundTrip
import NotebookTree.Proofs.Json.Scalar
import NotebookTree.Proofs.Markdown.BasicBlocks
import NotebookTree.Proofs.Markdown.BasicText
import NotebookTree.Proofs.Markdown.Elements
import NotebookTree.Proofs.Markdown.Inverse
import NotebookTree.Proofs.Markdown.Regular
import NotebookTree.Proofs.Markdown.Rendering
import NotebookTree.Proofs.Markdown.Return
import NotebookTree.Proofs.Markdown.SourceWriting
import NotebookTree.Proofs.Markdown.Vacant
import NotebookTree.Proofs.Markdown.Vacant.Source
import NotebookTree.Proofs.Mime.Choice
import NotebookTree.Proofs.Misuse
import NotebookTree.Proofs.Notebook.CellRules
import NotebookTree.Proofs.Notebook.EmptyCells
import NotebookTree.Proofs.Notebook.EntryPoints
import NotebookTree.Proofs.Notebook.Faults
import NotebookTree.Proofs.Notebook.Fragments
import NotebookTree.Proofs.Notebook.MarkdownCells
import NotebookTree.Proofs.Notebook.Shape
import NotebookTree.Proofs.Number.Rounding
import NotebookTree.Proofs.Number.Shortest
import NotebookTree.Proofs.Output.Error
import NotebookTree.Proofs.Output.Escaped
import NotebookTree.Proofs.Output.Escaping
import NotebookTree.Proofs.Output.Extraction
import NotebookTree.Proofs.Output.Fragments
import NotebookTree.Proofs.Output.Stream
import NotebookTree.Proofs.Sequence
import NotebookTree.Proofs.Settings
import NotebookTree.Proofs.Settings.History
import NotebookTree.Proofs.Store.Change
import NotebookTree.Proofs.Store.Holds
import NotebookTree.Proofs.Store.Leads
import NotebookTree.Proofs.Store.Rows
import NotebookTree.Proofs.Store.Unfolding
import NotebookTree.Proofs.Telling
import NotebookTree.Proofs.Text.Color
import NotebookTree.Proofs.Text.Lines
import NotebookTree.Proofs.Text.Markup
import NotebookTree.Proofs.Value.Label
import NotebookTree.Proofs.Value.Plain
import NotebookTree.Proofs.Value.Rewriting
import NotebookTree.Proofs.Value.Tree
import NotebookTree.Proofs.Walk.Appending
import NotebookTree.Proofs.Walk.Appending.Calls
import NotebookTree.Proofs.Walk.Appending.Transform
import NotebookTree.Proofs.Walk.Appending.Visit
import NotebookTree.Proofs.Walk.Calls
import NotebookTree.Proofs.Walk.CellFilter
import NotebookTree.Proofs.Walk.Detached
import NotebookTree.Proofs.Walk.Faults
import NotebookTree.Proofs.Walk.Filter
import NotebookTree.Proofs.Walk.Filter.Compose
import NotebookTree.Proofs.Walk.Filter.Judge
import NotebookTree.Proofs.Walk.Filter.Prune
import NotebookTree.Proofs.Walk.Filter.Run
import NotebookTree.Proofs.Walk.Listing
import NotebookTree.Proofs.Walk.Losing
import NotebookTree.Proofs.Walk.MarkdownRule
import NotebookTree.Proofs.Walk.Order
import NotebookTree.Proofs.Walk.Outcome
import NotebookTree.Proofs.Walk.Peeking
import NotebookTree.Proofs.Walk.Quiet
import NotebookTree.Proofs.Walk.Record
import NotebookTree.Proofs.Walk.Rewriting
import NotebookTree.Proofs.Walk.Search
import NotebookTree.Proofs.Walk.Shape
import NotebookTree.Proofs.Walk.Timing
import NotebookTree.Proofs.Walk.Transform
import NotebookTree.Proofs.Walk.Transform.Direction
import NotebookTree.Proofs.Walk.Transform.Fusion
import NotebookTree.Proofs.Walk.Transform.Relabel
import NotebookTree.Proofs.Walk.Transform.Rewrite
import NotebookTree.Proofs.Walk.Transform.Rule
import NotebookTree.Proofs.Walk.Transform.Run
import NotebookTree.Proofs.Walk.Tree
import NotebookTree.Proofs.Walk.Visit
import NotebookTree.Settings
import NotebookTree.Store
import NotebookTree.Terminal.Engine
import NotebookTree.Terminal.Outline
import NotebookTree.Terminal.Table
import NotebookTree.Terminal.Wrap
import NotebookTree.Text.CellWidth
import NotebookTree.Text.Character
import NotebookTree.Text.Color
import NotebookTree.Text.Likeness
import NotebookTree.Text.Lines
import NotebookTree.Text.Markup
import NotebookTree.Text.Quoted
import NotebookTree.Text.Reference
import NotebookTree.Value
import NotebookTree.Value.Guard
import NotebookTree.Value.Label
import NotebookTree.Value.Plain
import NotebookTree.Value.Spelling
import NotebookTree.Walk
import NotebookTree.Walk.CellRule
import NotebookTree.Walk.Listing
import NotebookTree.Walk.Transform
import NotebookTree.Walk.Visit
import NotebookTree.Proofs.Command.Outline
import NotebookTree.Proofs.Output.Kinds
import NotebookTree.Proofs.Value.Equality
import NotebookTree.Proofs.Value.View
