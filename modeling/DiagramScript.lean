import DiagramScript.Block
import DiagramScript.Caption
import DiagramScript.Color
import DiagramScript.Color.Model
import DiagramScript.Color.Names
import DiagramScript.Desk
import DiagramScript.Export
import DiagramScript.Fault
import DiagramScript.Folder
import DiagramScript.Generator
import DiagramScript.Geometry.Border
import DiagramScript.Geometry.Bounds
import DiagramScript.Geometry.Point
import DiagramScript.Journal
import DiagramScript.Journal.Format
import DiagramScript.Journal.Level
import DiagramScript.Json.Reader
import DiagramScript.Json.Value
import DiagramScript.Label
import DiagramScript.Layout
import DiagramScript.Layout.Request
import DiagramScript.Number.Arithmetic
import DiagramScript.Number.Binary64
import DiagramScript.Number.Digits
import DiagramScript.Number.Numeral
import DiagramScript.Number.Rounding
import DiagramScript.Number.Scalar
import DiagramScript.Number.Shortest
import DiagramScript.LineNumber
import DiagramScript.Page
import DiagramScript.Page.Binding
import DiagramScript.Page.Batch
import DiagramScript.Page.Record
import DiagramScript.Raster
import DiagramScript.Record
import DiagramScript.Report
import DiagramScript.Settings
import DiagramScript.Shape
import DiagramScript.Shape.Kind
import DiagramScript.Source
import DiagramScript.Statement.Grammar
import DiagramScript.Statement.Instruction
import DiagramScript.Statement.Measure
import DiagramScript.Statement.Options
import DiagramScript.Style
import DiagramScript.Style.Vocabulary
import DiagramScript.Svg
import DiagramScript.Svg.Element
import DiagramScript.Text.Blank
import DiagramScript.Text.DecimalDigit
import DiagramScript.Text.FinalSigma
import DiagramScript.Text.Lines
import DiagramScript.Text.Lowercase
import DiagramScript.Text.Quoted
import DiagramScript.Text.Unprintable
import DiagramScript.Token
import DiagramScript.Viewport
import DiagramScript.Proofs.Grouping
import DiagramScript.Proofs.Outcome
import DiagramScript.Proofs.Page.Steps
import DiagramScript.Proofs.Page.WellFormed
import DiagramScript.Proofs.Edit
import DiagramScript.Proofs.Operation
import DiagramScript.Proofs.Page.LinkKeys
import DiagramScript.Proofs.Page.ShapeRecord
import DiagramScript.Proofs.Page.Reload
import DiagramScript.Proofs.Page.Batches
import DiagramScript.Proofs.Numeric
import DiagramScript.Proofs.Page.Numeric
import DiagramScript.Proofs.Text
import DiagramScript.Proofs.Comment
import DiagramScript.Proofs.Lookup
import DiagramScript.Proofs.Layout
import DiagramScript.Proofs.Block
import DiagramScript.Proofs.Statement.OneLine
import DiagramScript.Proofs.Source.Lines
import DiagramScript.Proofs.Source.Append
import DiagramScript.Proofs.Source.Passages
import DiagramScript.Proofs.Spelling.Decimal
import DiagramScript.Proofs.Spelling.Words
import DiagramScript.Proofs.Spelling.Form
import DiagramScript.Proofs.Spelling.Statement
import DiagramScript.Proofs.Spelling.Agreement
import DiagramScript.Proofs.Number.Rank
import DiagramScript.Proofs.Number.Value
import DiagramScript.Proofs.Number.Near
import DiagramScript.Proofs.Number.Reach
import DiagramScript.Proofs.Geometry.Middle
import DiagramScript.Proofs.Geometry.Border
import DiagramScript.Proofs.Settles
import DiagramScript.Proofs.Drawable
import DiagramScript.Proofs.Json.Reader
import DiagramScript.Proofs.Record.Refusal
import DiagramScript.Proofs.Statement.WellFormed
import DiagramScript.Proofs.Record.WellFormed
import DiagramScript.Proofs.Source.WellFormed
import DiagramScript.Proofs.Number.Exact
import DiagramScript.Proofs.Layout.Apart
import DiagramScript.Proofs.Layout.Whole
import DiagramScript.Proofs.Page.Creation
import DiagramScript.Proofs.Page.Extends
import DiagramScript.Proofs.Page.Attached
import DiagramScript.Proofs.Layout.Reach
import DiagramScript.Proofs.Layout.Total
import DiagramScript.Proofs.Source.Moderate
import DiagramScript.Proofs.Page.Reach
import DiagramScript.Proofs.Svg.Element
import DiagramScript.Proofs.Drawing
import DiagramScript.Proofs.Generator
import DiagramScript.Proofs.Page.Succession
import DiagramScript.Proofs.Page.Effect
import DiagramScript.Proofs.Number.Zero
import DiagramScript.Proofs.Viewport
import DiagramScript.Proofs.Picture
import DiagramScript.Proofs.Markup.Reader
import DiagramScript.Proofs.Markup.Escape
import DiagramScript.Proofs.Markup.Written
import DiagramScript.Proofs.Markup.Render
import DiagramScript.Proofs.Number.Integer
import DiagramScript.Proofs.Geometry.Rect
import DiagramScript.Proofs.Page.Frames
import DiagramScript.Proofs.Page.Settled
import DiagramScript.Proofs.Uncropped
import DiagramScript.Proofs.Markup.Legal
import DiagramScript.Proofs.Svg.Legal
import DiagramScript.Proofs.Source.Stems
import DiagramScript.Proofs.Legible
import DiagramScript.Proofs.Page.NumberedIds
import DiagramScript.Proofs.Terminals
import DiagramScript.Proofs.Spelling.Endpoint
import DiagramScript.Proofs.Page.FullIds
import DiagramScript.Proofs.Page.Integral
import DiagramScript.Proofs.Page.Placed
import DiagramScript.Proofs.Page.Shuffled
import DiagramScript.Proofs.Number.Agree
import DiagramScript.Proofs.Page.Lookalike
import DiagramScript.Proofs.Page.Reversed
import DiagramScript.Proofs.Layout.Table
import DiagramScript.Proofs.Number.Regroup
import DiagramScript.Proofs.Layout.OneLine
import DiagramScript.Proofs.Spelling.Texts
import DiagramScript.Proofs.Text.Digit
import DiagramScript.Proofs.Number.Literal
import DiagramScript.Proofs.Number.Nearest
import DiagramScript.Proofs.Statement.Measure
import DiagramScript.Proofs.Statement.LastValues
import DiagramScript.Proofs.Record.Coordinate
import DiagramScript.Proofs.Layout.Header
import DiagramScript.Proofs.Journal
import DiagramScript.Proofs.Geometry.Plane
import DiagramScript.Proofs.Geometry.Exit
