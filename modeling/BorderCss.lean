import BorderCss.Border.Edge
import BorderCss.Border.LineStyle
import BorderCss.Color.Basic
import BorderCss.Color.Reading
import BorderCss.CommandLine
import BorderCss.Css.Block
import BorderCss.Css.Selector
import BorderCss.Css.Styling
import BorderCss.Document.Basic
import BorderCss.Document.Json
import BorderCss.Document.Yaml.BlockScalar
import BorderCss.Document.Yaml.Cursor
import BorderCss.Document.Yaml.Expansion
import BorderCss.Document.Yaml.Node
import BorderCss.Document.Yaml.Scalar
import BorderCss.Document.Yaml.Schema
import BorderCss.Document.Yaml.Tag
import BorderCss.Document.Yaml.Token
import BorderCss.Main
import BorderCss.Number.Binary64
import BorderCss.Number.Fixed
import BorderCss.Number.Numeral
import BorderCss.Proofs.Color.Alpha
import BorderCss.Proofs.Color.Ascii
import BorderCss.Proofs.Color.Delimiter
import BorderCss.Proofs.Color.Edges
import BorderCss.Proofs.Color.ExplicitAlpha
import BorderCss.Proofs.Color.KeyPath
import BorderCss.Proofs.Color.Name
import BorderCss.Proofs.Color.Percentage
import BorderCss.Proofs.Color.Search
import BorderCss.Proofs.Color.Segment
import BorderCss.Proofs.Color.Shade
import BorderCss.Proofs.Color.ThemeColor
import BorderCss.Proofs.Css.Block
import BorderCss.Proofs.Css.Distinct
import BorderCss.Proofs.Css.History
import BorderCss.Proofs.Css.Identifier
import BorderCss.Proofs.Css.Lookup
import BorderCss.Proofs.Css.Merge
import BorderCss.Proofs.Css.Reference
import BorderCss.Proofs.Css.Styling
import BorderCss.Proofs.Number.Canonical
import BorderCss.Proofs.Number.Decimal
import BorderCss.Proofs.Number.Hundredth
import BorderCss.Proofs.Number.Nearest
import BorderCss.Proofs.Number.NearestDecimal
import BorderCss.Proofs.Number.Numeral
import BorderCss.Proofs.Number.Places
import BorderCss.Proofs.Number.Rereading
import BorderCss.Proofs.Rule.Color
import BorderCss.Proofs.Rule.Cooperation
import BorderCss.Proofs.Rule.Delimiter
import BorderCss.Proofs.Rule.Dispatch
import BorderCss.Proofs.Rule.Fallthrough
import BorderCss.Proofs.Rule.Gathering
import BorderCss.Proofs.Rule.Opacity
import BorderCss.Proofs.Rule.Outcome
import BorderCss.Proofs.Rule.Radius
import BorderCss.Proofs.Rule.Reordering
import BorderCss.Proofs.Rule.Selector
import BorderCss.Proofs.Rule.Shape
import BorderCss.Proofs.Rule.Stem
import BorderCss.Proofs.Rule.Width
import BorderCss.Proofs.Stylesheet.Batch
import BorderCss.Proofs.Stylesheet.Variables
import BorderCss.Proofs.Text.Call
import BorderCss.Proofs.Text.Classes
import BorderCss.Proofs.Text.Nesting
import BorderCss.Proofs.Text.Uppercase
import BorderCss.Proofs.Text.Word
import BorderCss.Proofs.Theme.KeyOrder
import BorderCss.Proofs.Theme.Recorder
import BorderCss.Proofs.Theme.Usage
import BorderCss.Proofs.Theme.Walk
import BorderCss.Proofs.Value.Ascii
import BorderCss.Proofs.Value.BinaryOperator
import BorderCss.Proofs.Value.Bracket
import BorderCss.Proofs.Value.CssNumber
import BorderCss.Proofs.Value.MathCall
import BorderCss.Proofs.Value.MathSpacing
import BorderCss.Proofs.Value.Quantity
import BorderCss.Proofs.Value.Respacing
import BorderCss.Proofs.Value.Underscore
import BorderCss.Proofs.Value.Word
import BorderCss.Rule.Pattern
import BorderCss.Rule.Resolution
import BorderCss.Rule.Table
import BorderCss.Rule.Utility
import BorderCss.Stylesheet
import BorderCss.Text.Classes
import BorderCss.Text.Cut
import BorderCss.Text.Hexadecimal
import BorderCss.Text.Uppercase
import BorderCss.Theme.Basic
import BorderCss.Theme.Loading
import BorderCss.Theme.Preset
import BorderCss.Theme.Recorder
import BorderCss.Theme.Usage
import BorderCss.Value.Bracket
import BorderCss.Value.Conversion
import BorderCss.Value.Fragment
import BorderCss.Value.Keyword
import BorderCss.Value.MathSpacing
import BorderCss.Value.Quantity
import BorderCss.Value.Underscore
