import CodeAtlas.Command.Arguments
import CodeAtlas.Command.Basic
import CodeAtlas.Command.Files
import CodeAtlas.Command.Run
import CodeAtlas.Filter.Apply
import CodeAtlas.Filter.Options
import CodeAtlas.Filter.Summary
import CodeAtlas.Graph.Basic
import CodeAtlas.Graph.Edge
import CodeAtlas.Graph.Entity
import CodeAtlas.Graph.Index
import CodeAtlas.Graph.Walk
import CodeAtlas.Hierarchy.Build
import CodeAtlas.Hierarchy.Expansion
import CodeAtlas.Hierarchy.Stats
import CodeAtlas.Hierarchy.Tree
import CodeAtlas.Json.Document
import CodeAtlas.Json.Error
import CodeAtlas.Json.Lexer
import CodeAtlas.Json.Numeral
import CodeAtlas.Json.Reader
import CodeAtlas.Json.Record
import CodeAtlas.Json.Token
import CodeAtlas.Json.Writer
import CodeAtlas.Main
import CodeAtlas.Number.Binary64
import CodeAtlas.Number.Shortest
import CodeAtlas.Number.Word
import CodeAtlas.Proofs.Command.Faults
import CodeAtlas.Proofs.Filter.Accounting
import CodeAtlas.Proofs.Filter.Connectivity
import CodeAtlas.Proofs.Filter.Detour
import CodeAtlas.Proofs.Filter.DirectEdges
import CodeAtlas.Proofs.Filter.FirstBridge
import CodeAtlas.Proofs.Filter.HidesNothing
import CodeAtlas.Proofs.Filter.LinkOrigin
import CodeAtlas.Proofs.Filter.Restrict
import CodeAtlas.Proofs.Graph.Dangling
import CodeAtlas.Proofs.Graph.EdgeOrder
import CodeAtlas.Proofs.Graph.EdgeStore
import CodeAtlas.Proofs.Graph.Hop
import CodeAtlas.Proofs.Graph.Incidence
import CodeAtlas.Proofs.Graph.Levels
import CodeAtlas.Proofs.Graph.Reordering
import CodeAtlas.Proofs.Graph.Resolved
import CodeAtlas.Proofs.Hierarchy.Assembly
import CodeAtlas.Proofs.Hierarchy.Callers
import CodeAtlas.Proofs.Hierarchy.Canonical
import CodeAtlas.Proofs.Hierarchy.ClaimOrder
import CodeAtlas.Proofs.Hierarchy.ExpansionRun
import CodeAtlas.Proofs.Hierarchy.HopDistance
import CodeAtlas.Proofs.Hierarchy.InputOrder
import CodeAtlas.Proofs.Hierarchy.Position
import CodeAtlas.Proofs.Hierarchy.Provenance
import CodeAtlas.Proofs.Hierarchy.SlotForest
import CodeAtlas.Proofs.Hierarchy.SlotWalk
import CodeAtlas.Proofs.Hierarchy.Summary
import CodeAtlas.Proofs.Hierarchy.ToggledBlock
import CodeAtlas.Proofs.Hierarchy.Truncation
import CodeAtlas.Proofs.Hierarchy.VisibleDepth
import CodeAtlas.Proofs.Json.AnyOrder
import CodeAtlas.Proofs.Json.Documents
import CodeAtlas.Proofs.Json.Grammar
import CodeAtlas.Proofs.Json.Nesting
import CodeAtlas.Proofs.Json.ReadBack
import CodeAtlas.Proofs.Json.Scalar
import CodeAtlas.Proofs.Json.Tokens
import CodeAtlas.Proofs.Reference.BreadthFirst
import CodeAtlas.Proofs.Reference.ByDistance
import CodeAtlas.Proofs.Reference.Collector
import CodeAtlas.Proofs.Reference.Farther
import CodeAtlas.Proofs.Reference.InputOrder
import CodeAtlas.Proofs.Reference.Saturation
import CodeAtlas.Proofs.Settings.LeftOut
import CodeAtlas.Proofs.Text.Lines
import CodeAtlas.Proofs.Text.Matching
import CodeAtlas.Proofs.Text.OrderedMap
import CodeAtlas.Proofs.Text.StableSort
import CodeAtlas.Proofs.Usage.Claims
import CodeAtlas.Proofs.Usage.ContextWindow
import CodeAtlas.Proofs.Usage.FirstRule
import CodeAtlas.Proofs.Usage.LineByLine
import CodeAtlas.Proofs.Usage.Members
import CodeAtlas.Proofs.Usage.Mention
import CodeAtlas.Proofs.Usage.NameLists
import CodeAtlas.Proofs.Usage.Positions
import CodeAtlas.Proofs.Usage.Quotation
import CodeAtlas.Proofs.Usage.Sites
import CodeAtlas.Proofs.Usage.Symbol
import CodeAtlas.Proofs.Usage.TypeArguments
import CodeAtlas.Proofs.Wire.Readers
import CodeAtlas.Proofs.Wire.RoundTrip
import CodeAtlas.Proofs.Wire.Spellings
import CodeAtlas.Reference.Analyze
import CodeAtlas.Reference.Basic
import CodeAtlas.Reference.Kind
import CodeAtlas.Report.Filter
import CodeAtlas.Report.Layout
import CodeAtlas.Report.Reference
import CodeAtlas.Report.Tree
import CodeAtlas.Settings.Basic
import CodeAtlas.Settings.Exclude
import CodeAtlas.Settings.Glob
import CodeAtlas.Text.Alphabetic
import CodeAtlas.Text.Blank
import CodeAtlas.Text.Cursor
import CodeAtlas.Text.Lines
import CodeAtlas.Text.Mark
import CodeAtlas.Text.Numeral
import CodeAtlas.Text.Pad
import CodeAtlas.Text.Path
import CodeAtlas.Text.Printable
import CodeAtlas.Text.Quoted
import CodeAtlas.Text.Range
import CodeAtlas.Text.Search
import CodeAtlas.Text.Sorted
import CodeAtlas.Text.Word
import CodeAtlas.Toml.Document
import CodeAtlas.Toml.Item
import CodeAtlas.Toml.Number
import CodeAtlas.Toml.Scan
import CodeAtlas.Toml.Text
import CodeAtlas.Usage.Basic
import CodeAtlas.Usage.Frame
import CodeAtlas.Usage.Literal
import CodeAtlas.Usage.Pattern
import CodeAtlas.Usage.Rule
import CodeAtlas.Usage.Scan
import CodeAtlas.Usage.Scope
import CodeAtlas.Wire.Filter
import CodeAtlas.Wire.Graph
import CodeAtlas.Wire.Tree
import CodeAtlas.Wire.Usage
