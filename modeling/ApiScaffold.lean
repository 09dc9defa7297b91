import ApiScaffold.Api.Document
import ApiScaffold.Api.Naming
import ApiScaffold.Api.Path
import ApiScaffold.Api.Reference
import ApiScaffold.Api.Rendering
import ApiScaffold.Api.Shape
import ApiScaffold.Api.Structure
import ApiScaffold.Api.Transform
import ApiScaffold.Api.Validation
import ApiScaffold.CommandLine.Arguments
import ApiScaffold.CommandLine.Run
import ApiScaffold.Data.OrderedMap
import ApiScaffold.Diagram.Arrow
import ApiScaffold.Diagram.Basic
import ApiScaffold.Diagram.Block
import ApiScaffold.Diagram.Cardinality
import ApiScaffold.Diagram.Export
import ApiScaffold.Diagram.Header
import ApiScaffold.Diagram.Member
import ApiScaffold.Diagram.Modifier
import ApiScaffold.Diagram.Parser
import ApiScaffold.Diagram.Relation
import ApiScaffold.Failure
import ApiScaffold.Files.Path
import ApiScaffold.Files.Tree
import ApiScaffold.Json.Basic
import ApiScaffold.Json.Inline
import ApiScaffold.Json.Printer
import ApiScaffold.Json.Reader
import ApiScaffold.Log.Conversion
import ApiScaffold.Log.Format
import ApiScaffold.Log.Notice
import ApiScaffold.Log.Record
import ApiScaffold.Log.Trace
import ApiScaffold.Main
import ApiScaffold.Number.Binary64
import ApiScaffold.Number.Places
import ApiScaffold.Number.Shortest
import ApiScaffold.Proofs.Api.Closure
import ApiScaffold.Proofs.Api.ComponentNames
import ApiScaffold.Proofs.Api.Contents
import ApiScaffold.Proofs.Api.DeclarationOrder
import ApiScaffold.Proofs.Api.ErrorSchema
import ApiScaffold.Proofs.Api.Identifiers
import ApiScaffold.Proofs.Api.KeyNames
import ApiScaffold.Proofs.Api.Legible
import ApiScaffold.Proofs.Api.Naming
import ApiScaffold.Proofs.Api.ReferenceCheck
import ApiScaffold.Proofs.Api.Referring
import ApiScaffold.Proofs.Api.Rendering
import ApiScaffold.Proofs.Api.Segment
import ApiScaffold.Proofs.Api.Serving
import ApiScaffold.Proofs.CommandLine.Transforming
import ApiScaffold.Proofs.Data.Lookup
import ApiScaffold.Proofs.Data.OrderedMap
import ApiScaffold.Proofs.Diagram.ArrowChoice
import ApiScaffold.Proofs.Diagram.ArrowLine
import ApiScaffold.Proofs.Diagram.ArrowSearch
import ApiScaffold.Proofs.Diagram.Behind
import ApiScaffold.Proofs.Diagram.Beside
import ApiScaffold.Proofs.Diagram.CommentLine
import ApiScaffold.Proofs.Diagram.Content
import ApiScaffold.Proofs.Diagram.CountLimit
import ApiScaffold.Proofs.Diagram.CountSpelling
import ApiScaffold.Proofs.Diagram.CountToken
import ApiScaffold.Proofs.Diagram.Course
import ApiScaffold.Proofs.Diagram.Declaration
import ApiScaffold.Proofs.Diagram.DeclaredName
import ApiScaffold.Proofs.Diagram.Delimited
import ApiScaffold.Proofs.Diagram.Exchange
import ApiScaffold.Proofs.Diagram.Export
import ApiScaffold.Proofs.Diagram.Header
import ApiScaffold.Proofs.Diagram.HeaderText
import ApiScaffold.Proofs.Diagram.Layout
import ApiScaffold.Proofs.Diagram.MemberArrow
import ApiScaffold.Proofs.Diagram.MemberLine
import ApiScaffold.Proofs.Diagram.ModifiedLine
import ApiScaffold.Proofs.Diagram.Modifier
import ApiScaffold.Proofs.Diagram.Nested
import ApiScaffold.Proofs.Diagram.NumeralLimit
import ApiScaffold.Proofs.Diagram.OwnLine
import ApiScaffold.Proofs.Diagram.Package
import ApiScaffold.Proofs.Diagram.Printed
import ApiScaffold.Proofs.Diagram.PrintedLine
import ApiScaffold.Proofs.Diagram.Region
import ApiScaffold.Proofs.Diagram.RelationLine
import ApiScaffold.Proofs.Diagram.RelationSpelling
import ApiScaffold.Proofs.Diagram.RoundTrip
import ApiScaffold.Proofs.Diagram.Walk
import ApiScaffold.Proofs.Diagram.WellFormed
import ApiScaffold.Proofs.Files.History
import ApiScaffold.Proofs.Json.ReadBack
import ApiScaffold.Proofs.Json.Token
import ApiScaffold.Proofs.Record.ReadBack
import ApiScaffold.Proofs.Sample.Listing
import ApiScaffold.Proofs.Schema.ArrowSide
import ApiScaffold.Proofs.Schema.AttributeType
import ApiScaffold.Proofs.Schema.Building
import ApiScaffold.Proofs.Schema.Closure
import ApiScaffold.Proofs.Schema.CollectionType
import ApiScaffold.Proofs.Schema.History
import ApiScaffold.Proofs.Schema.Inheritance
import ApiScaffold.Proofs.Schema.Multiplicity
import ApiScaffold.Proofs.Schema.Parents
import ApiScaffold.Proofs.Schema.Projection
import ApiScaffold.Proofs.Schema.Steps
import ApiScaffold.Proofs.Schema.TypeSpelling
import ApiScaffold.Proofs.Schema.Written
import ApiScaffold.Proofs.Service.Entrances
import ApiScaffold.Proofs.Text.Character
import ApiScaffold.Proofs.Text.LetterCase
import ApiScaffold.Proofs.Text.Lines
import ApiScaffold.Proofs.Text.Lowered
import ApiScaffold.Proofs.Text.Pattern
import ApiScaffold.Proofs.Text.Respaced
import ApiScaffold.Proofs.Yaml.Characters
import ApiScaffold.Proofs.Yaml.DoubleQuoted
import ApiScaffold.Proofs.Yaml.Key
import ApiScaffold.Proofs.Yaml.Leaf
import ApiScaffold.Proofs.Yaml.Numeral
import ApiScaffold.Proofs.Yaml.Plain
import ApiScaffold.Proofs.Yaml.ReadBack
import ApiScaffold.Proofs.Yaml.Reader
import ApiScaffold.Proofs.Yaml.Runs
import ApiScaffold.Proofs.Yaml.SingleQuoted
import ApiScaffold.Proofs.Yaml.Whole
import ApiScaffold.Record.Basic
import ApiScaffold.Record.Form
import ApiScaffold.Record.Numeral
import ApiScaffold.Record.Scalar
import ApiScaffold.Sample.Basic
import ApiScaffold.Sample.Bundled
import ApiScaffold.Sample.Library
import ApiScaffold.Schema.Builder
import ApiScaffold.Schema.Component
import ApiScaffold.Schema.Fragment
import ApiScaffold.Schema.TypeToken
import ApiScaffold.Service.Forms
import ApiScaffold.Service.Reply
import ApiScaffold.Service.Request
import ApiScaffold.Service.Target
import ApiScaffold.Settings
import ApiScaffold.Terminal.Column
import ApiScaffold.Terminal.Layout
import ApiScaffold.Terminal.Look
import ApiScaffold.Terminal.Markup
import ApiScaffold.Terminal.Table
import ApiScaffold.Text.Blank
import ApiScaffold.Text.Case
import ApiScaffold.Text.CaseTable
import ApiScaffold.Text.CodeRange
import ApiScaffold.Text.Hex
import ApiScaffold.Text.Lines
import ApiScaffold.Text.Pattern
import ApiScaffold.Text.Printable
import ApiScaffold.Text.Quoted
import ApiScaffold.Text.Utf8
import ApiScaffold.Text.Word
import ApiScaffold.Yaml.Implicit
import ApiScaffold.Yaml.Printer
import ApiScaffold.Yaml.Style
