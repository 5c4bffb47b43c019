import SchemaChange.Call
import SchemaChange.CommandLine.Arguments
import SchemaChange.CommandLine.Environment
import SchemaChange.CommandLine.Help
import SchemaChange.CommandLine.Report
import SchemaChange.Datum
import SchemaChange.Delivery
import SchemaChange.FieldSpec
import SchemaChange.FileTree
import SchemaChange.Folder
import SchemaChange.Json.Reader
import SchemaChange.Json.Value
import SchemaChange.Json.Writer
import SchemaChange.Main
import SchemaChange.Members
import SchemaChange.Migration
import SchemaChange.Number.Binary64
import SchemaChange.Number.Layout
import SchemaChange.Number.Numeral
import SchemaChange.Number.Range
import SchemaChange.Number.Scaling
import SchemaChange.Number.Shortest
import SchemaChange.Proofs.AllOrNothing
import SchemaChange.Proofs.Boundary
import SchemaChange.Proofs.CharClass
import SchemaChange.Proofs.Comments
import SchemaChange.Proofs.Draft
import SchemaChange.Proofs.Extent
import SchemaChange.Proofs.Field
import SchemaChange.Proofs.Form
import SchemaChange.Proofs.Fragment
import SchemaChange.Proofs.Growth
import SchemaChange.Proofs.Listing
import SchemaChange.Proofs.Opening
import SchemaChange.Proofs.Parts
import SchemaChange.Proofs.Quoted
import SchemaChange.Proofs.QuotedComments
import SchemaChange.Proofs.Reserved
import SchemaChange.Proofs.Script
import SchemaChange.Proofs.Search
import SchemaChange.Proofs.SingleRow
import SchemaChange.Proofs.Spelling
import SchemaChange.Proofs.Trimming
import SchemaChange.Statement
import SchemaChange.Statement.ColumnReader
import SchemaChange.Statement.Comment
import SchemaChange.Statement.Reader
import SchemaChange.Step
import SchemaChange.Text.CharClass
import SchemaChange.Text.ControlSequence
import SchemaChange.Text.LetterCase
import SchemaChange.Text.Pieces
import SchemaChange.Text.Reader
import SchemaChange.Unicode.Age
import SchemaChange.Unicode.Alphabetic
import SchemaChange.Unicode.CaseRun
import SchemaChange.Unicode.Cased
import SchemaChange.Unicode.Connector
import SchemaChange.Unicode.Lowercase
import SchemaChange.Unicode.Mark
import SchemaChange.Unicode.Number
import SchemaChange.Unicode.Spans
import SchemaChange.Unicode.Uppercase
import SchemaChange.Unicode.WhiteSpace
import SchemaChange.ValueList
import SchemaChange.Proofs.Unfinished
import SchemaChange.Proofs.CallSequence
import SchemaChange.Proofs.Account
import SchemaChange.Proofs.LowerCase
import SchemaChange.Proofs.NameOrder
import SchemaChange.Proofs.WellFormed
import SchemaChange.Proofs.Batch
import SchemaChange.Proofs.Variation
import SchemaChange.Proofs.ColumnVariation
import SchemaChange.Proofs.StatementVariation
import SchemaChange.Proofs.StepVariation
import SchemaChange.Proofs.CaseChange
import SchemaChange.Proofs.LineEnds
import SchemaChange.Proofs.Endpoint
import SchemaChange.Proofs.SourceOrder
import SchemaChange.Proofs.Separator
import SchemaChange.Proofs.OneLine
import SchemaChange.Proofs.Unreadable
import SchemaChange.Proofs.Token
import SchemaChange.Proofs.WrittenValue
import SchemaChange.Proofs.Clauses
import SchemaChange.Proofs.Definition
import SchemaChange.Proofs.JsonScalar
import SchemaChange.Proofs.JsonText
import SchemaChange.Proofs.JsonReading
import SchemaChange.Proofs.ArrayToken
import SchemaChange.Proofs.Diversion
import SchemaChange.Proofs.UsualColumn
import SchemaChange.Proofs.UsualBody
import SchemaChange.Proofs.CodePointSet
import SchemaChange.Proofs.CaseMapping
import SchemaChange.Proofs.UpperCase
import SchemaChange.Proofs.TypeKeyword
import SchemaChange.Proofs.Collecting
import SchemaChange.Proofs.NumeralText
import SchemaChange.Proofs.TokenForm
import SchemaChange.Proofs.NumberText
import SchemaChange.Proofs.Overflow
import SchemaChange.Proofs.Rounding
import SchemaChange.Proofs.Scaling
import SchemaChange.Proofs.SentValue
import SchemaChange.Proofs.CommentLines
import SchemaChange.Proofs.Summary
import SchemaChange.Proofs.LowerSearch
import SchemaChange.Proofs.Judgement
import SchemaChange.Proofs.WholeWord
