import Schemata.Text.Identifier
import Schemata.Text.Quoted
import Schemata.Text.Layout
import Schemata.Text.Blank
import Schemata.Text.Printable
import Schemata.Text.Lower
import Schemata.Text.Digit
import Schemata.Number.Decimal
import Schemata.Number.Numeral
import Schemata.Number.Binary64
import Schemata.Value.Basic
import Schemata.Value.Key
import Schemata.Value.Spelling
import Schemata.Value.Literal
import Schemata.Value.Reader
import Schemata.Named
import Schemata.Path
import Schemata.Node.Kind
import Schemata.Error
import Schemata.Reference
import Schemata.Node.Basic
import Schemata.Node.Shape
import Schemata.Node.Flags
import Schemata.Node.Guard
import Schemata.Node.Reading
import Schemata.Node.Merge
import Schemata.Code.Basic
import Schemata.Code.Render
import Schemata.Failure
import Schemata.Code.Declarations
import Schemata.Options
import Schemata.Code.Listing
import Schemata.Rule.Form
import Schemata.Rule.Book
import Schemata.Rule.Builtin
import Schemata.Diagnostic
import Schemata.Writing.Basic
import Schemata.Writing.Primitive
import Schemata.Writing.Guarded
import Schemata.Writing.Node
import Schemata.Compiler
import Schemata.Session
import Schemata.Console.CellTable
import Schemata.Console.Cells
import Schemata.Console.Emoji.Flag
import Schemata.Console.Emoji.Person
import Schemata.Console.Emoji.Symbol
import Schemata.Console.Emoji
import Schemata.Console.Color
import Schemata.Console.Style
import Schemata.Console.Markup
import Schemata.Console.Layout
import Schemata.Console.Plain
import Schemata.CommandLine.Folder
import Schemata.CommandLine.Arguments
import Schemata.CommandLine.RuleListing
import Schemata.CommandLine.Run
import Schemata.Main
import Schemata.Proofs.Contract
import Schemata.Proofs.Traversal
import Schemata.Proofs.Closed
import Schemata.Proofs.Rules
import Schemata.Proofs.Parts
import Schemata.Proofs.Descriptions
import Schemata.Proofs.Reading
import Schemata.Proofs.Defects
import Schemata.Proofs.DeclarationOrder
import Schemata.Proofs.Depth
import Schemata.Proofs.PathErasure
import Schemata.Proofs.TwoRuns
import Schemata.Proofs.ContextFree
import Schemata.Proofs.SteadyReading
import Schemata.Proofs.GuardSpelling
import Schemata.Proofs.NodeSpelling
import Schemata.Proofs.Positions
import Schemata.Proofs.SpellingPairs
import Schemata.Proofs.Respelling
import Schemata.Proofs.Identifiers
import Schemata.Proofs.PathText
import Schemata.Proofs.Location
import Schemata.Proofs.NodePaths
import Schemata.Proofs.PartPaths
import Schemata.Proofs.RulePaths
import Schemata.Proofs.Lexing
import Schemata.Proofs.CodeText
import Schemata.Proofs.Fragments
import Schemata.Proofs.WellFormed
import Schemata.Proofs.Exports
import Schemata.Proofs.CutShort
import Schemata.Proofs.Switches
import Schemata.Proofs.InnerReading
import Schemata.Proofs.Levels
import Schemata.Proofs.Shown
import Schemata.Proofs.SupportedRules
import Schemata.Proofs.Notes
import Schemata.Proofs.Pieces
import Schemata.Proofs.Unions
import Schemata.Proofs.WrittenValues
import Schemata.Proofs.Pruning
import Schemata.Proofs.Forbidden
import Schemata.Proofs.NamedThings
import Schemata.Proofs.Sessions
import Schemata.Proofs.ImplicitPresence
import Schemata.Proofs.RegexLiterals
import Schemata.Proofs.Merging
import Schemata.Proofs.Slots
import Schemata.Proofs.Cutting
import Schemata.Proofs.FirstCase
import Schemata.Proofs.MissingBranches
import Schemata.Proofs.Numerals
import Schemata.Proofs.QuotedText
import Schemata.Proofs.LiteralReading
import Schemata.Proofs.MethodOrder
import Schemata.Proofs.ListedValues
import Schemata.Proofs.ReferenceText
import Schemata.Proofs.ReferenceAccess
import Schemata.Proofs.PropertyReading
import Schemata.Proofs.PropertyNames
import Schemata.Proofs.DeclarationRuns
import Schemata.Proofs.EntryOrder
import Schemata.Proofs.ReorderedReading
import Schemata.Proofs.RuleSuffixes
