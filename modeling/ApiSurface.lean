import ApiSurface.Api.TypeExpr
import ApiSurface.Api.Weight
import ApiSurface.Code.Argument
import ApiSurface.Code.Context
import ApiSurface.Code.Member
import ApiSurface.Code.Raising
import ApiSurface.Code.Synthesized
import ApiSurface.CommandLine.Options
import ApiSurface.CommandLine.Run
import ApiSurface.Comment.Block
import ApiSurface.Comment.Token
import ApiSurface.Comment.Wrap
import ApiSurface.CrossReference
import ApiSurface.Declaration
import ApiSurface.Description
import ApiSurface.Fault
import ApiSurface.Files.Path
import ApiSurface.Files.Tree
import ApiSurface.Generation
import ApiSurface.Identifier
import ApiSurface.Json.Reader
import ApiSurface.Lowering
import ApiSurface.Main
import ApiSurface.Number.Binary64
import ApiSurface.Number.Numeral
import ApiSurface.Number.Shortest
import ApiSurface.Proofs.Code.Agreement
import ApiSurface.Proofs.Code.Arguments
import ApiSurface.Proofs.Code.Bare
import ApiSurface.Proofs.Code.EnumValues
import ApiSurface.Proofs.Code.Faults
import ApiSurface.Proofs.Code.Options
import ApiSurface.Proofs.Code.Outline
import ApiSurface.Proofs.Code.Places
import ApiSurface.Proofs.Code.Raising
import ApiSurface.Proofs.Code.Signature
import ApiSurface.Proofs.CommandLine.Arguments
import ApiSurface.Proofs.CommandLine.Ending
import ApiSurface.Proofs.CommandLine.Groups
import ApiSurface.Proofs.CommandLine.Printing
import ApiSurface.Proofs.CommandLine.Untouched
import ApiSurface.Proofs.Comment.Breaks
import ApiSurface.Proofs.Comment.Layout
import ApiSurface.Proofs.Comment.Markup
import ApiSurface.Proofs.Comment.Nesting
import ApiSurface.Proofs.Comment.Prose
import ApiSurface.Proofs.Comment.Rendering
import ApiSurface.Proofs.Comment.Span
import ApiSurface.Proofs.Comment.Tokens
import ApiSurface.Proofs.Comment.Wrapping
import ApiSurface.Proofs.CrossReference.Markup
import ApiSurface.Proofs.CrossReference.Resolve
import ApiSurface.Proofs.Declaration
import ApiSurface.Proofs.Description.Image
import ApiSurface.Proofs.Description.Places
import ApiSurface.Proofs.Description.Reading
import ApiSurface.Proofs.Fallible
import ApiSurface.Proofs.Files.Writing
import ApiSurface.Proofs.Generation.Bound
import ApiSurface.Proofs.Generation.Closure
import ApiSurface.Proofs.Generation.Documentation
import ApiSurface.Proofs.Generation.Emission
import ApiSurface.Proofs.Generation.Faults
import ApiSurface.Proofs.Generation.FileNames
import ApiSurface.Proofs.Generation.Links
import ApiSurface.Proofs.Generation.Order
import ApiSurface.Proofs.Generation.Phases
import ApiSurface.Proofs.Generation.Resolution
import ApiSurface.Proofs.Generation.Strictness
import ApiSurface.Proofs.Generation.Undocumented
import ApiSurface.Proofs.Identifier.CapitalWords
import ApiSurface.Proofs.Identifier.ValueName
import ApiSurface.Proofs.Lookup
import ApiSurface.Proofs.Lowering.Arrays
import ApiSurface.Proofs.Lowering.Demand
import ApiSurface.Proofs.Lowering.Effect
import ApiSurface.Proofs.Lowering.Reference
import ApiSurface.Proofs.Lowering.Relocation
import ApiSurface.Proofs.Protocol.Attributes
import ApiSurface.Proofs.Protocol.Documents
import ApiSurface.Proofs.Protocol.Enums
import ApiSurface.Proofs.Protocol.Groups
import ApiSurface.Proofs.Protocol.Order
import ApiSurface.Proofs.Protocol.PropertyNames
import ApiSurface.Proofs.Protocol.References
import ApiSurface.Proofs.Protocol.Rendering
import ApiSurface.Proofs.Protocol.TypeCalls
import ApiSurface.Proofs.Protocol.TypeForms
import ApiSurface.Proofs.Protocol.TypeTexts
import ApiSurface.Proofs.Protocol.Unreported
import ApiSurface.Proofs.Registry.Atomic
import ApiSurface.Proofs.Registry.Calls
import ApiSurface.Proofs.Registry.CutShort
import ApiSurface.Proofs.Registry.Extension
import ApiSurface.Proofs.Registry.Faults
import ApiSurface.Proofs.Registry.Filing
import ApiSurface.Proofs.Registry.Grants
import ApiSurface.Proofs.Registry.Iteration
import ApiSurface.Proofs.Registry.Mirror
import ApiSurface.Proofs.Registry.Replies
import ApiSurface.Proofs.Registry.Reports
import ApiSurface.Proofs.Registry.Walk
import ApiSurface.Proofs.Registry.Yields
import ApiSurface.Proofs.Text.Case
import ApiSurface.Proofs.Text.Entities
import ApiSurface.Proofs.Text.Escape
import ApiSurface.Proofs.Text.Held
import ApiSurface.Proofs.Text.Literal
import ApiSurface.Proofs.Text.Runs
import ApiSurface.Proofs.Text.Unescaping
import ApiSurface.Protocol.Channel
import ApiSurface.Protocol.Item
import ApiSurface.Registry.Action
import ApiSurface.Registry.Basic
import ApiSurface.Registry.Plan
import ApiSurface.Registry.Store
import ApiSurface.Registry.Visit
import ApiSurface.Settings
import ApiSurface.SourceFile
import ApiSurface.Text.Blank
import ApiSurface.Text.Case
import ApiSurface.Text.CodePoint
import ApiSurface.Text.CodeRange
import ApiSurface.Text.Digit
import ApiSurface.Text.Encoding
import ApiSurface.Text.Escape
import ApiSurface.Text.Printable
import ApiSurface.Text.Quoted
import ApiSurface.Text.Replace
import ApiSurface.Text.Runs
import ApiSurface.Value.Basic
import ApiSurface.Value.Text
import ApiSurface.Yaml.BlockText
import ApiSurface.Yaml.Cursor
import ApiSurface.Yaml.Document
import ApiSurface.Yaml.Node
import ApiSurface.Yaml.Plain
import ApiSurface.Yaml.Quoted
import ApiSurface.Yaml.ReadFault
import ApiSurface.Yaml.Token
