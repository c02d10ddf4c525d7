import DtoGen.Abort
import DtoGen.Artifact.Basic
import DtoGen.Artifact.Dtos
import DtoGen.Artifact.Express
import DtoGen.Artifact.HandlerTypes
import DtoGen.Artifact.Handlers
import DtoGen.Artifact.Mappers
import DtoGen.Artifact.Readme
import DtoGen.Artifact.Route
import DtoGen.Artifact.Types
import DtoGen.Assoc
import DtoGen.Binary64.Basic
import DtoGen.Binary64.Decimal
import DtoGen.Closure
import DtoGen.Command.Arguments
import DtoGen.Command.Basic
import DtoGen.Comment
import DtoGen.Condition.Basic
import DtoGen.Condition.Chain
import DtoGen.Discrimination
import DtoGen.Document.Basic
import DtoGen.Document.Json
import DtoGen.Document.Time
import DtoGen.Document.Yaml.Cursor
import DtoGen.Document.Yaml.Document
import DtoGen.Document.Yaml.Graph
import DtoGen.Document.Yaml.Merge
import DtoGen.Document.Yaml.Node
import DtoGen.Document.Yaml.Scalar
import DtoGen.Document.Yaml.Tag
import DtoGen.Document.Yaml.Token
import DtoGen.Document.Yaml.Value
import DtoGen.Files.Basic
import DtoGen.Files.Path
import DtoGen.Files.Tree
import DtoGen.Generate
import DtoGen.Journal
import DtoGen.Layout
import DtoGen.Literal
import DtoGen.Main
import DtoGen.Mapping.Branch
import DtoGen.Mapping.Conversion
import DtoGen.Mapping.Locals
import DtoGen.Mapping.Record
import DtoGen.Mapping.Union
import DtoGen.Mention
import DtoGen.Naming
import DtoGen.Notice
import DtoGen.Options.Basic
import DtoGen.Options.Read
import DtoGen.Role
import DtoGen.Service.Basic
import DtoGen.Service.Check
import DtoGen.Service.Checked
import DtoGen.Service.Decode
import DtoGen.Service.Dump
import DtoGen.Service.Fields
import DtoGen.Service.Index
import DtoGen.Service.Load
import DtoGen.Service.Scalars
import DtoGen.Service.Usage
import DtoGen.Service.Value
import DtoGen.Text.Base64
import DtoGen.Text.Blank
import DtoGen.Text.Cased
import DtoGen.Text.Letter
import DtoGen.Text.Lower
import DtoGen.Text.Numeral
import DtoGen.Text.Printable
import DtoGen.Text.Quoted
import DtoGen.Text.Ranges
import DtoGen.Text.Surrogate
import DtoGen.Text.Upper
import DtoGen.Text.Wrap
import DtoGen.Types.Record
import DtoGen.Types.Value
import DtoGen.Proofs.Selection
import DtoGen.Proofs.Datum
import DtoGen.Proofs.Instance
import DtoGen.Proofs.Presence
import DtoGen.Proofs.Constant
import DtoGen.Proofs.Execution
import DtoGen.Proofs.Collection
import DtoGen.Proofs.UnionMapper
import DtoGen.Proofs.RecordBranches
import DtoGen.Proofs.Dispatch
import DtoGen.Proofs.Spelling
import DtoGen.Proofs.Defects
import DtoGen.Proofs.Meets
import DtoGen.Proofs.Reachability
import DtoGen.Proofs.Calls
import DtoGen.Proofs.UnionCalls
import DtoGen.Proofs.Exports
import DtoGen.Proofs.Artifacts
import DtoGen.Proofs.MapperNames
import DtoGen.Proofs.Rendering
import DtoGen.Proofs.Ordering
import DtoGen.Proofs.Reordering
import DtoGen.Proofs.Reading
import DtoGen.Proofs.Representation
import DtoGen.Proofs.RoundTrip
import DtoGen.Proofs.Switch
import DtoGen.Proofs.Leftovers
import DtoGen.Proofs.Merging
import DtoGen.Proofs.ObjectTests
import DtoGen.Proofs.Mentions
import DtoGen.Proofs.Accounts
import DtoGen.Proofs.WrittenCalls
import DtoGen.Proofs.FirstWords
import DtoGen.Proofs.Steadiness
import DtoGen.Proofs.Definitions
import DtoGen.Proofs.CompleteMappers
import DtoGen.Proofs.Imports
import DtoGen.Proofs.Decoding
import DtoGen.Proofs.Words
import DtoGen.Proofs.Clashes
import DtoGen.Proofs.Respacing
import DtoGen.Proofs.Remarks
import DtoGen.Proofs.Comments
import DtoGen.Proofs.Lookups
import DtoGen.Proofs.References
import DtoGen.Proofs.SmallestSelection
import DtoGen.Proofs.Clauses
import DtoGen.Proofs.Truth
import DtoGen.Proofs.Precedence
import DtoGen.Proofs.Chains
import DtoGen.Proofs.Worklist
import DtoGen.Proofs.Variables
import DtoGen.Proofs.Placement
import DtoGen.Proofs.Nesting
import DtoGen.Proofs.Separation
import DtoGen.Proofs.Keys
import DtoGen.Proofs.OpenRecords
import DtoGen.Proofs.LocalNames
import DtoGen.Proofs.GuardNames
import DtoGen.Proofs.DocComments
import DtoGen.Proofs.OpenTerms
import DtoGen.Proofs.Traversal
import DtoGen.Proofs.GreedyBound
import DtoGen.Proofs.Substitution
import DtoGen.Proofs.QuotedText
import DtoGen.Proofs.Splitting
