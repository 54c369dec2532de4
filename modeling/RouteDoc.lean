import RouteDoc.Analysis
import RouteDoc.CommandLine.Arguments
import RouteDoc.CommandLine.Run
import RouteDoc.Compilation
import RouteDoc.Decimal.Nearest
import RouteDoc.Decimal.Shortest
import RouteDoc.Decimal.Text
import RouteDoc.Doc.Comment
import RouteDoc.Doc.Line
import RouteDoc.Doc.Lines
import RouteDoc.Document.Basic
import RouteDoc.Document.Build
import RouteDoc.Document.Json
import RouteDoc.Error
import RouteDoc.Handler.Call
import RouteDoc.Handler.Rules
import RouteDoc.Handler.Walk
import RouteDoc.Http.Media
import RouteDoc.Http.Method
import RouteDoc.Http.Status
import RouteDoc.Index.Basic
import RouteDoc.Index.Definition
import RouteDoc.Index.Imports
import RouteDoc.Index.Scope
import RouteDoc.Json.Basic
import RouteDoc.Json.Render
import RouteDoc.Main
import RouteDoc.Options
import RouteDoc.Project.Files
import RouteDoc.Project.Sources
import RouteDoc.Report
import RouteDoc.Route.Field
import RouteDoc.Route.Graph
import RouteDoc.Route.Merge
import RouteDoc.Router.Discovery
import RouteDoc.Router.Mounts
import RouteDoc.Router.Path
import RouteDoc.Router.Registration
import RouteDoc.Schema.Basic
import RouteDoc.Schema.Components
import RouteDoc.Serial.Attributes
import RouteDoc.Serial.Rename
import RouteDoc.SortedMap
import RouteDoc.Source.Module
import RouteDoc.Source.Grammar
import RouteDoc.Source.Grammar.Basic
import RouteDoc.Source.Grammar.Expressions
import RouteDoc.Source.Grammar.Items
import RouteDoc.Source.Grammar.Patterns
import RouteDoc.Source.Grammar.Reader
import RouteDoc.Source.Grammar.Types
import RouteDoc.Source.Lexer
import RouteDoc.Source.Token
import RouteDoc.Source.Tree
import RouteDoc.Types.Primitive
import RouteDoc.Text.Basic
import RouteDoc.Text.Case
import RouteDoc.Text.CodePoints
import RouteDoc.Text.Names
import RouteDoc.Text.Quoted
import RouteDoc.Types.Reference
import RouteDoc.Types.Token
import RouteDoc.Yaml.Render
import RouteDoc.Yaml.Scalar
import RouteDoc.Proofs.Schema.Mentions
import RouteDoc.Proofs.Schema.Provision
import RouteDoc.Proofs.Document.References
import RouteDoc.Proofs.Route.Precedence
import RouteDoc.Proofs.Document.Operations
import RouteDoc.Proofs.Compilation.Routes
import RouteDoc.Proofs.Index.Types
import RouteDoc.Proofs.Schema.Ownership
import RouteDoc.Proofs.Route.Interleaving
import RouteDoc.Proofs.Router.Path
import RouteDoc.Proofs.Document.Assembly
import RouteDoc.Proofs.Document.Parameters
import RouteDoc.Proofs.Route.Parameters
import RouteDoc.Proofs.Document.Unambiguous
import RouteDoc.Proofs.Handler.Fields
import RouteDoc.Proofs.Doc.Fields
import RouteDoc.Proofs.Document.Filling
import RouteDoc.Proofs.Compilation.Inference
import RouteDoc.Proofs.Compilation.LifeCycle
import RouteDoc.Proofs.Document.Correspondence
import RouteDoc.Proofs.Compilation.ModuleOrder
import RouteDoc.Proofs.Router.Outlining
import RouteDoc.Proofs.Lists
import RouteDoc.Proofs.Types.Union
import RouteDoc.Proofs.Route.Responses
import RouteDoc.Proofs.Route.Repetition
import RouteDoc.Proofs.Index.Shadowing
import RouteDoc.Proofs.Index.Declared
import RouteDoc.Proofs.Index.ShortNames
import RouteDoc.Proofs.Index.Imports
import RouteDoc.Proofs.Index.Indexed
import RouteDoc.Proofs.Schema.Defined
import RouteDoc.Proofs.Compilation.Indexed
import RouteDoc.Proofs.Handler.Scoping
import RouteDoc.Proofs.Types.Resolved
import RouteDoc.Proofs.Handler.Walk
import RouteDoc.Proofs.Handler.Types
import RouteDoc.Proofs.Compilation.Recorded
import RouteDoc.Proofs.Handler.CallObject
import RouteDoc.Proofs.Router.OwnerChain
import RouteDoc.Proofs.Doc.Accounts
import RouteDoc.Proofs.Doc.Sections
import RouteDoc.Proofs.Text.Trimming
import RouteDoc.Proofs.Text.Number
import RouteDoc.Proofs.Doc.Indentation
import RouteDoc.Proofs.Doc.Words
import RouteDoc.Proofs.Schema.Flattening
import RouteDoc.Proofs.Serial.FieldNames
import RouteDoc.Proofs.Doc.Responses
import RouteDoc.Proofs.Serial.Recovery
import RouteDoc.Proofs.Handler.Replies
import RouteDoc.Proofs.Compilation.MediaTypes
import RouteDoc.Proofs.Handler.Aliases
import RouteDoc.Proofs.Schema.Termination
import RouteDoc.Proofs.Document.Mounting
import RouteDoc.Proofs.Types.UnionTree
