import TraefikUpgrade.CommandLine.Arguments
import TraefikUpgrade.CommandLine.Footprint
import TraefikUpgrade.CommandLine.Run
import TraefikUpgrade.Config.Layers
import TraefikUpgrade.Config.Settings
import TraefikUpgrade.Conversion.Annotations
import TraefikUpgrade.Conversion.Batch
import TraefikUpgrade.Conversion.IngressRoute
import TraefikUpgrade.Conversion.Middleware
import TraefikUpgrade.Conversion.RemovedOption
import TraefikUpgrade.Decimal.Binary
import TraefikUpgrade.Decimal.Shortest
import TraefikUpgrade.FileSystem.Path
import TraefikUpgrade.FileSystem.Tree
import TraefikUpgrade.Main
import TraefikUpgrade.Net.Address
import TraefikUpgrade.Proofs.CommandLine.Conversions
import TraefikUpgrade.Proofs.Config.Cascade
import TraefikUpgrade.Proofs.Config.Merging
import TraefikUpgrade.Proofs.Conversion.Batches
import TraefikUpgrade.Proofs.Conversion.Blocks
import TraefikUpgrade.Proofs.Conversion.Edits
import TraefikUpgrade.Proofs.Conversion.Failures
import TraefikUpgrade.Proofs.Conversion.KeptRules
import TraefikUpgrade.Proofs.Conversion.Losses
import TraefikUpgrade.Proofs.Conversion.Modes
import TraefikUpgrade.Proofs.Conversion.RouteEdits
import TraefikUpgrade.Proofs.FileSystem.Ancestors
import TraefikUpgrade.Proofs.FileSystem.Closure
import TraefikUpgrade.Proofs.FileSystem.Files
import TraefikUpgrade.Proofs.FileSystem.Paths
import TraefikUpgrade.Proofs.FileSystem.Walks
import TraefikUpgrade.Proofs.Net.Addresses
import TraefikUpgrade.Proofs.Regex.Confinement
import TraefikUpgrade.Proofs.Regex.Items
import TraefikUpgrade.Proofs.Regex.Lexemes
import TraefikUpgrade.Proofs.Regex.Locality
import TraefikUpgrade.Proofs.Regex.Matching
import TraefikUpgrade.Proofs.Regex.Members
import TraefikUpgrade.Proofs.Regex.Moves
import TraefikUpgrade.Proofs.Regex.Reading
import TraefikUpgrade.Proofs.Regex.Sets
import TraefikUpgrade.Proofs.Resource.Canonical
import TraefikUpgrade.Proofs.Resource.Identity
import TraefikUpgrade.Proofs.Resource.Obtained
import TraefikUpgrade.Proofs.Resource.Parts
import TraefikUpgrade.Proofs.Resource.RoundTrip
import TraefikUpgrade.Proofs.Rule.Braces
import TraefikUpgrade.Proofs.Rule.ClientAddresses
import TraefikUpgrade.Proofs.Rule.Compiling
import TraefikUpgrade.Proofs.Rule.Expansion
import TraefikUpgrade.Proofs.Rule.Fixpoint
import TraefikUpgrade.Proofs.Rule.Grammar
import TraefikUpgrade.Proofs.Rule.Groups
import TraefikUpgrade.Proofs.Rule.Layout
import TraefikUpgrade.Proofs.Rule.Lexing
import TraefikUpgrade.Proofs.Rule.Literals
import TraefikUpgrade.Proofs.Rule.Meaning
import TraefikUpgrade.Proofs.Rule.Phrase
import TraefikUpgrade.Proofs.Rule.Places
import TraefikUpgrade.Proofs.Rule.Plain
import TraefikUpgrade.Proofs.Rule.Printing
import TraefikUpgrade.Proofs.Rule.Refinement
import TraefikUpgrade.Proofs.Rule.Rejection
import TraefikUpgrade.Proofs.Rule.Scan
import TraefikUpgrade.Proofs.Rule.TemplateMatches
import TraefikUpgrade.Proofs.Rule.TemplateText
import TraefikUpgrade.Proofs.Rule.Validation
import TraefikUpgrade.Proofs.Store.Account
import TraefikUpgrade.Proofs.Store.Additions
import TraefikUpgrade.Proofs.Store.Catalogue
import TraefikUpgrade.Proofs.Store.DryRun
import TraefikUpgrade.Proofs.Store.Listings
import TraefikUpgrade.Proofs.Store.Locations
import TraefikUpgrade.Proofs.Store.ObjectPaths
import TraefikUpgrade.Proofs.Store.Refinement
import TraefikUpgrade.Proofs.Store.Represents
import TraefikUpgrade.Proofs.Store.Rerun
import TraefikUpgrade.Proofs.Store.Scope
import TraefikUpgrade.Proofs.Store.Selection
import TraefikUpgrade.Proofs.Store.Skipped
import TraefikUpgrade.Proofs.Traversal
import TraefikUpgrade.Proofs.Yaml.Equality
import TraefikUpgrade.Proofs.Yaml.Keys
import TraefikUpgrade.Proofs.Yaml.Records
import TraefikUpgrade.Regex.Ast
import TraefikUpgrade.Regex.Bracket
import TraefikUpgrade.Regex.Escape
import TraefikUpgrade.Regex.Limits
import TraefikUpgrade.Regex.Mode
import TraefikUpgrade.Regex.Parser
import TraefikUpgrade.Regex.Property
import TraefikUpgrade.Resource.Filtering
import TraefikUpgrade.Resource.GroupKind
import TraefikUpgrade.Resource.Manifest
import TraefikUpgrade.Resource.Metadata
import TraefikUpgrade.Resource.Routing
import TraefikUpgrade.Resource.Service
import TraefikUpgrade.Resource.Stream
import TraefikUpgrade.Resource.V2
import TraefikUpgrade.Resource.V3
import TraefikUpgrade.Rule.CallSite
import TraefikUpgrade.Rule.Check
import TraefikUpgrade.Rule.Dialect
import TraefikUpgrade.Rule.Expr
import TraefikUpgrade.Rule.Fault
import TraefikUpgrade.Rule.Lexer
import TraefikUpgrade.Rule.Matcher
import TraefikUpgrade.Rule.Parser
import TraefikUpgrade.Rule.Pattern
import TraefikUpgrade.Rule.Template
import TraefikUpgrade.Rule.Token
import TraefikUpgrade.Rule.Upgrade
import TraefikUpgrade.Store.Directory
import TraefikUpgrade.Store.Migration
import TraefikUpgrade.Store.Name
import TraefikUpgrade.Text.Cut
import TraefikUpgrade.Text.Dictionary
import TraefikUpgrade.Text.Hexadecimal
import TraefikUpgrade.Text.Quoted
import TraefikUpgrade.Toml.Document
import TraefikUpgrade.Toml.Quoted
import TraefikUpgrade.Unicode.Alphabetic
import TraefikUpgrade.Unicode.Numeric
import TraefikUpgrade.Unicode.Printable
import TraefikUpgrade.Unicode.Ranges
import TraefikUpgrade.Unicode.WhiteSpace
import TraefikUpgrade.Unicode.Word
import TraefikUpgrade.Yaml.Character
import TraefikUpgrade.Yaml.Document
import TraefikUpgrade.Yaml.Folding
import TraefikUpgrade.Yaml.Node
import TraefikUpgrade.Yaml.Node.Parser
import TraefikUpgrade.Yaml.Printer
import TraefikUpgrade.Yaml.Record
import TraefikUpgrade.Yaml.Scalar
import TraefikUpgrade.Yaml.Style
import TraefikUpgrade.Yaml.Token
import TraefikUpgrade.Yaml.Token.Block
import TraefikUpgrade.Yaml.Token.Lexer
import TraefikUpgrade.Yaml.Token.Plain
import TraefikUpgrade.Yaml.Token.Quoted
import TraefikUpgrade.Yaml.Token.Tag
import TraefikUpgrade.Yaml.Value
