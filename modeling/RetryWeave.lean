import RetryWeave.BuildConstraint
import RetryWeave.Command.Flags
import RetryWeave.Command.Invocation
import RetryWeave.Command.Outcome
import RetryWeave.Command.Run
import RetryWeave.Command.Session
import RetryWeave.Config
import RetryWeave.Diagnostic
import RetryWeave.Digest.NameId
import RetryWeave.Digest.Sha1
import RetryWeave.Directive
import RetryWeave.DocComment.Blocks
import RetryWeave.DocComment.Reformat
import RetryWeave.EnvFile
import RetryWeave.Expansion.Expand
import RetryWeave.Expansion.Loop
import RetryWeave.Expansion.Owner
import RetryWeave.Expansion.Plan
import RetryWeave.Expansion.Splice
import RetryWeave.Failure
import RetryWeave.Files.AtomicWrite
import RetryWeave.Files.Disk
import RetryWeave.Files.Memory
import RetryWeave.Files.Scan
import RetryWeave.Files.Walk
import RetryWeave.Layout.BuildLines
import RetryWeave.Layout.Columns
import RetryWeave.Layout.Exprs
import RetryWeave.Layout.File
import RetryWeave.Layout.Imports
import RetryWeave.Layout.Margin
import RetryWeave.Layout.Page
import RetryWeave.Layout.Stmts
import RetryWeave.Layout.Words
import RetryWeave.Log
import RetryWeave.Main
import RetryWeave.Naming
import RetryWeave.Path
import RetryWeave.Proofs.Retry.Contract
import RetryWeave.Report
import RetryWeave.Retry
import RetryWeave.Source.Position
import RetryWeave.SourceMap
import RetryWeave.Syntax.BareLiteral
import RetryWeave.Syntax.Extent
import RetryWeave.Syntax.Grammar.Basic
import RetryWeave.Syntax.Grammar.Decls
import RetryWeave.Syntax.Grammar.Exprs
import RetryWeave.Syntax.Grammar.File
import RetryWeave.Syntax.Grammar.Stmts
import RetryWeave.Syntax.Grammar.Types
import RetryWeave.Syntax.Lexer
import RetryWeave.Syntax.Literal
import RetryWeave.Syntax.Node
import RetryWeave.Syntax.Token
import RetryWeave.Syntax.Tree
import RetryWeave.Text.Bytes
import RetryWeave.Text.EditDistance
import RetryWeave.Text.Glob
import RetryWeave.Text.Integer
import RetryWeave.Text.Quoted
import RetryWeave.Text.Rune
import RetryWeave.Unicode.Class
import RetryWeave.Unicode.Digit
import RetryWeave.Unicode.Letter
import RetryWeave.Unicode.Printable
import RetryWeave.Unicode.Punct
import RetryWeave.Unicode.Upper
import RetryWeave.Yaml.Cursor
import RetryWeave.Yaml.Fields
import RetryWeave.Yaml.Lexer
import RetryWeave.Yaml.Meaning
import RetryWeave.Yaml.Node
import RetryWeave.Yaml.Scalars
import RetryWeave.Yaml.Stream
import RetryWeave.Proofs.Naming.Fresh
import RetryWeave.Proofs.Loop.Build
import RetryWeave.Proofs.Naming.Shape
import RetryWeave.Proofs.Loop.Refinement
import RetryWeave.Proofs.Syntax.Occurrence
import RetryWeave.Proofs.Naming.Hygiene
import RetryWeave.Proofs.Loop.Scope
import RetryWeave.Proofs.Syntax.Extents
import RetryWeave.Proofs.Syntax.CommentGroups
import RetryWeave.Proofs.Syntax.Reading
import RetryWeave.Proofs.Syntax.Placement
import RetryWeave.Proofs.Splice.Weave
import RetryWeave.Proofs.Splice.Sites
import RetryWeave.Proofs.Splice.Frame
import RetryWeave.Proofs.Splice.Substitution
import RetryWeave.Proofs.Expansion.Stages
import RetryWeave.Proofs.Expansion.Rerun
import RetryWeave.Proofs.Expansion.Gate
import RetryWeave.Proofs.SourceMap.Lines
import RetryWeave.Proofs.SourceMap.Correctness
import RetryWeave.Proofs.Command.Processing
import RetryWeave.Proofs.Command.Schedule
import RetryWeave.Proofs.Text.Pieces
import RetryWeave.Proofs.Text.Integer
import RetryWeave.Proofs.Files.Places
import RetryWeave.Proofs.Files.Paths
import RetryWeave.Proofs.Files.Replacing
import RetryWeave.Proofs.Files.LinkFree
import RetryWeave.Proofs.Files.Scanning
import RetryWeave.Proofs.Command.Effects
import RetryWeave.Proofs.Command.Requests
import RetryWeave.Proofs.Command.Prepared
import RetryWeave.Proofs.Command.OutputTree
import RetryWeave.Proofs.Files.Hierarchy
import RetryWeave.Proofs.Files.Storing
import RetryWeave.Proofs.Files.Operations
import RetryWeave.Proofs.Files.Recall
import RetryWeave.Proofs.Files.TreeShape
import RetryWeave.Proofs.Files.Listing
import RetryWeave.Proofs.Text.Order
import RetryWeave.Proofs.Files.PathOrder
import RetryWeave.Proofs.Files.Skipping
import RetryWeave.Proofs.Files.Layouts
import RetryWeave.Proofs.Files.WalkOrder
import RetryWeave.Proofs.Files.Selection
import RetryWeave.Proofs.Syntax.SignedLiterals
import RetryWeave.Proofs.Loop.Budget
import RetryWeave.Proofs.Syntax.Documented
import RetryWeave.Proofs.Expansion.Groups
import RetryWeave.Proofs.Expansion.Rulings
import RetryWeave.Proofs.Expansion.Configured
import RetryWeave.Proofs.Command.ExitCodes
import RetryWeave.Proofs.Text.Quoting
import RetryWeave.Proofs.Loop.Message
import RetryWeave.Proofs.Naming.Stability
import RetryWeave.Proofs.Loop.Validation
import RetryWeave.Proofs.Loop.Async
import RetryWeave.Proofs.Text.Glob
import RetryWeave.Proofs.Files.Exclusion
import RetryWeave.Proofs.Files.Pruning
import RetryWeave.Proofs.Files.Extending
import RetryWeave.Proofs.Files.Atomicity
import RetryWeave.Proofs.Text.Fields
import RetryWeave.Proofs.Expansion.Directives
import RetryWeave.Proofs.Naming.Search
