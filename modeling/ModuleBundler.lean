import ModuleBundler.Adaptation.Construct
import ModuleBundler.Adaptation.Program
import ModuleBundler.Adaptation.Replacement
import ModuleBundler.Adaptation.Source
import ModuleBundler.Adaptation.Temporary
import ModuleBundler.Build.Bundle
import ModuleBundler.Build.Discovery
import ModuleBundler.Build.Failure
import ModuleBundler.Build.Resolver
import ModuleBundler.Build.SourceMapComment
import ModuleBundler.Build.Transformer
import ModuleBundler.CommandLine.Options
import ModuleBundler.CommandLine.Run
import ModuleBundler.Config.Basic
import ModuleBundler.Config.Failure
import ModuleBundler.Config.Load
import ModuleBundler.Config.Overrides
import ModuleBundler.Config.Shape
import ModuleBundler.Decimal.Double
import ModuleBundler.Decimal.Literal
import ModuleBundler.Files.Fault
import ModuleBundler.Files.Path
import ModuleBundler.Files.Tree
import ModuleBundler.Loader.Bundled
import ModuleBundler.Loader.Heap
import ModuleBundler.Loader.Registry
import ModuleBundler.Loader.Run
import ModuleBundler.Loader.Session
import ModuleBundler.Loader.Value
import ModuleBundler.LoaderForm.Basic
import ModuleBundler.LoaderForm.Edit
import ModuleBundler.LoaderForm.LocalExport
import ModuleBundler.LoaderForm.Request
import ModuleBundler.Main
import ModuleBundler.Module.Component
import ModuleBundler.Module.Cycle
import ModuleBundler.Module.Graph
import ModuleBundler.Module.Id
import ModuleBundler.Project.Bundling
import ModuleBundler.Project.Directory
import ModuleBundler.Proofs.Appearance
import ModuleBundler.Proofs.Build.AdaptedFault
import ModuleBundler.Proofs.Build.Assembly
import ModuleBundler.Proofs.Build.BreadthFirst
import ModuleBundler.Proofs.Build.Closed
import ModuleBundler.Proofs.Build.Discovery
import ModuleBundler.Proofs.Build.DroppedTokens
import ModuleBundler.Proofs.Build.Emission
import ModuleBundler.Proofs.Build.FirstFailure
import ModuleBundler.Proofs.Build.Footprint
import ModuleBundler.Proofs.Build.LineStyle
import ModuleBundler.Proofs.Build.Lookup
import ModuleBundler.Proofs.Build.Reading
import ModuleBundler.Proofs.Build.Rebuild
import ModuleBundler.Proofs.Build.Requests
import ModuleBundler.Proofs.Build.Resolution
import ModuleBundler.Proofs.Build.SourceMapComment
import ModuleBundler.Proofs.Build.SourceMapRounds
import ModuleBundler.Proofs.Config.Precedence
import ModuleBundler.Proofs.Files.Canonical
import ModuleBundler.Proofs.Files.Tree
import ModuleBundler.Proofs.Loader.Bundled
import ModuleBundler.Proofs.Loader.Coherence
import ModuleBundler.Proofs.Loader.Confinement
import ModuleBundler.Proofs.Loader.Definition
import ModuleBundler.Proofs.Loader.Effect
import ModuleBundler.Proofs.Loader.Event
import ModuleBundler.Proofs.Loader.Forwarding
import ModuleBundler.Proofs.Loader.Growth
import ModuleBundler.Proofs.Loader.Identity
import ModuleBundler.Proofs.Loader.Isolation
import ModuleBundler.Proofs.Loader.Linked
import ModuleBundler.Proofs.Loader.Liveness
import ModuleBundler.Proofs.Loader.Point
import ModuleBundler.Proofs.Loader.RequiresFirst
import ModuleBundler.Proofs.Loader.State
import ModuleBundler.Proofs.Loader.Step
import ModuleBundler.Proofs.Loader.Termination
import ModuleBundler.Proofs.Loader.Traversal
import ModuleBundler.Proofs.LoaderForm.Boundary
import ModuleBundler.Proofs.LoaderForm.Closing
import ModuleBundler.Proofs.LoaderForm.Editing
import ModuleBundler.Proofs.LoaderForm.Fixpoint
import ModuleBundler.Proofs.LoaderForm.Header
import ModuleBundler.Proofs.LoaderForm.Hygiene
import ModuleBundler.Proofs.LoaderForm.Layout
import ModuleBundler.Proofs.LoaderForm.Piece
import ModuleBundler.Proofs.LoaderForm.Publishing
import ModuleBundler.Proofs.LoaderForm.Reference
import ModuleBundler.Proofs.LoaderForm.Requiring
import ModuleBundler.Proofs.LoaderForm.Rewriting
import ModuleBundler.Proofs.Module.BreadthFirst
import ModuleBundler.Proofs.Module.Component
import ModuleBundler.Proofs.Module.DepthFirst
import ModuleBundler.Proofs.Module.Order
import ModuleBundler.Proofs.Module.Spelling
import ModuleBundler.Proofs.Project.Confinement
import ModuleBundler.Proofs.Project.Directory
import ModuleBundler.Proofs.Project.Entry
import ModuleBundler.Proofs.Project.Warning
import ModuleBundler.Proofs.Syntax.Progress
import ModuleBundler.Proofs.Syntax.Property
import ModuleBundler.Proofs.Syntax.Reading
import ModuleBundler.Proofs.Syntax.Scope
import ModuleBundler.Proofs.Text.Position
import ModuleBundler.Proofs.Text.Quoted
import ModuleBundler.Proofs.Text.Split
import ModuleBundler.Syntax.Diagnostic
import ModuleBundler.Syntax.EarlyError
import ModuleBundler.Syntax.Fault
import ModuleBundler.Syntax.Grammar.Class
import ModuleBundler.Syntax.Grammar.Expression
import ModuleBundler.Syntax.Grammar.Function
import ModuleBundler.Syntax.Grammar.Module
import ModuleBundler.Syntax.Grammar.Pattern
import ModuleBundler.Syntax.Grammar.Program
import ModuleBundler.Syntax.Grammar.Statement
import ModuleBundler.Syntax.Grammar.Word
import ModuleBundler.Syntax.Lexer
import ModuleBundler.Syntax.Parse
import ModuleBundler.Syntax.Scope
import ModuleBundler.Syntax.Span
import ModuleBundler.Syntax.Token
import ModuleBundler.Syntax.Tree
import ModuleBundler.Target.Basic
import ModuleBundler.Target.Feature
import ModuleBundler.Target.Version
import ModuleBundler.Text.CharClass
import ModuleBundler.Text.CharTable.Alphabetic
import ModuleBundler.Text.CharTable.GraphemeExtend
import ModuleBundler.Text.CharTable.IdContinueOnly
import ModuleBundler.Text.CharTable.IdStart
import ModuleBundler.Text.CharTable.Invisible
import ModuleBundler.Text.CharTable.Numeric
import ModuleBundler.Text.LineEnd
import ModuleBundler.Text.Position
import ModuleBundler.Text.Quoted
import ModuleBundler.Text.Shown
import ModuleBundler.Text.Slashed
import ModuleBundler.Text.Split
import ModuleBundler.Text.Trim
import ModuleBundler.Toml.Document
import ModuleBundler.Toml.Moment
import ModuleBundler.Toml.Number
import ModuleBundler.Toml.Parse
import ModuleBundler.Toml.Quoted
import ModuleBundler.Toml.Reader
import ModuleBundler.Toml.Table
import ModuleBundler.Toml.Value
import ModuleBundler.Written.Expression
import ModuleBundler.Written.Function
import ModuleBundler.Written.Literal
import ModuleBundler.Written.Place
import ModuleBundler.Written.Program
import ModuleBundler.Written.Statement
