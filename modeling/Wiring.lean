import Wiring.Comment.Annotated
import Wiring.Main
import Wiring.Proofs.Alias
import Wiring.Proofs.Binding
import Wiring.Proofs.Comment
import Wiring.Proofs.Declaration.Written
import Wiring.Proofs.Directive
import Wiring.Proofs.Documentation
import Wiring.Proofs.Endpoints
import Wiring.Proofs.Go.Docs
import Wiring.Proofs.Go.ReadBack
import Wiring.Proofs.Grammar
import Wiring.Proofs.Identifier
import Wiring.Proofs.KeyedSet.Index
import Wiring.Proofs.Module.Line
import Wiring.Proofs.Module.Nearest
import Wiring.Proofs.Plan
import Wiring.Proofs.Registry.CanonicalPath
import Wiring.Proofs.Registry.NameBack
import Wiring.Proofs.Registry.Repeats
import Wiring.Proofs.Registry.UnitOrder
import Wiring.Proofs.Resolver.Candidates
import Wiring.Proofs.Resolver.Completeness
import Wiring.Proofs.Resolver.Descent
import Wiring.Proofs.Resolver.Failure
import Wiring.Proofs.Resolver.Graph
import Wiring.Proofs.Resolver.Replay
import Wiring.Proofs.Resolver.Strict
import Wiring.Proofs.Resolver.Targets
import Wiring.Proofs.Scan.Pattern
import Wiring.Proofs.Session
import Wiring.Settings.Codec
