import NormalAlgorithm.File.Tree
import NormalAlgorithm.Main
import NormalAlgorithm.Proofs.Algorithm.BinaryToUnary
import NormalAlgorithm.Proofs.Algorithm.Doubling
import NormalAlgorithm.Proofs.CommandLine.Algorithms
import NormalAlgorithm.Proofs.CommandLine.Check
import NormalAlgorithm.Proofs.CommandLine.Run
import NormalAlgorithm.Proofs.CommandLine.Verdict
import NormalAlgorithm.Proofs.Document.Chain
import NormalAlgorithm.Proofs.Document.Escape
import NormalAlgorithm.Proofs.Document.Listing
import NormalAlgorithm.Proofs.Document.Resolve
import NormalAlgorithm.Proofs.Listing.Append
import NormalAlgorithm.Proofs.Listing.File
import NormalAlgorithm.Proofs.Listing.Render
import NormalAlgorithm.Proofs.Runner.Bounded
import NormalAlgorithm.Proofs.Runner.Derivation
import NormalAlgorithm.Proofs.Runner.Extension
import NormalAlgorithm.Proofs.Runner.Format
import NormalAlgorithm.Proofs.Runner.Journal
import NormalAlgorithm.Proofs.Runner.Progress
import NormalAlgorithm.Proofs.Runner.Replay
import NormalAlgorithm.Proofs.Runner.Shadow
import NormalAlgorithm.Proofs.Runner.Shrinking
import NormalAlgorithm.Proofs.Runner.Stall
import NormalAlgorithm.Proofs.Runner.Status
import NormalAlgorithm.Proofs.Session.Interleaving
import NormalAlgorithm.Proofs.Session.Ruleset
import NormalAlgorithm.Proofs.Session.Terminal
import NormalAlgorithm.Proofs.Statement.Compile
import NormalAlgorithm.Proofs.Statement.Pattern
import NormalAlgorithm.Session.Execute
