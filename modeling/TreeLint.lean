import TreeLint.Main
import TreeLint.Session
import TreeLint.Tree.Display
import TreeLint.Tree.Outline
import TreeLint.Proofs.Comments
import TreeLint.Proofs.Findings
import TreeLint.Proofs.Formatting
import TreeLint.Proofs.Lossless
import TreeLint.Proofs.Positions
import TreeLint.Proofs.RenamedReports
import TreeLint.Proofs.RenamedText
import TreeLint.Proofs.Replacement
import TreeLint.Proofs.Resolution
import TreeLint.Proofs.Scopes
import TreeLint.Proofs.Stability
import TreeLint.Proofs.Staleness
import TreeLint.Proofs.Suppression
import TreeLint.Proofs.Termination
import TreeLint.Proofs.UncommentedReports
import TreeLint.Proofs.LineNumbers
import TreeLint.Proofs.SourceOrder
import TreeLint.Proofs.Lowered
import TreeLint.Proofs.LeadingTrivia
import TreeLint.Proofs.Traversal
import TreeLint.Proofs.Unwrapping
import TreeLint.Proofs.Reached
import TreeLint.Command.Run
