import Cobol.CommandLine.Command
import Cobol.Main
import Cobol.Proofs.Block.Composition
import Cobol.Proofs.Escape
import Cobol.Proofs.Expression.Compute
import Cobol.Proofs.Normalization
import Cobol.Proofs.ProgramLayout
import Cobol.Proofs.Stop
import Cobol.Proofs.Tree.Sharing
import Cobol.Proofs.Literal
import Cobol.Proofs.Display
import Cobol.Proofs.Block.Skipping
import Cobol.Proofs.Label
import Cobol.Proofs.Forward
import Cobol.Proofs.Frame
import Cobol.Proofs.Lockstep
import Cobol.Proofs.Termination
import Cobol.Proofs.Reading
import Cobol.Proofs.SourceFile
import Cobol.Proofs.Json.RoundTrip
import Cobol.Proofs.Declaration.Layout
import Cobol.Proofs.FileTree
import Cobol.Proofs.CommandLine.Delivery
import Cobol.Proofs.Move
import Cobol.Proofs.Condition
import Cobol.Proofs.Arithmetic
import Cobol.Proofs.Segmentation
import Cobol.Proofs.Block.Written
import Cobol.Proofs.Repetition
import Cobol.Proofs.Block.Chain
import Cobol.Proofs.Subject
import Cobol.Proofs.StoreHistory
import Cobol.Proofs.NumberField
import Cobol.Proofs.Comparison
import Cobol.Proofs.Splitting
import Cobol.Proofs.Block.Conservation
