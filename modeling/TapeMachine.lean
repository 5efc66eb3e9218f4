import TapeMachine.Assembly.Operation
import TapeMachine.Interpreter
import TapeMachine.Machine.Operation
import TapeMachine.Main
import TapeMachine.Program.Parser.Operation
import TapeMachine.Program.Source
import TapeMachine.Proofs.Acceptance
import TapeMachine.Proofs.Afresh
import TapeMachine.Proofs.AllOrNothing
import TapeMachine.Proofs.AnyUse
import TapeMachine.Proofs.Caret
import TapeMachine.Proofs.Composition
import TapeMachine.Proofs.Configured
import TapeMachine.Proofs.Declarations
import TapeMachine.Proofs.Decoding
import TapeMachine.Proofs.Drawing
import TapeMachine.Proofs.Endless
import TapeMachine.Proofs.Foreseen
import TapeMachine.Proofs.GivenLimit
import TapeMachine.Proofs.HeadCell
import TapeMachine.Proofs.Heeded
import TapeMachine.Proofs.History
import TapeMachine.Proofs.Labels
import TapeMachine.Proofs.LastLine
import TapeMachine.Proofs.Layers
import TapeMachine.Proofs.Layout
import TapeMachine.Proofs.Loading
import TapeMachine.Proofs.Patience
import TapeMachine.Proofs.Precedence
import TapeMachine.Proofs.Progress
import TapeMachine.Proofs.Quoting
import TapeMachine.Proofs.Retold
import TapeMachine.Proofs.RoundTrip
import TapeMachine.Proofs.Routine
import TapeMachine.Proofs.StepLimit
import TapeMachine.Proofs.TokenOperations
import TapeMachine.Proofs.Trace
import TapeMachine.Source.Program
import TapeMachine.Token.Cursor.Operation
