import TapeMachine.Main
import TapeMachine.Proofs.Machine.Ensemble
import TapeMachine.Proofs.Machine.Preservation
import TapeMachine.Proofs.Tape.Infinite
import TapeMachine.Viewer.Draw
import TapeMachine.Proofs.Source.Rollback
import TapeMachine.Proofs.Token.Cursor
import TapeMachine.Proofs.Token.Tiling
import TapeMachine.Proofs.Source.Streaming
import TapeMachine.Proofs.Token.Alike
import TapeMachine.Proofs.Token.Renaming
import TapeMachine.Proofs.Code.Streaming
import TapeMachine.Proofs.Source.Decoding
import TapeMachine.Proofs.Machine.StackBound
import TapeMachine.Proofs.Code.StackHeight
import TapeMachine.Proofs.Machine.Progress
import TapeMachine.Proofs.Viewer.TimeTravel
import TapeMachine.Proofs.Tape.Seated
import TapeMachine.Proofs.Machine.Footprint
import TapeMachine.Proofs.Machine.Schedule
import TapeMachine.Proofs.Machine.Reachable
import TapeMachine.Proofs.Tape.Lifetime
import TapeMachine.Proofs.Machine.StepCount
import TapeMachine.Proofs.Syntax.Relocation
import TapeMachine.Proofs.Grammar.Relocation
import TapeMachine.Proofs.Code.Layout
import TapeMachine.Proofs.Code.Jump
import TapeMachine.Proofs.Code.Onward
import TapeMachine.Proofs.Machine.Termination
import TapeMachine.Proofs.Grammar.Labels
import TapeMachine.Proofs.Code.Origin
import TapeMachine.Proofs.Code.SourceRow
import TapeMachine.Proofs.Machine.Travel
import TapeMachine.Proofs.Grammar.Printing
import TapeMachine.Proofs.Grammar.Diagnosis
import TapeMachine.Proofs.Command.Stream
import TapeMachine.Proofs.Command.Modes
import TapeMachine.Proofs.Viewer.JumpToEnd
import TapeMachine.Proofs.Machine.Fault
import TapeMachine.Proofs.Names.Scoping
import TapeMachine.Proofs.Token.Exactness
import TapeMachine.Proofs.Source.Unreading
import TapeMachine.Proofs.Pane.Window
import TapeMachine.Proofs.Pane.Division
import TapeMachine.Proofs.Grammar.Progress
import TapeMachine.Proofs.Token.Counting
import TapeMachine.Proofs.Code.Listing
