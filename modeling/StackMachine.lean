import StackMachine.Main
import StackMachine.Proofs.Grammar
import StackMachine.Proofs.RoundTrip
import StackMachine.Proofs.Action
import StackMachine.Proofs.Run
import StackMachine.Proofs.StepLimit
import StackMachine.Proofs.StackView
import StackMachine.Proofs.Conditions
import StackMachine.Proofs.Reach
import StackMachine.Proofs.Effect
import StackMachine.Proofs.Trap
import StackMachine.Proofs.Typing
import StackMachine.Proofs.Frame
import StackMachine.Proofs.Linking
import StackMachine.Proofs.Malformed
import StackMachine.Proofs.Normalization
import StackMachine.Proofs.Printing
import StackMachine.Proofs.Session
import StackMachine.Proofs.Writes
import StackMachine.Proofs.History
import StackMachine.Proofs.Footprint
import StackMachine.Proofs.Disassembly
import StackMachine.Proofs.Tracing
import StackMachine.Proofs.Arithmetic
import StackMachine.Proofs.Postfix
import StackMachine.Proofs.Cause
import StackMachine.Proofs.Insertion
import StackMachine.Proofs.Delivery
import StackMachine.Proofs.Running
import StackMachine.Proofs.Filtering
import StackMachine.Proofs.Logging
import StackMachine.Proofs.Operands
import StackMachine.Proofs.Forward
import StackMachine.Proofs.Truncation
import StackMachine.Proofs.Division
import StackMachine.Proofs.BoundedSink
import StackMachine.Proofs.Cursor
