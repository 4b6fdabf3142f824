-- SUMMARY: The outputs of the machine, among them the sinks of a host that may fail.
import StackMachine.Fault
import StackMachine.Text.Utf8

/-!
# Where printed lines go

Printing appends a line and a newline to an output. A buffer and the standard output take every line,
a silent output drops them, and a writer passes the bytes on to a sink of the host. The sink may fail at
any line and in any way. The standard output is taken not to fail: a host to which its failures matter
passes it as a sink.
-/

namespace StackMachine

-- ---------------------------------------------------------------------------
-- Sinks
-- ---------------------------------------------------------------------------

/-- What a sink does with a line: it takes all of it, or it takes some of its bytes and then fails. -/
inductive Turn where
  | takes
  | fails (taken : Nat) (cause : WriteError)
  deriving DecidableEq, Repr

/-- A receiver of bytes on the host's side. The next lines fare as its `turns` say, which may be in any
way: whatever a host does with the lines of a run that ends, some turns say it. After the last turn the
sink goes by its room. With `room := some n` it takes `n` more bytes and then refuses, for the cause
`failure`, or without a cause by taking no byte of what it is given. -/
structure Sink where
  room : Option Nat := none
  failure : Option WriteError := none
  received : Array UInt8 := #[]
  turns : List Turn := []
  deriving DecidableEq, Repr

namespace Sink

/-- The error of a write that does not fit. -/
def refusal (sink : Sink) : WriteError :=
  sink.failure.getD .writeZero

/-- Write bytes in order, by the room. When they do not all fit, those that do are kept. -/
def write (bytes : Array UInt8) : EStateM WriteError Sink Unit := fun sink =>
  match sink.room with
  | none => .ok () { sink with received := sink.received ++ bytes }
  | some room =>
    if bytes.size ≤ room then
      .ok () { sink with room := some (room - bytes.size), received := sink.received ++ bytes }
    else
      .error sink.refusal
        { sink with room := some 0, received := sink.received ++ bytes.take room }

/-- Write the bytes of a line, by the next turn if there is one. A line that was taken to its last byte
did not fail. -/
def writeLine (bytes : Array UInt8) : EStateM WriteError Sink Unit := fun sink =>
  match sink.turns with
  | [] => write bytes sink
  | .takes :: turns => .ok () { sink with received := sink.received ++ bytes, turns }
  | .fails taken cause :: turns =>
    .error cause
      { sink with received := sink.received ++ bytes.take (min taken (bytes.size - 1)), turns }

end Sink

-- ---------------------------------------------------------------------------
-- Outputs
-- ---------------------------------------------------------------------------

inductive Output where
  /-- Captures the text printed so far. -/
  | buffer (text : String)
  /-- Drops every line. -/
  | silent
  /-- The standard output, with the text written to it so far. -/
  | stdout (text : String)
  /-- Hands the bytes of each line to a sink. -/
  | writer (sink : Sink)
  deriving DecidableEq, Repr

namespace Output

/-- Print a line, followed by a newline. -/
def println (line : String) : EStateM WriteError Output Unit := fun output =>
  match output with
  | buffer text => .ok () (buffer (text ++ line ++ "\n"))
  | silent => .ok () silent
  | stdout text => .ok () (stdout (text ++ line ++ "\n"))
  | writer sink =>
    match Sink.writeLine (Text.utf8 (line ++ "\n")) sink with
    | .ok _ sink => .ok () (writer sink)
    | .error cause sink => .error cause (writer sink)

/-- The text that a buffer has captured. The other outputs capture none. -/
def captured : Output → String
  | buffer text => text
  | silent | stdout _ | writer _ => ""

/-- The text that has appeared on the standard output. -/
def shown : Output → String
  | stdout text => text
  | buffer _ | silent | writer _ => ""

/-- The bytes that have left through the standard output or a writer. -/
def sent? : Output → Option (Array UInt8)
  | buffer _ | silent => none
  | stdout text => some (Text.utf8 text)
  | writer sink => some sink.received

def inspect : Output → String
  | buffer text => Inspect.wrapped "Buffer" (Text.quote text)
  | silent => "Silent"
  | stdout _ => "Stdout"
  | writer _ => Inspect.wrapped "Writer" ".."

end Output

end StackMachine
