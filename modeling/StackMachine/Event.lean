-- SUMMARY: The events that a run reports, and the records that a log keeps of them.
import StackMachine.Log
import StackMachine.Machine

/-!
# The events of a run

What a run reports about itself: that it starts, each instruction that it carries out, and how it
ends. Reporting is apart from running: the events are computed from the same steps, and no step
depends on them.
-/

namespace StackMachine

inductive Event where
  /-- A run of a program of so many instructions starts on a stack of the given size. -/
  | runStart (instructions stack : Nat)
  /-- The instruction at `pc` is about to take effect on a stack of size `depth`. -/
  | dispatch (pc : Nat) (instruction : Instruction) (depth : Nat)
  | trap (trap : Trap)
  /-- The run reached the end of the program after so many steps. -/
  | runComplete (steps stack : Nat)
  deriving DecidableEq, Repr

namespace Event

def level : Event → Level
  | runStart _ _ | runComplete _ _ => .debug
  | dispatch _ _ _ => .trace
  | trap _ => .warn

def message : Event → String
  | runStart _ _ => "run start"
  | dispatch _ _ _ => "dispatch"
  | trap _ => "trap"
  | runComplete _ _ => "run complete"

/-- The fields of an event, in the order in which a log line gives them. -/
def fields : Event → List (String × String)
  | runStart instructions stack => [("instructions", instructions.repr), ("stack", stack.repr)]
  | dispatch pc ins depth =>
    [("pc", pc.repr), ("instruction", ins.render), ("depth", depth.repr)]
  | trap t => [("pc", t.pc.repr), ("opcode", t.opcode.mnemonic), ("fault", t.fault.message)]
  | runComplete steps stack => [("steps", steps.repr), ("stack", stack.repr)]

/-- The part of a log that the events of runs belong to. -/
def target : String := "svm_core::vm::interpreter"

def record (e : Event) : Log.Record :=
  { level := e.level, target, message := e.message, fields := e.fields }

end Event

namespace Machine

/-- Whether the step limit lets the machine carry out another instruction. -/
def belowLimit (m : Machine) : Bool :=
  m.config.stepLimit.all (m.steps < ·)

/-- Append to `log` the events of at most `fuel` steps from the present state. -/
def traceFrom (program : Program) (fuel : Nat) (log : Array Event) (m : Machine) : Array Event :=
  match program[m.pc]? with
  | none => log.push (.runComplete m.steps m.stack.size)
  | some ins =>
    match fuel with
    | 0 => log
    | fuel + 1 =>
      let log := if m.belowLimit then log.push (.dispatch m.pc ins m.stack.size) else log
      match step program.size ins m with
      | .ok _ m' => traceFrom program fuel log m'
      | .error fault _ => log.push (.trap { pc := m.pc, opcode := ins.opcode, fault })

/-- The events of at most `fuel` steps of a new run. -/
def trace (program : Program) (fuel : Nat) (m : Machine) : Array Event :=
  traceFrom program fuel #[.runStart program.size m.stack.size] m.start

end Machine

end StackMachine
