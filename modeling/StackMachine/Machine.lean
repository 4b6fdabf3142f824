-- SUMMARY: The state of the machine, the effect of one instruction, and runs of so many steps.
import StackMachine.Arithmetic
import StackMachine.Instruction
import StackMachine.Memory
import StackMachine.Output
import StackMachine.Stack

/-!
# The machine

The state of the machine and the effect of one instruction. An effect either succeeds or faults, and a
fault keeps the state that it left behind. A run repeats such steps until the program counter leaves
the program or a fault traps it. It may go on for ever, so it is given a number of steps to take, and
says whether it ended within them.

Steps are counted without a bound. A counter of 64 bits holds the same number as long as a run takes
fewer than `2^64` steps, and only such runs are meant where a count is shown.
-/

namespace StackMachine

-- ---------------------------------------------------------------------------
-- State
-- ---------------------------------------------------------------------------

/-- The limits of a machine. Without a step limit a run may take any number of steps. -/
structure Config where
  maxStack : Nat := 1024
  stepLimit : Option Nat := none
  deriving DecidableEq, Repr

structure Machine where
  config : Config
  stack : Stack
  memory : Memory
  output : Output
  /-- The index of the next instruction. -/
  pc : Nat
  /-- The number of instructions carried out since the run began, exact below `2^64`. -/
  steps : Nat
  deriving DecidableEq, Repr

namespace Machine

/-- A machine that has not run yet. -/
def new (config : Config) (memory : Memory) (output : Output) : Machine :=
  { config, stack := Stack.empty config.maxStack, memory, output, pc := 0, steps := 0 }

/-- A new machine over the memory of an old one. -/
def renew (m : Machine) (config : Config) (output : Output) : Machine :=
  new config m.memory output

/-- Store into a cell from outside a run. -/
def poke (m : Machine) (index value : Int32) : Except Fault Machine := do
  return { m with memory := ← m.memory.store index value }

-- ---------------------------------------------------------------------------
-- Actions
-- ---------------------------------------------------------------------------

/-- A change of the machine that may fault. -/
abbrev Action := EStateM Fault Machine

/-- Let the stack of the machine act. -/
def onStack {α : Type} (action : Stack.Action α) : Action α := fun m =>
  match m with
  | ⟨config, stack, memory, output, pc, steps⟩ =>
    match action stack with
    | .ok a stack => .ok a ⟨config, stack, memory, output, pc, steps⟩
    | .error fault stack => .error fault ⟨config, stack, memory, output, pc, steps⟩

/-- Fail with the fault of a computation that does not touch the machine, or go on with its value. -/
def check {α : Type} (result : Except Fault α) : Action α := fun m =>
  match result with
  | .ok a => .ok a m
  | .error fault => .error fault m

def loadCell (index : Int32) : Action Int32 := fun m =>
  check (m.memory.load index) m

def storeCell (index value : Int32) : Action Unit := fun m =>
  match m with
  | ⟨config, stack, memory, output, pc, steps⟩ =>
    match memory.store index value with
    | .ok memory => .ok () ⟨config, stack, memory, output, pc, steps⟩
    | .error fault => .error fault ⟨config, stack, memory, output, pc, steps⟩

/-- Print a line. What the output took before it failed stays there. -/
def printLine (line : String) : Action Unit := fun m =>
  match m with
  | ⟨config, stack, memory, output, pc, steps⟩ =>
    match Output.println line output with
    | .ok _ output => .ok () ⟨config, stack, memory, output, pc, steps⟩
    | .error cause output =>
      .error (.outputFailed cause) ⟨config, stack, memory, output, pc, steps⟩

/-- Go on at an instruction of a program of the given length, or at its end. -/
def jumpTo (length : Nat) (target : Int32) : Action Unit := fun m =>
  if 0 ≤ target.toInt ∧ target.toInt.toNat ≤ length then
    .ok () { m with pc := target.toInt.toNat }
  else
    .error (.invalidJump target.toInt length) m

/-- Count the next instruction, unless the step limit is reached. -/
def countStep : Action Unit := fun m =>
  match m.config.stepLimit with
  | some limit =>
    if m.steps < limit then .ok () { m with steps := m.steps + 1 }
    else .error (.stepLimitExceeded limit) m
  | none => .ok () { m with steps := m.steps + 1 }

/-- Move to the following instruction. -/
def advance : Action Unit := fun m =>
  .ok () { m with pc := m.pc + 1 }

end Machine

-- ---------------------------------------------------------------------------
-- Operands
-- ---------------------------------------------------------------------------

namespace Instruction

/-- The operand of an instruction that needs one. -/
def requireOperand (ins : Instruction) : Except Fault Value :=
  match ins.operand with
  | some v => .ok v
  | none => .error .missingOperand

/-- The operand of an instruction that needs an integer: a memory index or a jump target. -/
def requireInteger (ins : Instruction) : Except Fault Int32 :=
  match ins.operand with
  | some (.integer n) => .ok n
  | some v => .error (Stack.mismatch .integer v)
  | none => .error .missingOperand

end Instruction

-- ---------------------------------------------------------------------------
-- Instructions
-- ---------------------------------------------------------------------------

namespace Machine

/-- The effect of an instruction in a program of the given length. Operands are checked before the
stack is touched, and the upper of two values is the right operand. -/
def execute (length : Nat) (ins : Instruction) : Action Unit :=
  match ins.opcode with
  | .push => do
    let v ← check ins.requireOperand
    onStack (Stack.push v)
  | .arith op => do
    let b ← onStack Stack.popInteger
    let a ← onStack Stack.popInteger
    let n ← check (op.eval a b)
    onStack (Stack.push (.integer n))
  | .logic op => do
    let b ← onStack Stack.popBoolean
    let a ← onStack Stack.popBoolean
    onStack (Stack.push (.boolean (op.eval a b)))
  | .compare op => do
    let b ← onStack Stack.popInteger
    let a ← onStack Stack.popInteger
    onStack (Stack.push (.boolean (op.eval a b)))
  | .real op => do
    let a ← onStack Stack.popInteger
    onStack (Stack.push (.integer (op.eval a)))
  | .load => do
    let index ← check ins.requireInteger
    let n ← loadCell index
    onStack (Stack.push (.integer n))
  | .store => do
    let index ← check ins.requireInteger
    let n ← onStack Stack.popInteger
    storeCell index n
  | .jump => do
    let target ← check ins.requireInteger
    jumpTo length target
  | .jumpIf condition => do
    let target ← check ins.requireInteger
    let b ← onStack Stack.popBoolean
    if b = condition then jumpTo length target
  | .print => do
    let v ← onStack Stack.pop
    printLine v.render

/-- One step of a run: move on, count, and carry out the instruction. -/
def step (length : Nat) (ins : Instruction) : Action Unit := do
  advance
  countStep
  execute length ins

-- ---------------------------------------------------------------------------
-- Runs
-- ---------------------------------------------------------------------------

/-- How far a run has come: it reached the end of the program, a trap stopped it, or it is still
going. -/
inductive Progress where
  | finished (m : Machine)
  | trapped (trap : Trap) (m : Machine)
  | running (m : Machine)

/-- Take at most `fuel` steps from the present state. -/
def resume (program : Program) (fuel : Nat) (m : Machine) : Progress :=
  match program[m.pc]? with
  | none => .finished m
  | some ins =>
    match fuel with
    | 0 => .running m
    | fuel + 1 =>
      let pc := m.pc
      match step program.size ins m with
      | .ok _ m => resume program fuel m
      | .error fault m => .trapped { pc, opcode := ins.opcode, fault } m

theorem resume_of_end {program : Program} {m : Machine} (fuel : Nat)
    (h : program[m.pc]? = none) : resume program fuel m = .finished m := by
  unfold resume
  simp only [h]

theorem resume_zero {program : Program} {m : Machine} {ins : Instruction}
    (h : program[m.pc]? = some ins) : resume program 0 m = .running m := by
  unfold resume
  simp only [h]

theorem resume_succ_of_ok {program : Program} {m m' : Machine} {ins : Instruction} (fuel : Nat)
    (h : program[m.pc]? = some ins) (hs : step program.size ins m = .ok () m') :
    resume program (fuel + 1) m = resume program fuel m' := by
  rw [resume]
  simp only [h, hs]

theorem resume_succ_of_error {program : Program} {m m' : Machine} {ins : Instruction}
    {fault : Fault} (fuel : Nat)
    (h : program[m.pc]? = some ins) (hs : step program.size ins m = .error fault m') :
    resume program (fuel + 1) m = .trapped { pc := m.pc, opcode := ins.opcode, fault } m' := by
  rw [resume]
  simp only [h, hs]

/-- The state in which a run begins: the stack, the memory and the output are kept. -/
def start (m : Machine) : Machine :=
  { m with pc := 0, steps := 0 }

/-- Take at most `fuel` steps of a new run. -/
def run (program : Program) (fuel : Nat) (m : Machine) : Progress :=
  resume program fuel m.start

end Machine

-- ---------------------------------------------------------------------------
-- Inspection
-- ---------------------------------------------------------------------------

def Config.inspect (c : Config) : String :=
  Inspect.record "VmConfig"
    [("max_stack_size", c.maxStack.repr),
      ("step_limit", Inspect.option (c.stepLimit.map Nat.repr))]

def Machine.inspect (m : Machine) : String :=
  Inspect.record "Interpreter"
    [("config", m.config.inspect), ("stack", m.stack.inspect), ("memory", m.memory.inspect),
      ("output", m.output.inspect), ("pc", m.pc.repr), ("steps", m.steps.repr)]

end StackMachine
