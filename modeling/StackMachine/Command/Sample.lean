-- SUMMARY: The sample programs that the command can write.
import StackMachine.Instruction

/-!
# Sample programs

Small programs that the command can write to a file, one for each part of the machine.
-/

namespace StackMachine.Command

inductive Sample where
  | arithmetic
  | countdown
  | memory
  | trig
  deriving DecidableEq, Repr

namespace Sample

/-- The word that selects a sample. -/
def word : Sample → String
  | arithmetic => "arithmetic"
  | countdown => "countdown"
  | memory => "memory"
  | trig => "trig"

/-- The name under which a sample is reported. -/
def name : Sample → String
  | arithmetic => "Arithmetic"
  | countdown => "Countdown"
  | memory => "Memory"
  | trig => "Trig"

def all : List Sample := [arithmetic, countdown, memory, trig]

def ofWord? (s : String) : Option Sample :=
  all.find? (·.word = s)

/-- An instruction without an operand. -/
def bare (opcode : Opcode) : Instruction := { opcode }

/-- An instruction with an integer operand. -/
def withInteger (opcode : Opcode) (n : Int32) : Instruction :=
  { opcode, operand := some (.integer n) }

/-- An instruction with a text operand. -/
def withText (opcode : Opcode) (s : String) : Instruction :=
  { opcode, operand := some (.text s) }

def program : Sample → Program
  | arithmetic =>
    #[withInteger .push 5, withInteger .push 6, bare (.arith .mul),
      withInteger .push 2, withInteger .push 3, bare (.arith .add),
      bare (.arith .sub), bare .print,
      withInteger .push 7, withInteger .push 2, bare (.arith .div), bare .print,
      withInteger .push (-7), withInteger .push 3, bare (.arith .mod), bare .print]
  | countdown =>
    #[withInteger .push 5, withInteger .store 0,
      -- the head of the loop: leave it when the counter is not above zero
      withInteger .load 0, withInteger .push 0, bare (.compare .greater),
      withInteger (.jumpIf false) 13,
      withInteger .load 0, bare .print,
      withInteger .load 0, withInteger .push 1, bare (.arith .sub), withInteger .store 0,
      withInteger .jump 2,
      withText .push "liftoff", bare .print]
  | memory =>
    #[withInteger .push 42, withInteger .store 3, withInteger .load 3, bare .print]
  | trig =>
    #[withInteger .push 2, bare (.real .sqrt), bare .print,
      withInteger .push 1024, bare (.real .log2), bare .print,
      withInteger .push 2, bare (.real .sin), bare .print]

end Sample

end StackMachine.Command
