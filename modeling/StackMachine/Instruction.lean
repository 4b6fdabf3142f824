-- SUMMARY: Instructions and programs.
import StackMachine.Opcode
import StackMachine.Value

/-!
# Instructions and programs

An instruction is an opcode with an operand or none. Any opcode may carry any operand: whether the
operand fits is decided when the instruction is executed.
-/

namespace StackMachine

structure Instruction where
  opcode : Opcode
  operand : Option Value := none
  deriving DecidableEq, Repr

/-- A program is run from its first instruction; jumps name instructions by index. -/
abbrev Program := Array Instruction

namespace Instruction

/-- The instruction in a listing: its mnemonic and, after a space, its operand. -/
def render (ins : Instruction) : String :=
  match ins.operand with
  | none => ins.opcode.mnemonic
  | some v => ins.opcode.mnemonic ++ " " ++ v.renderOperand

def inspect (ins : Instruction) : String :=
  Inspect.record "Instruction"
    [("opcode", ins.opcode.name), ("operand", Inspect.option (ins.operand.map Value.inspect))]

/-- Whether the operand that the opcode needs is absent. -/
def lacksOperand (ins : Instruction) : Bool :=
  ins.opcode.requiresOperand && ins.operand.isNone

end Instruction

end StackMachine
