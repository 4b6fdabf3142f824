-- SUMMARY: Writing a program to a file.
import StackMachine.Bytecode.Format
import StackMachine.Instruction
import StackMachine.Text.Utf8

/-!
# Encoding a program

A program is written instruction by instruction after the header. The number of instructions and the
length of each text are words of 32 bits, and a program that needs more is refused.
-/

namespace StackMachine.Bytecode

/-- A count that does not fit in a word: what was counted, and how many there were. -/
structure LengthOverflow where
  what : String
  length : Nat
  deriving DecidableEq, Repr

namespace LengthOverflow

def message (e : LengthOverflow) : String :=
  e.what ++ " length " ++ e.length.repr ++ " does not fit in a u32 length prefix"

def inspect (e : LengthOverflow) : String :=
  Inspect.record "LengthOverflow" [("what", Text.quote e.what), ("len", e.length.repr)]

end LengthOverflow

/-- The bytes of a count, if it fits in a word. -/
def encodeLength (what : String) (length : Nat) : Except LengthOverflow Bytes :=
  if length < wordBound then .ok (wordBytes length) else .error { what, length }

/-- The tag of an operand and its payload. -/
def encodeOperand : Option Value → Except LengthOverflow Bytes
  | none => .ok [tagNone]
  | some (.integer n) => .ok (tagInteger :: wordBytes n.toUInt32.toNat)
  | some (.text s) => do
    let length ← encodeLength "text operand" (Text.utf8 s).size
    return tagText :: length ++ (Text.utf8 s).toList
  | some (.boolean b) => .ok [tagBoolean, if b then 1 else 0]

def encodeInstruction (ins : Instruction) : Except LengthOverflow Bytes := do
  let operand ← encodeOperand ins.operand
  return ins.opcode.byte :: operand

/-- The magic, the version and the reserved byte. -/
def preamble : Bytes :=
  magic ++ [majorVersion, 0, 0, 0]

/-- The file of a program. -/
def encode (program : Program) : Except LengthOverflow Bytes := do
  let count ← encodeLength "program" program.size
  let body ← program.toList.mapM encodeInstruction
  return preamble ++ count ++ body.flatten

end StackMachine.Bytecode
