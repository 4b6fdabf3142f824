-- SUMMARY: The opcodes with their bytes, mnemonics and families.

/-!
# Opcodes

The operations of the machine, grouped by what they do to the stack. Every opcode has one byte in a
program file, one mnemonic in listings and one name in inspections.
-/

namespace StackMachine

-- ---------------------------------------------------------------------------
-- Operator families
-- ---------------------------------------------------------------------------

/-- Operators on two integers that give an integer. -/
inductive ArithOp where
  | add
  | sub
  | mul
  | div
  | mod
  deriving DecidableEq, Repr

/-- Operators on two booleans that give a boolean. -/
inductive LogicOp where
  | bitAnd
  | bitOr
  | bitXor
  | and
  | or
  deriving DecidableEq, Repr

/-- Comparisons of two integers. -/
inductive CompareOp where
  | greater
  | less
  deriving DecidableEq, Repr

/-- Functions of one integer that go through the reals. -/
inductive RealOp where
  | log2
  | log10
  | ln
  | sqrt
  | sin
  | cos
  | tan
  deriving DecidableEq, Repr

/-- An operation of the machine. `jumpIf b` jumps when the boolean it pops is `b`. -/
inductive Opcode where
  | push
  | arith (op : ArithOp)
  | logic (op : LogicOp)
  | compare (op : CompareOp)
  | real (op : RealOp)
  | load
  | store
  | jump
  | jumpIf (condition : Bool)
  | print
  deriving DecidableEq, Repr

-- ---------------------------------------------------------------------------
-- Bytes, mnemonics, names
-- ---------------------------------------------------------------------------

namespace Opcode

/-- The byte of an opcode in a program file. The high half is its family. -/
def byte : Opcode → UInt8
  | push => 0x01
  | arith .add => 0x10
  | arith .sub => 0x11
  | arith .mul => 0x12
  | arith .div => 0x13
  | arith .mod => 0x14
  | logic .bitAnd => 0x20
  | logic .bitOr => 0x21
  | logic .bitXor => 0x22
  | logic .and => 0x23
  | logic .or => 0x24
  | compare .greater => 0x30
  | compare .less => 0x31
  | real .log2 => 0x40
  | real .log10 => 0x41
  | real .ln => 0x42
  | real .sqrt => 0x43
  | real .sin => 0x44
  | real .cos => 0x45
  | real .tan => 0x46
  | load => 0x50
  | store => 0x51
  | jump => 0x60
  | jumpIf false => 0x61
  | jumpIf true => 0x62
  | print => 0x70

/-- The short name of an opcode in listings and messages. -/
def mnemonic : Opcode → String
  | push => "push"
  | arith .add => "add"
  | arith .sub => "sub"
  | arith .mul => "mul"
  | arith .div => "div"
  | arith .mod => "mod"
  | logic .bitAnd => "band"
  | logic .bitOr => "bor"
  | logic .bitXor => "bxor"
  | logic .and => "and"
  | logic .or => "or"
  | compare .greater => "gt"
  | compare .less => "lt"
  | real .log2 => "log2"
  | real .log10 => "log10"
  | real .ln => "ln"
  | real .sqrt => "sqrt"
  | real .sin => "sin"
  | real .cos => "cos"
  | real .tan => "tan"
  | load => "load"
  | store => "store"
  | jump => "jmp"
  | jumpIf false => "jmpf"
  | jumpIf true => "jmpt"
  | print => "print"

/-- The full name of an opcode in inspections. -/
def name : Opcode → String
  | push => "Push"
  | arith .add => "Add"
  | arith .sub => "Sub"
  | arith .mul => "Mul"
  | arith .div => "Div"
  | arith .mod => "Mod"
  | logic .bitAnd => "BitwiseAnd"
  | logic .bitOr => "BitwiseOr"
  | logic .bitXor => "BitwiseXor"
  | logic .and => "LogicalAnd"
  | logic .or => "LogicalOr"
  | compare .greater => "GreaterThan"
  | compare .less => "LessThan"
  | real .log2 => "LogBaseTwo"
  | real .log10 => "LogBaseTen"
  | real .ln => "Log"
  | real .sqrt => "Sqrt"
  | real .sin => "Sin"
  | real .cos => "Cos"
  | real .tan => "Tan"
  | load => "Load"
  | store => "Store"
  | jump => "Jump"
  | jumpIf false => "JumpIfFalse"
  | jumpIf true => "JumpIfTrue"
  | print => "Print"

/-- Whether executing the opcode reads its instruction's operand. -/
def requiresOperand : Opcode → Bool
  | push | load | store | jump | jumpIf _ => true
  | arith _ | logic _ | compare _ | real _ | print => false

-- ---------------------------------------------------------------------------
-- Finding an opcode
-- ---------------------------------------------------------------------------

/-- Every opcode, in the order of their bytes. -/
def all : List Opcode :=
  [push,
    arith .add, arith .sub, arith .mul, arith .div, arith .mod,
    logic .bitAnd, logic .bitOr, logic .bitXor, logic .and, logic .or,
    compare .greater, compare .less,
    real .log2, real .log10, real .ln, real .sqrt, real .sin, real .cos, real .tan,
    load, store, jump, jumpIf false, jumpIf true, print]

theorem mem_all (op : Opcode) : op ∈ all := by
  cases op with
  | arith op => cases op <;> decide
  | logic op => cases op <;> decide
  | compare op => cases op <;> decide
  | real op => cases op <;> decide
  | jumpIf condition => cases condition <;> decide
  | _ => decide

/-- The opcode that a byte of a program file stands for. -/
def ofByte? : UInt8 → Option Opcode
  | 0x01 => some push
  | 0x10 => some (arith .add)
  | 0x11 => some (arith .sub)
  | 0x12 => some (arith .mul)
  | 0x13 => some (arith .div)
  | 0x14 => some (arith .mod)
  | 0x20 => some (logic .bitAnd)
  | 0x21 => some (logic .bitOr)
  | 0x22 => some (logic .bitXor)
  | 0x23 => some (logic .and)
  | 0x24 => some (logic .or)
  | 0x30 => some (compare .greater)
  | 0x31 => some (compare .less)
  | 0x40 => some (real .log2)
  | 0x41 => some (real .log10)
  | 0x42 => some (real .ln)
  | 0x43 => some (real .sqrt)
  | 0x44 => some (real .sin)
  | 0x45 => some (real .cos)
  | 0x46 => some (real .tan)
  | 0x50 => some load
  | 0x51 => some store
  | 0x60 => some jump
  | 0x61 => some (jumpIf false)
  | 0x62 => some (jumpIf true)
  | 0x70 => some print
  | _ => none

/-- The opcode with a given mnemonic. -/
def ofMnemonic? (s : String) : Option Opcode :=
  all.find? (·.mnemonic = s)

-- The table of bytes and that of opcodes are inverse to each other.

theorem ofByte?_byte (op : Opcode) : ofByte? op.byte = some op := by
  have hall : ∀ op ∈ all, ofByte? op.byte = some op := by decide +kernel
  exact hall op (mem_all op)

theorem byte_of_ofByte? {b : UInt8} {op : Opcode} (h : ofByte? b = some op) : op.byte = b := by
  unfold ofByte? at h
  split at h
  all_goals cases h
  all_goals rfl

end Opcode

end StackMachine
