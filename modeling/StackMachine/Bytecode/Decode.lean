-- SUMMARY: Reading a program from a file, and what may be wrong with it.
import StackMachine.Bytecode.Format
import StackMachine.Instruction
import StackMachine.Text.Utf8

/-!
# Decoding a program

A reader takes bytes off the front of what is left of the file and returns the rest. The first thing
wrong, from left to right, decides the error, except that a count too large for the bytes present is
noticed before any instruction is read.
-/

namespace StackMachine.Bytecode

/-- Why a file is not a program. -/
inductive DecodeError where
  | invalidMagic
  | invalidVersion (major : UInt8)
  | invalidOpcode (byte : UInt8)
  | invalidTag (byte : UInt8)
  | invalidUtf8
  | tooShort
  | trailingBytes (count : Nat)
  deriving DecidableEq, Repr

namespace DecodeError

/-- A byte as two upper-case hexadecimal digits. -/
def hexByte (b : UInt8) : String :=
  let digit (n : Nat) : Char := (Nat.digitChar n).toUpper
  String.ofList [digit (b.toNat / 16), digit (b.toNat % 16)]

def message : DecodeError → String
  | invalidMagic => "invalid bytecode magic number"
  | invalidVersion major => "incompatible bytecode version " ++ major.toNat.repr
  | invalidOpcode byte => "invalid opcode: 0x" ++ hexByte byte
  | invalidTag byte => "invalid operand tag: 0x" ++ hexByte byte
  | invalidUtf8 => "invalid utf-8 in text operand"
  | tooShort => "bytecode is too short"
  | trailingBytes count => count.repr ++ " trailing bytes after last instruction"

def name : DecodeError → String
  | invalidMagic => "InvalidMagicNumber"
  | invalidVersion _ => "InvalidBytecodeVersion"
  | invalidOpcode _ => "InvalidOpcode"
  | invalidTag _ => "InvalidOperandTag"
  | invalidUtf8 => "InvalidUtf8"
  | tooShort => "BytecodeTooShort"
  | trailingBytes _ => "TrailingBytes"

def inspect (e : DecodeError) : String :=
  match e with
  | invalidMagic | invalidUtf8 | tooShort => e.name
  | invalidVersion byte | invalidOpcode byte | invalidTag byte =>
    Inspect.wrapped e.name byte.toNat.repr
  | trailingBytes count => Inspect.wrapped e.name count.repr

end DecodeError

-- ---------------------------------------------------------------------------
-- Readers
-- ---------------------------------------------------------------------------

/-- Reads a part of the file from the bytes left and returns what comes after it. -/
abbrev Reader (α : Type) := Bytes → Except DecodeError (α × Bytes)

def readByte : Reader UInt8
  | [] => .error .tooShort
  | b :: rest => .ok (b, rest)

def readWord : Reader Nat
  | a :: b :: c :: d :: rest => .ok (wordOfBytes a b c d, rest)
  | _ => .error .tooShort

/-- Exactly `n` bytes. -/
def readBytes (n : Nat) : Reader Bytes := fun bytes =>
  let front := bytes.take n
  if front.length = n then .ok (front, bytes.drop n) else .error .tooShort

def readOpcode : Reader Opcode := fun bytes => do
  let (b, rest) ← readByte bytes
  match Opcode.ofByte? b with
  | some op => return (op, rest)
  | none => throw (.invalidOpcode b)

def readInteger : Reader Int32 := fun bytes => do
  let (n, rest) ← readWord bytes
  return ((UInt32.ofNat n).toInt32, rest)

def readText : Reader String := fun bytes => do
  let (length, rest) ← readWord bytes
  let (text, rest) ← readBytes length rest
  match Text.ofUtf8? text.toArray with
  | some s => return (s, rest)
  | none => throw .invalidUtf8

/-- Any byte but zero stands for true. -/
def readBoolean : Reader Bool := fun bytes => do
  let (b, rest) ← readByte bytes
  return (b ≠ 0, rest)

def readOperand : Reader (Option Value) := fun bytes => do
  let (tag, rest) ← readByte bytes
  if tag = tagNone then
    return (none, rest)
  else if tag = tagInteger then
    let (n, rest) ← readInteger rest
    return (some (.integer n), rest)
  else if tag = tagText then
    let (s, rest) ← readText rest
    return (some (.text s), rest)
  else if tag = tagBoolean then
    let (b, rest) ← readBoolean rest
    return (some (.boolean b), rest)
  else
    throw (.invalidTag tag)

def readInstruction : Reader Instruction := fun bytes => do
  let (opcode, rest) ← readOpcode bytes
  let (operand, rest) ← readOperand rest
  return ({ opcode, operand }, rest)

/-- Read `count` instructions and append them to `program`. -/
def readInstructions (count : Nat) (program : Program) : Reader Program := fun bytes =>
  match count with
  | 0 => .ok (program, bytes)
  | count + 1 =>
    match readInstruction bytes with
    | .ok (ins, rest) => readInstructions count (program.push ins) rest
    | .error e => .error e

/-- Read the header up to the number of instructions. -/
def readHeader : Reader Nat
  | m₀ :: m₁ :: m₂ :: m₃ :: major :: _minor :: _patch :: _reserved :: a :: b :: c :: d :: rest =>
    if [m₀, m₁, m₂, m₃] ≠ magic then .error .invalidMagic
    else if major ≠ majorVersion then .error (.invalidVersion major)
    else .ok (wordOfBytes a b c d, rest)
  | _ => .error .tooShort

/-- The program in a file. -/
def decode (file : Bytes) : Except DecodeError Program := do
  let (count, body) ← readHeader file
  if body.length / minInstructionSize < count then throw .tooShort
  let (program, rest) ← readInstructions count #[] body
  if rest.isEmpty then return program else throw (.trailingBytes rest.length)

end StackMachine.Bytecode
