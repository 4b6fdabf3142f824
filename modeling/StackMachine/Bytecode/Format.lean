-- SUMMARY: The constants of program files.

/-!
# The program file

The constants of the file format, shared by the encoder and the decoder. A file is a header of twelve
bytes (magic, three version bytes, a reserved byte, the number of instructions) followed by the
instructions. Words of 32 bits are written with the most significant byte first.
-/

namespace StackMachine.Bytecode

abbrev Bytes := List UInt8

/-- The four bytes that every file starts with. -/
def magic : Bytes := [0x53, 0x56, 0x4d, 0x42]

/-- The major version. A decoder takes files of this version only, whatever their other version
bytes say. -/
def majorVersion : UInt8 := 1

/-- The number of bytes before the first instruction. -/
def headerSize : Nat := 12

/-- An instruction takes at least its opcode byte and its tag byte. -/
def minInstructionSize : Nat := 2

/-- The number that a word of 32 bits cannot hold any more. -/
def wordBound : Nat := 0x100000000

-- ---------------------------------------------------------------------------
-- Words
-- ---------------------------------------------------------------------------

/-- The four bytes of a number below `wordBound`, the most significant first. -/
def wordBytes (n : Nat) : Bytes :=
  [UInt8.ofNat (n / 0x1000000), UInt8.ofNat (n / 0x10000), UInt8.ofNat (n / 0x100), UInt8.ofNat n]

/-- The number that four bytes spell. -/
def wordOfBytes (a b c d : UInt8) : Nat :=
  a.toNat * 0x1000000 + b.toNat * 0x10000 + c.toNat * 0x100 + d.toNat

theorem wordOfBytes_lt (a b c d : UInt8) : wordOfBytes a b c d < wordBound := by
  have ha := a.toNat_lt
  have hb := b.toNat_lt
  have hc := c.toNat_lt
  have hd := d.toNat_lt
  simp only [wordOfBytes, wordBound]
  omega

@[simp] theorem length_wordBytes (n : Nat) : (wordBytes n).length = 4 := rfl

/-- Four bytes are the word that they spell. -/
theorem wordBytes_wordOfBytes (a b c d : UInt8) :
    wordBytes (wordOfBytes a b c d) = [a, b, c, d] := by
  have ha := a.toNat_lt
  have hb := b.toNat_lt
  have hc := c.toNat_lt
  have hd := d.toNat_lt
  simp only [wordBytes, List.cons.injEq, ← UInt8.toNat_inj, UInt8.toNat_ofNat', wordOfBytes]
  refine ⟨?_, ?_, ?_, ?_, trivial⟩ <;> omega

-- ---------------------------------------------------------------------------
-- Operand tags
-- ---------------------------------------------------------------------------

/-- The byte after an opcode says which operand follows. -/
def tagNone : UInt8 := 0

def tagInteger : UInt8 := 1

def tagText : UInt8 := 2

def tagBoolean : UInt8 := 3

end StackMachine.Bytecode
