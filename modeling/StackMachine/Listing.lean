-- SUMMARY: Programs as text, one line for each instruction.
import StackMachine.Instruction

/-!
# Listings

A program as text, one line for each instruction: its index, its mnemonic and its operand. An
instruction that will fault for want of an operand is marked.
-/

namespace StackMachine

/-- The least number of digits of an index in a listing. -/
def Listing.indexWidth : Nat := 4

/-- What follows an instruction that lacks its operand. -/
def Listing.missingMark : String := "  ; missing operand"

/-- A number in decimal, filled up with zeros on the left to the width of an index. -/
def Listing.index (i : Nat) : String :=
  "".pushn '0' (indexWidth - i.repr.length) ++ i.repr

/-- The line of an instruction, with its newline. -/
def Instruction.listingLine (i : Nat) (ins : Instruction) : String :=
  Listing.index i ++ ": " ++ ins.render ++
    (if ins.lacksOperand then Listing.missingMark else "") ++ "\n"

/-- The lines of a program. -/
def Program.listing (program : Program) : String :=
  String.join (program.toList.mapIdx Instruction.listingLine)

end StackMachine
