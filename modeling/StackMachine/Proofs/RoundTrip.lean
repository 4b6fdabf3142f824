-- SUMMARY: The decoder reads back what the encoder writes.
import StackMachine.Bytecode.Encode
import StackMachine.Proofs.Grammar

/-!
# Encoding and decoding

What the encoder writes is a file of the grammar, so the decoder reads the program back. The encoder
refuses a program exactly when a count does not fit in a word, and then names the first such count:
the number of instructions before any text, and the texts in program order.
-/

namespace StackMachine.Bytecode

/-! ## Counts -/

theorem encodeLength_of_le (what : String) {n : Nat} (h : n ≤ 0xFFFFFFFF) :
    ∃ word, encodeLength what n = .ok word ∧ IsWord n word := by
  have hlt : n < wordBound := Nat.lt_succ_of_le h
  exact ⟨wordBytes n, if_pos hlt, isWord_wordBytes hlt⟩

theorem encodeLength_of_gt (what : String) {n : Nat} (h : 0xFFFFFFFF < n) :
    encodeLength what n = .error { what, length := n } :=
  if_neg (Nat.not_lt_of_le h)

/-- The number of bytes of a text operand, if it does not fit in a word. -/
def overlong? (ins : Instruction) : Option Nat :=
  match ins.operand with
  | some (.text s) => if 0xFFFFFFFF < s.utf8ByteSize then some s.utf8ByteSize else none
  | _ => none

/-! ## Instructions -/

theorem encodeOperand_text (s : String) : encodeOperand (some (.text s)) =
    (encodeLength "text operand" (textBytes s).length).map
      fun word => tagText :: (word ++ textBytes s) := by
  have hl : (Text.utf8 s).size = (textBytes s).length := by rw [← toList_utf8, Array.length_toList]
  rw [encodeOperand, hl, toList_utf8]
  cases encodeLength "text operand" (textBytes s).length <;> rfl

theorem encodeInstruction_eq (ins : Instruction) :
    encodeInstruction ins = (encodeOperand ins.operand).map (ins.opcode.byte :: ·) := by
  rw [encodeInstruction]
  cases encodeOperand ins.operand <;> rfl

theorem encodeInstruction_of_overlong {ins : Instruction} {length : Nat}
    (h : overlong? ins = some length) :
    encodeInstruction ins = .error { what := "text operand", length } := by
  unfold overlong? at h
  split at h
  · rename_i s hs
    split at h
    · rename_i hlong
      cases h
      rw [encodeInstruction_eq, hs, encodeOperand_text, length_textBytes, encodeLength_of_gt _ hlong]
      rfl
    · cases h
  · cases h

theorem encodeOperand_isOperand {operand : Option Value}
    (h : ∀ s, operand = some (.text s) → s.utf8ByteSize ≤ 0xFFFFFFFF) :
    ∃ bytes, encodeOperand operand = .ok bytes ∧ IsOperand operand bytes := by
  match operand with
  | none => exact ⟨_, rfl, .none⟩
  | some (.integer n) =>
    have hw : IsWord (twosComplement n) (wordBytes n.toUInt32.toNat) := by
      rw [twosComplement_eq]
      exact isWord_wordBytes n.toUInt32.toNat_lt
    exact ⟨_, rfl, .integer hw⟩
  | some (.text s) =>
    have hl := h s rfl
    rw [← length_textBytes] at hl
    obtain ⟨word, he, hw⟩ := encodeLength_of_le "text operand" hl
    refine ⟨tagText :: (word ++ textBytes s), ?_, .text hw⟩
    rw [encodeOperand_text, he]
    rfl
  | some (.boolean b) =>
    refine ⟨_, rfl, .boolean ?_⟩
    cases b <;> decide

theorem encodeInstruction_isInstruction {ins : Instruction} (h : overlong? ins = none) :
    ∃ bytes, encodeInstruction ins = .ok bytes ∧ IsInstruction ins bytes := by
  have hfits : ∀ s, ins.operand = some (.text s) → s.utf8ByteSize ≤ 0xFFFFFFFF := by
    intro s hs
    simp only [overlong?, hs] at h
    split at h
    · cases h
    · rename_i hle
      exact Nat.le_of_not_lt hle
  obtain ⟨operand, he, ho⟩ := encodeOperand_isOperand hfits
  refine ⟨ins.opcode.byte :: operand, ?_, operand, ho, rfl⟩
  rw [encodeInstruction_eq, he]
  rfl

/-! ## Programs -/

/-- The first instruction whose text is too long decides whether instructions can be written. -/
theorem mapM_encodeInstruction (instructions : List Instruction) :
    match instructions.findSome? overlong? with
    | some length =>
      instructions.mapM encodeInstruction = .error { what := "text operand", length }
    | none => ∃ parts, instructions.mapM encodeInstruction = .ok parts ∧
      IsBody instructions parts.flatten := by
  induction instructions with
  | nil => exact ⟨[], rfl, .nil⟩
  | cons ins rest ih =>
    rw [List.findSome?_cons, List.mapM_cons]
    cases hlong : overlong? ins with
    | some length =>
      rw [encodeInstruction_of_overlong hlong]
      rfl
    | none =>
      obtain ⟨front, he, hi⟩ := encodeInstruction_isInstruction hlong
      rw [he]
      cases hrest : rest.findSome? overlong? with
      | some length =>
        simp only [hrest] at ih
        rw [ih]
        rfl
      | none =>
        simp only [hrest] at ih
        obtain ⟨parts, hm, hb⟩ := ih
        exact ⟨front :: parts, by rw [hm]; rfl, .cons hi hb⟩

/-- A program whose counts all fit in a word is written and read back unchanged, whatever its opcodes
and operands. Otherwise the encoder fails and names what was counted and how many there were: the
instructions if there are too many, else the bytes of the first text that is too long. -/
theorem decode_encode (program : Program) :
    if 0xFFFFFFFF < program.size then
      encode program = .error { what := "program", length := program.size }
    else
      match program.toList.findSome? overlong? with
      | some length => encode program = .error { what := "text operand", length }
      | none => ∃ file, encode program = .ok file ∧ decode file = .ok program := by
  unfold encode
  split
  · rename_i hsize
    rw [encodeLength_of_gt _ hsize]
    rfl
  · rename_i hsize
    obtain ⟨word, he, hw⟩ := encodeLength_of_le "program" (Nat.le_of_not_lt hsize)
    rw [he]
    have hbody := mapM_encodeInstruction program.toList
    cases hlong : program.toList.findSome? overlong? with
    | some length =>
      simp only [hlong] at hbody ⊢
      rw [hbody]
      rfl
    | none =>
      simp only [hlong] at hbody ⊢
      obtain ⟨parts, hm, hb⟩ := hbody
      refine ⟨preamble ++ word ++ parts.flatten, by rw [hm]; rfl, ?_⟩
      exact decode_eq_ok_iff_isFile.mpr ⟨0, 0, 0, word, _, hw, hb, rfl⟩

end StackMachine.Bytecode
