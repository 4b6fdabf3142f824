-- SUMMARY: The operands that a run looks at are those that the table of opcodes asks for.
import StackMachine.Proofs.Cause
import StackMachine.Proofs.Disassembly

/-!
# Operands that matter

Which operands a run looks at, said three times: by the table of opcodes, by the instructions themselves
and by the marks in a listing. The three agree. An operand that the table does not ask for may be anything
or absent. One that it asks for must be there: without it the instruction faults wherever it is carried
out, and its line in a listing is marked. No other line is.
-/

namespace StackMachine

/-! ## Operands that are not read -/

namespace Instruction

/-- The instruction with another operand, or none, if its own is not read. -/
def withUnread (operand : Option Value) (ins : Instruction) : Instruction :=
  if ins.opcode.requiresOperand then ins else { ins with operand }

theorem opcode_withUnread (operand : Option Value) (ins : Instruction) :
    (ins.withUnread operand).opcode = ins.opcode := by
  unfold withUnread
  split <;> rfl

end Instruction

namespace Program

/-- The program with other operands where they are not read: `operands` says which, by index. -/
def withUnread (operands : Nat → Option Value) (program : Program) : Program :=
  program.mapIdx fun i ins => ins.withUnread (operands i)

theorem size_withUnread (operands : Nat → Option Value) (program : Program) :
    (program.withUnread operands).size = program.size := by
  simp [withUnread]

theorem getElem?_withUnread (operands : Nat → Option Value) (program : Program) (i : Nat) :
    (program.withUnread operands)[i]? = program[i]?.map (Instruction.withUnread (operands i)) := by
  simp [withUnread]

end Program

namespace Machine

/-- An instruction does not depend on an operand that its opcode does not ask for. -/
theorem execute_withUnread (length : Nat) (operand : Option Value) (ins : Instruction) :
    execute length (ins.withUnread operand) = execute length ins := by
  obtain ⟨op, own⟩ := ins
  unfold Instruction.withUnread
  cases op <;> rfl

theorem step_withUnread (length : Nat) (operand : Option Value) (ins : Instruction) :
    step length (ins.withUnread operand) = step length ins := by
  unfold step
  rw [execute_withUnread]

theorem resume_withUnread (operands : Nat → Option Value) (program : Program) (fuel : Nat)
    (m : Machine) : resume (program.withUnread operands) fuel m = resume program fuel m := by
  have hat := program.getElem?_withUnread operands
  fun_induction resume program fuel m with
  | case1 fuel m hp => exact resume_of_end fuel (by rw [hat, hp]; rfl)
  | case2 m ins hp => exact resume_zero (by rw [hat, hp]; rfl)
  | case3 m ins hp fuel pc m' hs ih =>
    rw [← ih]
    refine resume_succ_of_ok fuel (by rw [hat, hp]; rfl) ?_
    rw [program.size_withUnread, step_withUnread]
    exact hs
  | case4 m ins hp fuel pc fault m' hs =>
    rw [← ins.opcode_withUnread (operands m.pc)]
    refine resume_succ_of_error fuel (by rw [hat, hp]; rfl) ?_
    rw [program.size_withUnread, step_withUnread]
    exact hs

/-! ## Operands that are missing -/

variable {length : Nat} {ins : Instruction} {m m' : Machine}

theorem step_of_lacksOperand (h : ins.lacksOperand = true) (hm : m.BelowLimit) :
    step length ins m = .error .missingOperand m.dispatched := by
  obtain ⟨op, operand⟩ := ins
  simp only [Instruction.lacksOperand, Bool.and_eq_true, Option.isNone_iff_eq_none] at h
  obtain ⟨hneeds, rfl⟩ := h
  rw [step_of_belowLimit hm]
  cases op with
  | push | load | store | jump | jumpIf => rfl
  | arith | logic | compare | real | print => cases hneeds

theorem lacksOperand_of_step_error (h : step length ins m = .error .missingOperand m') :
    ins.lacksOperand = true := by
  rcases cause_of_step_error h with hcause | ⟨limit, hlimit⟩
  · generalize hfault : Fault.missingOperand = fault at hcause
    cases hcause with
    | missingOperand hneeds hnone => simp [Instruction.lacksOperand, hneeds, hnone]
    | _ => cases hfault
  · cases hlimit

end Machine

/-! ## Marked lines -/

/-- The line ends with the mark of an instruction that lacks its operand. -/
def Listing.Marked (line : String) : Prop :=
  ∃ front, line = front ++ "  ; missing operand\n"

/-- The text of an operand does not end as the mark does. -/
theorem Value.renderOperand_last (v : Value) :
    ∃ front c, v.renderOperand.toList = front ++ [c] ∧ c ≠ 'd' := by
  match v with
  | .integer n =>
    have hne := repr_ne_nil n.toInt
    refine ⟨_, _, (List.dropLast_append_getLast hne).symm, ?_⟩
    intro hd
    have hmem := hd ▸ List.getLast_mem hne
    rcases mem_repr_integer hmem with hminus | hdigit
    · exact absurd hminus (by decide)
    · exact absurd hdigit (by decide)
  | .text s => exact ⟨'"' :: s.toList.flatMap Text.escape, '"', Text.toList_quote s, by decide⟩
  | .boolean true => exact ⟨['t', 'r', 'u'], 'e', rfl, by decide⟩
  | .boolean false => exact ⟨['f', 'a', 'l', 's'], 'e', rfl, by decide⟩

/-- A line without the mark does not end as if it had it: without an operand there is no semicolon in it,
and with one it ends as the operand does. -/
theorem Instruction.line_ne_marked {i : Nat} {ins : Instruction} (h : ins.lacksOperand = false)
    (front : List Char) : (ins.line i).toList ≠ front ++ Listing.missingMark.toList := by
  have hmark : Listing.missingMark.toList = "  ; missing operan".toList ++ ['d'] := by decide
  obtain ⟨op, operand⟩ := ins
  intro heq
  cases operand with
  | none =>
    have hneeds : op.requiresOperand = false := by simpa [lacksOperand] using h
    have hmem : ';' ∈ (line i ⟨op, none⟩).toList := by
      rw [heq]
      exact List.mem_append_right _ (by decide)
    simp only [line, operandText, hneeds, Bool.false_eq_true, if_false, String.toList_append,
      List.mem_append] at hmem
    rcases hmem with ((hdigit | hcolon) | hmnemonic) | hnothing
    · exact absurd ((Listing.padded_index i).isDigit _ hdigit) (by decide)
    · exact absurd hcolon (by decide)
    · exact absurd (Opcode.isAlphanum_of_mem_mnemonic hmnemonic) (by decide)
    · exact absurd hnothing (by decide)
  | some v =>
    obtain ⟨text, c, hv, hc⟩ := v.renderOperand_last
    rw [line, String.toList_append, toList_operandText_some, hv, hmark, ← List.cons_append,
      ← List.append_assoc, ← List.append_assoc] at heq
    exact hc (List.singleton_inj.1 (List.append_inj' heq rfl).2)

theorem Listing.marked_listingLine_iff (i : Nat) (ins : Instruction) :
    Marked (ins.listingLine i) ↔ ins.lacksOperand = true := by
  have hmark : "  ; missing operand\n" = missingMark ++ "\n" := by decide
  constructor
  · rintro ⟨front, heq⟩
    rw [ins.listingLine_eq, hmark, ← String.append_assoc] at heq
    rw [← Bool.not_eq_false]
    intro hlacks
    have hlists := congrArg String.toList ((String.append_left_inj _).1 heq)
    rw [String.toList_append] at hlists
    exact Instruction.line_ne_marked hlacks _ hlists
  · intro hlacks
    refine ⟨index i ++ ": " ++ ins.render, ?_⟩
    rw [Instruction.listingLine, if_pos hlacks, hmark, String.append_assoc]

/-! ## The theorem -/

namespace Machine

/-- What the table of opcodes says about operands is what a run makes of them. Where it asks for none, any
operand may stand or be left out: the run is the same, step for step. And the line of an instruction is
marked if and only if the instruction faults for want of an operand on every machine that may take another
step, while an instruction that is not marked does so on none. -/
theorem requiresOperand_agrees_with_step (program : Program) (operands : Nat → Option Value)
    (i : Nat) (ins : Instruction) :
    (∀ fuel m, run (program.withUnread operands) fuel m = run program fuel m) ∧
    (Listing.Marked (ins.listingLine i) ↔
      ∀ length m, m.BelowLimit → ∃ m', step length ins m = .error .missingOperand m') ∧
    (¬ Listing.Marked (ins.listingLine i) →
      ∀ length m m', step length ins m ≠ .error .missingOperand m') := by
  rw [Listing.marked_listingLine_iff]
  refine ⟨fun fuel m => resume_withUnread operands program fuel m.start, ⟨?_, ?_⟩, ?_⟩
  · intro hlacks length m hm
    exact ⟨_, step_of_lacksOperand hlacks hm⟩
  · intro hfaults
    -- Any machine without a step limit will do.
    obtain ⟨m', hs⟩ := hfaults 0 (new {} (.zeros 0) .silent) nofun
    exact lacksOperand_of_step_error hs
  · intro hlacks length m m' hs
    exact hlacks (lacksOperand_of_step_error hs)

/-- A print with an operand, which is not read, and a jump without one, which is marked and faults. -/
theorem requiresOperand_agrees_at_print_and_jump :
    run #[⟨.push, some (.integer 7)⟩, ⟨.print, none⟩, ⟨.jump, none⟩] 3
        (new {} (.zeros 0) (.buffer "")) =
      run #[⟨.push, some (.integer 7)⟩, ⟨.print, some (.text "x")⟩, ⟨.jump, none⟩] 3
        (new {} (.zeros 0) (.buffer "")) ∧
      Listing.Marked "0002: jmp  ; missing operand\n" ∧
      ∃ m', step 3 ⟨.jump, none⟩ (new {} (.zeros 0) (.buffer "")) = .error .missingOperand m' := by
  have hline : Instruction.listingLine 2 ⟨.jump, none⟩ = "0002: jmp  ; missing operand\n" := rfl
  have hmarked : Listing.Marked (Instruction.listingLine 2 ⟨.jump, none⟩) :=
    ⟨"0002: jmp", by rw [hline]; decide⟩
  obtain ⟨hrun, hiff, -⟩ := requiresOperand_agrees_with_step
    #[⟨.push, some (.integer 7)⟩, ⟨.print, some (.text "x")⟩, ⟨.jump, none⟩] (fun _ => none) 2
    ⟨.jump, none⟩
  exact ⟨hrun 3 _, hline ▸ hmarked, hiff.1 hmarked 3 _ nofun⟩

end Machine

end StackMachine
