-- SUMMARY: A trap leaves what was done before it and nothing of the instruction that faults.
import StackMachine.Proofs.Reach

/-!
# Traps

A trap stops a run at the instruction that faults. Whatever the instructions before it did stays done,
and of the instruction itself nothing is done: at most it has taken its operands off the stack.
-/

namespace StackMachine

theorem Opcode.length_pops_le (op : Opcode) : op.pops.length ≤ 2 := by
  cases op <;> simp [pops]

namespace Machine

/-- A step that faults has moved on, has counted the instruction unless the limit is what it met, and
leaves all but the values that the instruction pops. -/
theorem remains_of_step_error {length : Nat} {ins : Instruction} {m m' : Machine} {fault : Fault}
    (h : step length ins m = .error fault m') :
    ∃ steps, Remains ins.opcode.pops.length { m with pc := m.pc + 1, steps } m' ∧
      ((∃ limit, fault = .stepLimitExceeded limit) ∧ steps = m.steps ∨
        (∀ limit, fault ≠ .stepLimitExceeded limit) ∧ steps = m.steps + 1) := by
  by_cases hbelow : m.BelowLimit
  · rw [step_of_belowLimit hbelow] at h
    obtain ⟨hremains, hfault⟩ := remains_of_execute_error h
    exact ⟨m.steps + 1, hremains, .inr ⟨hfault, rfl⟩⟩
  · obtain ⟨limit, hl, hle⟩ := not_belowLimit_iff.1 hbelow
    rw [step_of_limit_le hl hle] at h
    cases h
    exact ⟨m.steps, .refl _ _, .inl ⟨⟨limit, rfl⟩, rfl⟩⟩

/-- A trap names an instruction of the program, the one that faults after some number of instructions
that did not. It leaves the machine as these did, moved past the instruction: the memory and the
captured text are the same, and at most two values are missing from the top of the stack. The
instruction is counted, unless it was the step limit that stopped the run. -/
theorem run_trapped_leaves (program : Program) (m : Machine) (trap : Trap) (s : Machine)
    (h : Ends program m (.trapped trap s)) :
    ∃ (n : Nat) (r : Machine) (hpc : trap.pc < program.size),
      run program n m = .running r ∧ r.pc = trap.pc ∧ trap.opcode = program[trap.pc].opcode ∧
      step program.size program[trap.pc] r = .error trap.fault s ∧
      s.pc = trap.pc + 1 ∧
      ((∃ limit, trap.fault = .stepLimitExceeded limit) → s.steps = n) ∧
      ((∀ limit, trap.fault ≠ .stepLimitExceeded limit) → s.steps = n + 1) ∧
      s.memory = r.memory ∧ s.output.captured = r.output.captured ∧
      ∃ taken : Array Value, taken.size ≤ 2 ∧ r.stack.values = s.stack.values ++ taken := by
  obtain ⟨n, r, ins, hreach, hp, hs, hpc, hopcode⟩ := ends_trapped_iff.1 h
  obtain ⟨hlt, hins⟩ := Array.getElem?_eq_some_iff.1 hp
  subst hins
  obtain ⟨steps, hremains, hsteps⟩ := remains_of_step_error hs
  have hn : r.steps = n := by
    have h : r.steps = 0 + n := hreach.counters.2
    omega
  obtain ⟨taken, htaken, hstack⟩ := hremains.stack
  rw [← hpc] at hlt
  refine ⟨n, r, hlt, resume_eq_running_iff.2 ⟨hreach, _, hp⟩, hpc.symm, ?_, ?_, ?_, ?_, ?_,
    hremains.memory, hremains.captured, taken.reverse.toArray, ?_, ?_⟩
  · simpa only [hpc] using hopcode
  · simpa only [hpc] using hs
  · rw [hremains.pc, hpc]
  · rintro ⟨limit, hlimit⟩
    rcases hsteps with ⟨-, rfl⟩ | ⟨hfault, -⟩
    · rw [hremains.steps, hn]
    · exact absurd hlimit (hfault limit)
  · intro hfault
    rcases hsteps with ⟨⟨limit, hlimit⟩, -⟩ | ⟨-, rfl⟩
    · exact absurd hlimit (hfault limit)
    · rw [hremains.steps, hn]
  · have hle := Nat.le_trans htaken program[r.pc].opcode.length_pops_le
    simpa using hle
  · exact Stack.values_of_topDown_append hstack

/-- A division by zero after a line was printed: the line stays, both operands are gone, and the
division is counted. -/
theorem run_division_trapped_leaves :
    ∃ (s r : Machine) (n : Nat),
      Ends #[⟨.push, some (.integer 7)⟩, ⟨.print, none⟩, ⟨.push, some (.integer 1)⟩,
          ⟨.push, some (.integer 0)⟩, ⟨.arith .div, none⟩] (new {} (.zeros 1) (.buffer ""))
        (.trapped { pc := 4, opcode := .arith .div, fault := .divisionByZero } s) ∧
      r.pc = 4 ∧ s.pc = 5 ∧ s.steps = n + 1 ∧ s.output.captured = r.output.captured ∧
      s.memory = r.memory ∧
      ∃ taken : Array Value, taken.size ≤ 2 ∧ r.stack.values = s.stack.values ++ taken := by
  have h : Ends #[⟨.push, some (.integer 7)⟩, ⟨.print, none⟩, ⟨.push, some (.integer 1)⟩,
      ⟨.push, some (.integer 0)⟩, ⟨.arith .div, none⟩] (new {} (.zeros 1) (.buffer ""))
      (.trapped { pc := 4, opcode := .arith .div, fault := .divisionByZero } _) :=
    ⟨trivial, 5, rfl⟩
  obtain ⟨n, r, -, -, hr, -, -, hpc, -, hsteps, hmemory, houtput, hstack⟩ :=
    run_trapped_leaves _ _ _ _ h
  exact ⟨_, r, n, h, hr, hpc, hsteps nofun, houtput, hmemory, hstack⟩

end Machine

end StackMachine
