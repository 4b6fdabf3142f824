-- SUMMARY: Runs as a relation between machines.
import StackMachine.Proofs.Effect
import StackMachine.Proofs.Run

/-!
# Reachable machines

A run as a relation: so many instructions, none of which faults, lead from one machine to another. A
run ends where no instruction is left, or at a machine whose next instruction faults. What each
instruction preserves therefore holds at every moment of a run.
-/

namespace StackMachine.Machine

variable {program : Program} {n k : Nat} {m m' s s' : Machine}

/-- `n` instructions, none of which faults, lead from one machine to another. -/
inductive Reaches (program : Program) : Nat → Machine → Machine → Prop where
  | refl (m : Machine) : Reaches program 0 m m
  | step {n : Nat} {m m' s : Machine} {ins : Instruction} (hp : program[m.pc]? = some ins)
      (hs : Machine.step program.size ins m = .ok () m') (h : Reaches program n m' s) :
      Reaches program (n + 1) m s

namespace Reaches

theorem trans (h : Reaches program n m s) (h' : Reaches program k s s') :
    Reaches program (n + k) m s' := by
  induction h with
  | refl m =>
    rw [Nat.zero_add]
    exact h'
  | step hp hs _ ih =>
    rw [Nat.succ_add]
    exact .step hp hs (ih h')

/-- What every instruction preserves holds wherever a run comes. -/
theorem invariant {I : Machine → Prop}
    (hstep : ∀ m m' ins, I m → program[m.pc]? = some ins →
      Machine.step program.size ins m = .ok () m' → I m')
    (h : Reaches program n m s) (hm : I m) : I s := by
  induction h with
  | refl m => exact hm
  | step hp hs _ ih => exact ih (hstep _ _ _ hm hp hs)

/-- The configuration stays, and every instruction is counted. -/
theorem counters (h : Reaches program n m s) : s.config = m.config ∧ s.steps = m.steps + n := by
  induction h with
  | refl m => exact ⟨rfl, rfl⟩
  | step hp hs _ ih =>
    obtain ⟨hc, hn⟩ := counters_of_step_ok hs
    obtain ⟨hc', hn'⟩ := ih
    exact ⟨by rw [hc', hc], by omega⟩

/-- A run stays in the program, or at its end. -/
theorem pc_le (h : Reaches program n m s) (hm : m.pc ≤ program.size) : s.pc ≤ program.size := by
  refine h.invariant (I := fun m => m.pc ≤ program.size) (fun m m' ins _ hp hs => ?_) hm
  obtain ⟨hlt, -⟩ := Array.getElem?_eq_some_iff.1 hp
  exact (effect_of_step_ok hs).pc_le hlt

theorem resume_add (h : Reaches program n m s) (fuel : Nat) :
    resume program (n + fuel) m = resume program fuel s := by
  induction h with
  | refl m => rw [Nat.zero_add]
  | step hp hs _ ih =>
    rw [Nat.succ_add, resume_succ_of_ok _ hp hs]
    exact ih

end Reaches

/-! ## How a run ends -/

theorem resume_eq_running_iff {fuel : Nat} :
    resume program fuel m = .running s ↔
      Reaches program fuel m s ∧ ∃ ins, program[s.pc]? = some ins := by
  constructor
  · intro h
    refine ⟨?_, exists_instruction_of_running h⟩
    fun_induction resume program fuel m with
    | case1 fuel m hp => cases h
    | case2 m ins hp =>
      cases h
      exact .refl _
    | case3 m ins hp fuel pc m' hs ih => exact .step hp hs (ih h)
    | case4 m ins hp fuel pc fault m' hs => cases h
  · rintro ⟨h, ins, hp⟩
    have hadd := h.resume_add 0
    rw [resume_zero hp] at hadd
    exact hadd

theorem exists_resume_eq_finished_iff :
    (∃ fuel, resume program fuel m = .finished s) ↔
      ∃ n, Reaches program n m s ∧ program[s.pc]? = none := by
  constructor
  · rintro ⟨fuel, h⟩
    fun_induction resume program fuel m with
    | case1 fuel m hp =>
      cases h
      exact ⟨0, .refl _, hp⟩
    | case2 m ins hp => cases h
    | case3 m ins hp fuel pc m' hs ih =>
      obtain ⟨n, hreach, hend⟩ := ih h
      exact ⟨n + 1, .step hp hs hreach, hend⟩
    | case4 m ins hp fuel pc fault m' hs => cases h
  · rintro ⟨n, hreach, hend⟩
    refine ⟨n + 0, ?_⟩
    rw [hreach.resume_add, resume_of_end 0 hend]

theorem exists_resume_eq_trapped_iff {trap : Trap} :
    (∃ fuel, resume program fuel m = .trapped trap s) ↔
      ∃ n r ins, Reaches program n m r ∧ program[r.pc]? = some ins ∧
        step program.size ins r = .error trap.fault s ∧ trap.pc = r.pc ∧ trap.opcode = ins.opcode := by
  constructor
  · rintro ⟨fuel, h⟩
    fun_induction resume program fuel m with
    | case1 fuel m hp => cases h
    | case2 m ins hp => cases h
    | case3 m ins hp fuel pc m' hs ih =>
      obtain ⟨n, r, ins', hreach, htrap⟩ := ih h
      exact ⟨n + 1, r, ins', .step hp hs hreach, htrap⟩
    | case4 m ins hp fuel pc fault m' hs =>
      cases h
      exact ⟨0, m, ins, .refl m, hp, hs, rfl, rfl⟩
  · rintro ⟨n, r, ins, hreach, hp, hs, hpc, hopcode⟩
    refine ⟨n + 1, ?_⟩
    rw [hreach.resume_add, resume_succ_of_error 0 hp hs, ← hpc, ← hopcode]

/-- What every step preserves, one that faults included, holds however far a run comes. -/
theorem machine_resume_invariant {I : Machine → Prop}
    (hok : ∀ m m' ins, I m → program[m.pc]? = some ins →
      step program.size ins m = .ok () m' → I m')
    (herror : ∀ m m' ins fault, I m → program[m.pc]? = some ins →
      step program.size ins m = .error fault m' → I m')
    (fuel : Nat) (hm : I m) : I (resume program fuel m).machine := by
  fun_induction resume program fuel m with
  | case1 fuel m hp => exact hm
  | case2 m ins hp => exact hm
  | case3 m ins hp fuel pc m' hs ih => exact ih (hok _ _ _ hm hp hs)
  | case4 m ins hp fuel pc fault m' hs => exact herror _ _ _ _ hm hp hs

theorem ends_finished_iff :
    Ends program m (.finished s) ↔
      ∃ n, Reaches program n m.start s ∧ program[s.pc]? = none := by
  rw [← exists_resume_eq_finished_iff]
  exact ⟨fun h => h.2, fun h => ⟨trivial, h⟩⟩

theorem pc_of_ends_finished (h : Ends program m (.finished s)) : s.pc = program.size := by
  obtain ⟨n, hreach, hend⟩ := ends_finished_iff.1 h
  exact Nat.le_antisymm (hreach.pc_le (Nat.zero_le _)) (Array.getElem?_eq_none_iff.1 hend)

theorem ends_trapped_iff {trap : Trap} :
    Ends program m (.trapped trap s) ↔
      ∃ n r ins, Reaches program n m.start r ∧ program[r.pc]? = some ins ∧
        step program.size ins r = .error trap.fault s ∧ trap.pc = r.pc ∧ trap.opcode = ins.opcode := by
  rw [← exists_resume_eq_trapped_iff]
  exact ⟨fun h => h.2, fun h => ⟨trivial, h⟩⟩

end StackMachine.Machine
