-- SUMMARY: A run under a step limit is a beginning of the run without it.
import StackMachine.Proofs.Reach

/-!
# Runs under a step limit

A machine with a step limit does what the machine without it does, instruction by instruction, until
the limit is reached. So a limited run is the whole run if that is short enough, and otherwise stops
at the instruction that would have come next.
-/

namespace StackMachine.Machine

/-- The machine with another step limit, or with none. -/
def withStepLimit (limit : Option Nat) (m : Machine) : Machine :=
  { m with config := { m.config with stepLimit := limit } }

/-! ## One step -/

theorem execute_withStepLimit (limit : Option Nat) (length : Nat) (ins : Instruction) :
    Related (fun m n => n = m.withStepLimit limit) (execute length ins) (execute length ins) :=
  (respects_onCounters (fun c => { c with stepLimit := limit }) id length ins).execute

theorem belowLimit_of_unlimited {m : Machine} (h : m.config.stepLimit = none) : m.BelowLimit := by
  intro limit hl
  rw [h] at hl
  cases hl

theorem belowLimit_withStepLimit {m : Machine} {limit : Nat} (h : m.steps < limit) :
    (m.withStepLimit (some limit)).BelowLimit := by
  intro l hl
  cases hl
  exact h

/-! ## Many steps -/

/-- As long as the limit is not passed, the limited run and the free one go side by side. -/
theorem resume_withStepLimit {program : Program} {fuel limit : Nat} {m : Machine}
    (hfree : m.config.stepLimit = none) (hle : m.steps + fuel ≤ limit) :
    resume program fuel (m.withStepLimit (some limit)) =
      (resume program fuel m).map (withStepLimit (some limit)) := by
  fun_induction resume program fuel m with
  | case1 fuel m hp => exact resume_of_end fuel hp
  | case2 m ins hp => exact resume_zero hp
  | case3 m ins hp fuel pc m' hs ih =>
    have hlt : m.steps < limit := by omega
    obtain ⟨hc, hn⟩ := counters_of_step_ok hs
    rw [step_of_belowLimit (belowLimit_of_unlimited hfree)] at hs
    obtain ⟨n', he, rfl⟩ := (execute_withStepLimit (some limit) program.size ins).of_ok rfl hs
    have hstep : step program.size ins (m.withStepLimit (some limit)) =
        .ok () (m'.withStepLimit (some limit)) := by
      rw [step_of_belowLimit (belowLimit_withStepLimit hlt)]
      exact he
    have hat : program[(m.withStepLimit (some limit)).pc]? = some ins := hp
    rw [resume_succ_of_ok fuel hat hstep]
    exact ih (by rw [hc, hfree]) (by omega)
  | case4 m ins hp fuel pc fault m' hs =>
    have hlt : m.steps < limit := by omega
    rw [step_of_belowLimit (belowLimit_of_unlimited hfree)] at hs
    obtain ⟨n', he, rfl⟩ := (execute_withStepLimit (some limit) program.size ins).of_error rfl hs
    have hstep : step program.size ins (m.withStepLimit (some limit)) =
        .error fault (m'.withStepLimit (some limit)) := by
      rw [step_of_belowLimit (belowLimit_withStepLimit hlt)]
      exact he
    exact resume_succ_of_error fuel hp hstep

/-- A run that is still going has counted every step that it was given. -/
theorem counters_of_running {program : Program} {fuel : Nat} {m s : Machine}
    (h : resume program fuel m = .running s) :
    s.config = m.config ∧ s.steps = m.steps + fuel :=
  (resume_eq_running_iff.1 h).1.counters

theorem steps_of_resume_zero_ended {program : Program} {m : Machine}
    (h : (resume program 0 m).Ended) : (resume program 0 m).machine.steps = m.steps := by
  cases hp : program[m.pc]? with
  | none =>
    rw [resume_of_end 0 hp]
    rfl
  | some ins =>
    rw [resume_zero hp] at h
    exact h.elim

/-- Without a step limit, a run has counted as many instructions as it is long. -/
theorem steps_of_endsAfter {program : Program} {m : Machine} {n : Nat} {p : Progress}
    (hfree : m.config.stepLimit = none) (h : EndsAfter program m n p) : p.machine.steps = n := by
  obtain ⟨rfl, hended, hgoing⟩ := h
  cases n with
  | zero => exact steps_of_resume_zero_ended hended
  | succ n =>
    -- All instructions but the last were carried out, and the last one was dispatched.
    obtain ⟨s, hs⟩ := Progress.not_ended_iff.mp (hgoing n (Nat.lt_succ_self n))
    obtain ⟨ins, hp⟩ := exists_instruction_of_running hs
    obtain ⟨hc, hn⟩ := counters_of_running hs
    have hn : s.steps = n := by
      rw [hn]
      exact Nat.zero_add n
    have hrun : run program (n + 1) m = resume program 1 s := by
      rw [run, resume_add]
      exact congrArg (Progress.resume program 1) hs
    rw [hrun] at hended ⊢
    cases hstep : step program.size ins s with
    | ok u s' =>
      rw [resume_succ_of_ok 0 hp hstep] at hended ⊢
      rw [steps_of_resume_zero_ended hended, (counters_of_step_ok hstep).2, hn]
    | error fault s' =>
      have hbelow : s.BelowLimit := belowLimit_of_unlimited (by rw [hc]; exact hfree)
      rw [resume_succ_of_error 0 hp hstep]
      exact (counters_of_step_error hbelow hstep).2.trans (by rw [hn])

/-! ## The limited run -/

theorem run_withStepLimit_of_le (program : Program) (m : Machine) {fuel limit : Nat}
    (hle : fuel ≤ limit) :
    run program fuel (m.withStepLimit (some limit)) =
      (run program fuel (m.withStepLimit none)).map (withStepLimit (some limit)) := by
  have hsteps : (m.withStepLimit none).start.steps + fuel ≤ limit :=
    Nat.le_trans (Nat.le_of_eq (Nat.zero_add fuel)) hle
  exact resume_withStepLimit rfl hsteps

/-- A free run that is not longer than the limit is the limited run. -/
theorem EndsAfter.ends_withStepLimit {program : Program} {m : Machine} {n limit : Nat} {p : Progress}
    (h : EndsAfter program (m.withStepLimit none) n p) (hle : n ≤ limit) :
    Ends program (m.withStepLimit (some limit)) (p.map (withStepLimit (some limit))) := by
  refine ⟨h.ended.map, n, ?_⟩
  rw [run_withStepLimit_of_le program m hle, h.result]

/-- If the free run is not over after `limit` steps, the limited run traps at the instruction that the
free run would carry out next. -/
theorem ends_of_limit_reached {program : Program} {m s : Machine} {limit : Nat} {ins : Instruction}
    (hs : run program limit (m.withStepLimit none) = .running s) (hp : program[s.pc]? = some ins) :
    Ends program (m.withStepLimit (some limit))
      (.trapped { pc := s.pc, opcode := ins.opcode, fault := .stepLimitExceeded limit }
        { s.withStepLimit (some limit) with pc := s.pc + 1 }) := by
  have hgoing : resume program limit (m.withStepLimit (some limit)).start =
      .running (s.withStepLimit (some limit)) := by
    have h := run_withStepLimit_of_le program m (Nat.le_refl limit)
    rw [hs] at h
    exact h
  have hsteps : limit ≤ (s.withStepLimit (some limit)).steps := by
    have h : s.steps = _ := (counters_of_running hs).2
    exact h ▸ Nat.le_add_left limit _
  have hstep : step program.size ins (s.withStepLimit (some limit)) =
      .error (.stepLimitExceeded limit) { s.withStepLimit (some limit) with pc := s.pc + 1 } :=
    step_of_limit_le rfl hsteps
  refine ⟨trivial, limit + 1, ?_⟩
  rw [run, resume_add, hgoing]
  exact resume_succ_of_error 0 hp hstep

/-- The free run is either over within `limit` steps, or still going after them. -/
theorem endsAfter_or_running (program : Program) (m : Machine) (limit : Nat) :
    (∃ n p, n ≤ limit ∧ EndsAfter program m n p) ∨
      ∃ s ins, run program limit m = .running s ∧ s.steps = limit ∧ program[s.pc]? = some ins := by
  by_cases hended : (run program limit m).Ended
  · obtain ⟨n, hn, h⟩ := exists_endsAfter hended
    exact .inl ⟨n, _, hn, h⟩
  · obtain ⟨s, hs⟩ := Progress.not_ended_iff.mp hended
    obtain ⟨ins, hp⟩ := exists_instruction_of_running hs
    have hn : s.steps = 0 + limit := (counters_of_running hs).2
    exact .inr ⟨s, ins, hs, by rw [hn, Nat.zero_add], hp⟩

/-- A run under a step limit is a beginning of the run without it. If the free run ends within the
limit, the limited run ends the same way. Otherwise it traps before the instruction that comes next in
the free run, in the state that the free run has reached by then. So it always ends, and a program that
finishes in exactly as many instructions as the limit allows is not stopped. -/
theorem run_withStepLimit (program : Program) (m : Machine) (limit : Nat) :
    (∀ n p, EndsAfter program (m.withStepLimit none) n p → p.machine.steps = n ∧
      (n ≤ limit →
        Ends program (m.withStepLimit (some limit)) (p.map (withStepLimit (some limit))))) ∧
    ((∀ n p, EndsAfter program (m.withStepLimit none) n p → limit < n) →
      ∃ s ins, run program limit (m.withStepLimit none) = .running s ∧ s.steps = limit ∧
        program[s.pc]? = some ins ∧
        Ends program (m.withStepLimit (some limit))
          (.trapped { pc := s.pc, opcode := ins.opcode, fault := .stepLimitExceeded limit }
            { s.withStepLimit (some limit) with pc := s.pc + 1 })) ∧
    (∃ p, Ends program (m.withStepLimit (some limit)) p ∧ p.machine.steps ≤ limit) ∧
    (∀ s, EndsAfter program (m.withStepLimit none) limit (.finished s) →
      Ends program (m.withStepLimit (some limit)) (.finished (s.withStepLimit (some limit)))) := by
  refine ⟨?_, ?_, ?_, ?_⟩
  · intro n p h
    exact ⟨steps_of_endsAfter rfl h, h.ends_withStepLimit⟩
  · intro hlong
    rcases endsAfter_or_running program (m.withStepLimit none) limit with hended | hgoing
    · obtain ⟨n, p, hn, h⟩ := hended
      exact absurd (hlong n p h) (Nat.not_lt_of_le hn)
    · obtain ⟨s, ins, hs, hn, hp⟩ := hgoing
      exact ⟨s, ins, hs, hn, hp, ends_of_limit_reached hs hp⟩
  · rcases endsAfter_or_running program (m.withStepLimit none) limit with hended | hgoing
    · obtain ⟨n, p, hn, h⟩ := hended
      refine ⟨_, h.ends_withStepLimit hn, ?_⟩
      rw [Progress.machine_map]
      exact Nat.le_trans (Nat.le_of_eq (steps_of_endsAfter rfl h)) hn
    · obtain ⟨s, ins, hs, hn, hp⟩ := hgoing
      exact ⟨_, ends_of_limit_reached hs hp, Nat.le_of_eq hn⟩
  · intro s h
    exact h.ends_withStepLimit (Nat.le_refl limit)

/-- A jump to itself is stopped by the limit, where it stands. -/
theorem run_loop_withStepLimit_three :
    ∃ s, Ends #[⟨.jump, some (.integer 0)⟩] ((new {} (.zeros 0) .silent).withStepLimit (some 3))
      (.trapped { pc := 0, opcode := .jump, fault := .stepLimitExceeded 3 } s) := by
  obtain ⟨s, ins, hs, -, hp, hends⟩ :=
    (run_withStepLimit #[⟨.jump, some (.integer 0)⟩] (new {} (.zeros 0) .silent) 3).2.1
      fun n p h => h.lt_of_running rfl
  cases hs
  cases hp
  exact ⟨_, hends⟩

end StackMachine.Machine
