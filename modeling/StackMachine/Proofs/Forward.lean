-- SUMMARY: Programs without backward jumps end.
import StackMachine.Proofs.Insertion

/-!
# Programs without backward jumps

A program whose jumps never lead back always ends. Each instruction leads further on, so that the index of
the next one grows with every step and leaves the program after as many steps as it has instructions. A
jump that names no index of the program does not get anywhere: it traps.
-/

namespace StackMachine

/-! ## Forward programs -/

/-- The instruction at index `i` names no index up to its own as a jump target. -/
def Instruction.ForwardAt (i : Nat) (ins : Instruction) : Prop :=
  ins.opcode.jumps = true → ∀ target, ins.operand = some (.integer target) →
    ¬ (0 ≤ target.toInt ∧ target.toInt ≤ i)

namespace Program

/-- No jump of the program leads back, or to itself. -/
def Forward (program : Program) : Prop :=
  ∀ (i : Nat) (ins : Instruction), program[i]? = some ins → ins.ForwardAt i

/-- No instruction of the program is a jump. -/
def JumpFree (program : Program) : Prop :=
  ∀ ins ∈ program, ins.opcode.jumps = false

end Program

namespace Instruction

variable {ins : Instruction} {i j : Nat}

theorem LeadsTo.cases (h : ins.LeadsTo i j) :
    j = i + 1 ∨ ins.opcode.jumps = true ∧ ins.Names j := by
  unfold LeadsTo at h
  cases hop : ins.opcode with
  | jump =>
    rw [hop] at h
    exact .inr ⟨rfl, h⟩
  | jumpIf condition =>
    rw [hop] at h
    exact h.imp_right fun hnames => ⟨rfl, hnames⟩
  | push | arith _ | logic _ | compare _ | real _ | load | store | print =>
    rw [hop] at h
    exact .inl h

theorem LeadsTo.lt (h : ins.LeadsTo i j) (hforward : ins.ForwardAt i) : i < j := by
  rcases h.cases with rfl | ⟨hjumps, target, htarget, heq⟩
  · exact Nat.lt_succ_self i
  · have hnot := hforward hjumps target htarget
    omega

end Instruction

/-! ## Dispatches in order -/

/-- The index of the instruction that the event names as about to take effect. -/
def Event.dispatched? : Event → Option Nat
  | dispatch pc _ _ => some pc
  | runStart _ _ | trap _ | runComplete _ _ => none

theorem filterMap_dispatched?_event (ds : List Dispatch) :
    (ds.map Dispatch.event).filterMap Event.dispatched? = ds.map Dispatch.pc := by
  have hcomp : Event.dispatched? ∘ Dispatch.event = some ∘ Dispatch.pc := rfl
  rw [List.filterMap_map, hcomp, List.filterMap_eq_map]

namespace Path

variable {program : Program} {pc depth last size : Nat} {ds : List Dispatch}

/-- Along a path through a forward program the indices lie between its ends, and grow. -/
theorem increasing (hforward : program.Forward) (h : Path program pc depth ds last size) :
    pc ≤ last ∧ (∀ d ∈ ds, pc ≤ d.pc ∧ d.pc < last) ∧ (ds.map Dispatch.pc).Pairwise (· < ·) := by
  induction h with
  | nil => simp
  | @cons pc depth pc' depth' last size ins ds hp hnext _ _ ih =>
    obtain ⟨hle, hbetween, hpairwise⟩ := ih
    have hlt : pc < pc' := hnext.lt (hforward pc ins hp)
    refine ⟨by omega, ?_, ?_⟩
    · rw [List.forall_mem_cons]
      exact ⟨⟨Nat.le_refl _, Nat.lt_of_lt_of_le hlt hle⟩, fun d hd => by
        have := hbetween d hd
        omega⟩
    · rw [List.map_cons, List.pairwise_cons]
      refine ⟨fun k hk => ?_, hpairwise⟩
      obtain ⟨d, hd, rfl⟩ := List.mem_map.1 hk
      exact Nat.lt_of_lt_of_le hlt (hbetween d hd).1

end Path

namespace Machine

variable {program : Program} {n : Nat} {m m' s : Machine} {ins : Instruction}

theorem Progress.ReachedBy.increasing {p : Progress} {pc depth : Nat} {ds : List Dispatch}
    (hforward : program.Forward) (h : ReachedBy program pc depth ds p) :
    (ds.map Dispatch.pc).Pairwise (· < ·) := by
  cases p with
  | finished s => exact (Path.increasing hforward h).2.2
  | running s => exact (Path.increasing hforward h).2.2
  | trapped trap s =>
    rcases h with ⟨-, hpath⟩ | ⟨-, before, d, rfl, hpath, -⟩
    · exact (hpath.increasing hforward).2.2
    · -- The dispatch that faulted stands behind all others.
      obtain ⟨-, hbetween, hpairwise⟩ := hpath.increasing hforward
      rw [List.map_append, List.pairwise_append]
      refine ⟨hpairwise, List.pairwise_singleton _ _, fun k hk k' hk' => ?_⟩
      obtain ⟨e, he, rfl⟩ := List.mem_map.1 hk
      rw [List.map_singleton, List.mem_singleton] at hk'
      rw [hk']
      exact (hbetween e he).2

/-- The events of a run name the indices of its dispatches, and no others. -/
theorem exists_dispatches_trace (program : Program) (fuel : Nat) (m : Machine) :
    ∃ ds : List Dispatch, (run program fuel m).ReachedBy program 0 m.stack.size ds ∧
      (trace program fuel m).toList.filterMap Event.dispatched? = ds.map Dispatch.pc := by
  obtain ⟨ds, htrace, -, hreached⟩ := exists_dispatches program fuel #[] m.start
  refine ⟨ds, hreached, ?_⟩
  have hending : (resume program fuel m.start).ending.filterMap Event.dispatched? = [] := by
    cases resume program fuel m.start <;> rfl
  rw [toList_trace, List.filterMap_cons_none rfl, htrace, List.filterMap_append, hending,
    List.append_nil]
  exact filterMap_dispatched?_event ds

theorem dispatchesAt_eq_count (k : Nat) (log : Array Event) :
    Event.dispatchesAt k log = (log.toList.filterMap Event.dispatched?).count k := by
  rw [List.count, List.countP_filterMap]
  refine List.countP_congr fun e _ => ?_
  cases e <;> simp [Event.isDispatchAt, Event.dispatched?]

/-- The log of any number of steps names the instructions of a forward program in order. -/
theorem dispatched_increasing (hforward : program.Forward) (fuel : Nat) (m : Machine) :
    ((trace program fuel m).toList.filterMap Event.dispatched?).Pairwise (· < ·) := by
  obtain ⟨ds, hreached, htrace⟩ := exists_dispatches_trace program fuel m
  rw [htrace]
  exact hreached.increasing hforward

/-! ## Termination -/

/-- Every instruction of a forward program leads further on. -/
theorem pc_lt_of_step_ok (hforward : program.Forward) (hp : program[m.pc]? = some ins)
    (hs : step program.size ins m = .ok () m') : m.pc < m'.pc :=
  ((effect_of_step_ok hs).leadsTo rfl).lt (hforward m.pc ins hp)

theorem Reaches.add_le_pc (hforward : program.Forward) (h : Reaches program n m s) :
    m.pc + n ≤ s.pc := by
  induction h with
  | refl m => exact Nat.le_refl _
  | step hp hs _ ih =>
    have := pc_lt_of_step_ok hforward hp hs
    omega

/-- A forward program ends within as many steps as it has instructions. -/
theorem ended_of_forward (hforward : program.Forward) (m : Machine) :
    (run program program.size m).Ended := by
  by_contra hnot
  obtain ⟨s, hs⟩ := Progress.not_ended_iff.1 hnot
  obtain ⟨hreach, ins, hp⟩ := resume_eq_running_iff.1 hs
  -- After so many steps there is no instruction left at which the run could stand.
  have hge := hreach.add_le_pc hforward
  obtain ⟨hlt, -⟩ := Array.getElem?_eq_some_iff.1 hp
  omega

theorem Reaches.pc_eq_of_jumpFree (hfree : program.JumpFree) (h : Reaches program n m s) :
    s.pc = m.pc + n := by
  induction h with
  | refl m => rfl
  | @step n m m' s ins hp hs _ ih =>
    have hjumps : ins.opcode.jumps = false := hfree ins (Array.mem_of_getElem? hp)
    rcases ((effect_of_step_ok hs).leadsTo (i := m.pc) rfl).cases with hnext | ⟨htrue, -⟩
    · omega
    · rw [hjumps] at htrue
      cases htrue

/-! ## The theorem -/

/-- A program without backward jumps always ends, when there is no step limit: it finishes or traps, after
at most as many steps as it has instructions. Its log names instructions in the order of the program, so
that none is named twice. If it has no jumps at all and finishes, it has carried out every instruction. -/
theorem run_forward_ends (program : Program) (m : Machine) (hforward : program.Forward)
    (hfree : m.config.stepLimit = none) :
    (∃ p, Ends program m p ∧ p.machine.steps ≤ program.size) ∧
    (∀ fuel, ((trace program fuel m).toList.filterMap Event.dispatched?).Pairwise (· < ·) ∧
      ∀ k, Event.dispatchesAt k (trace program fuel m) ≤ 1) ∧
    (program.JumpFree → ∀ s, Ends program m (.finished s) → s.steps = program.size) := by
  refine ⟨?_, fun fuel => ?_, fun hjumps s hs => ?_⟩
  · have hended := ended_of_forward hforward m
    obtain ⟨n, hle, hafter⟩ := exists_endsAfter hended
    refine ⟨_, ⟨hended, program.size, rfl⟩, ?_⟩
    rw [steps_of_endsAfter hfree hafter]
    exact hle
  · have hincreasing := dispatched_increasing hforward fuel m
    refine ⟨hincreasing, fun k => ?_⟩
    rw [dispatchesAt_eq_count]
    exact List.nodup_iff_count.1 (hincreasing.imp Nat.ne_of_lt) k
  · obtain ⟨n, hreach, -⟩ := ends_finished_iff.1 hs
    have hpc := hreach.pc_eq_of_jumpFree hjumps
    have hsteps := hreach.counters.2
    have hend := pc_of_ends_finished hs
    have hstart : m.start.pc = 0 ∧ m.start.steps = 0 := ⟨rfl, rfl⟩
    omega

/-- A branch that is not taken, and then a jump to a negative index, which is no way back. -/
theorem run_forward_ends_out :
    ∃ s, Ends #[⟨.push, some (.boolean false)⟩, ⟨.jumpIf true, some (.integer 3)⟩,
          ⟨.jump, some (.integer (-1))⟩] (new {} (.zeros 0) .silent)
        (.trapped { pc := 2, opcode := .jump, fault := .invalidJump (-1) 3 } s) ∧
      s.steps ≤ 3 ∧
      ((trace #[⟨.push, some (.boolean false)⟩, ⟨.jumpIf true, some (.integer 3)⟩,
          ⟨.jump, some (.integer (-1))⟩] 3 (new {} (.zeros 0) .silent)).toList.filterMap
        Event.dispatched?).Pairwise (· < ·) := by
  have hforward : Program.Forward #[⟨.push, some (.boolean false)⟩,
      ⟨.jumpIf true, some (.integer 3)⟩, ⟨.jump, some (.integer (-1))⟩] := by
    intro i ins hp hjumps target htarget
    match i with
    | 0 | 1 | 2 =>
      cases hp
      cases htarget <;> decide
    | i + 3 => simp at hp
  obtain ⟨⟨p, hends, hsteps⟩, htrace, -⟩ :=
    run_forward_ends _ (new {} (.zeros 0) .silent) hforward rfl
  have htrap : Ends #[⟨.push, some (.boolean false)⟩, ⟨.jumpIf true, some (.integer 3)⟩,
      ⟨.jump, some (.integer (-1))⟩] (new {} (.zeros 0) .silent)
      (.trapped { pc := 2, opcode := .jump, fault := .invalidJump (-1) 3 } _) := ⟨trivial, 3, rfl⟩
  obtain rfl := hends.unique htrap
  exact ⟨_, htrap, hsteps, (htrace 3).1⟩

end Machine

end StackMachine
