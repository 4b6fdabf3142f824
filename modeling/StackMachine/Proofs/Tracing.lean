-- SUMMARY: The events of a run tell its whole course.
import Mathlib.Algebra.Ring.Int.Defs
import StackMachine.Event
import StackMachine.Proofs.Writes

/-!
# Logs of runs

The events of a run tell its whole course. Between its start and its end they name the instructions in
the order in which they are carried out: each leads to the next as its opcode and operand say, and the
stack grows from one to the next by the fixed effect of the opcode. An instruction that faults is the
last one named, unless it was the step limit that stopped the run before it.
-/

namespace StackMachine

/-! ## Paths through a program -/

/-- By how much an opcode makes the stack grow. -/
def Opcode.growth : Opcode → Int
  | push | load => 1
  | arith _ | logic _ | compare _ | store | jumpIf _ | print => -1
  | real _ | jump => 0

/-- The instruction at index `i` may lead to index `j`: the one that a jump names, or else the one that
follows. A conditional jump may lead to either. -/
def Instruction.LeadsTo (ins : Instruction) (i j : Nat) : Prop :=
  match ins.opcode with
  | .jump => ins.Names j
  | .jumpIf _ => j = i + 1 ∨ ins.Names j
  | .push | .arith _ | .logic _ | .compare _ | .real _ | .load | .store | .print => j = i + 1

/-- An instruction about to take effect: its index and the size of the stack that it finds. -/
structure Dispatch where
  pc : Nat
  instruction : Instruction
  depth : Nat
  deriving DecidableEq, Repr

def Dispatch.event (d : Dispatch) : Event :=
  .dispatch d.pc d.instruction d.depth

/-- Dispatches that follow one another through a program, from an index and a size of the stack to
others. -/
inductive Path (program : Program) : Nat → Nat → List Dispatch → Nat → Nat → Prop where
  | nil (pc depth : Nat) : Path program pc depth [] pc depth
  | cons {pc depth pc' depth' last size : Nat} {ins : Instruction} {ds : List Dispatch}
      (hp : program[pc]? = some ins) (hnext : ins.LeadsTo pc pc')
      (hdepth : (depth' : Int) = depth + ins.opcode.growth)
      (h : Path program pc' depth' ds last size) :
      Path program pc depth ({ pc, instruction := ins, depth } :: ds) last size

namespace Path

variable {program : Program} {pc depth last size : Nat} {ds : List Dispatch}

/-- Every dispatch of a path is one of an instruction of the program. -/
theorem instruction_eq (h : Path program pc depth ds last size) :
    ∀ d ∈ ds, program[d.pc]? = some d.instruction := by
  induction h with
  | nil => simp
  | cons hp _ _ _ ih => exact List.forall_mem_cons.2 ⟨hp, ih⟩

/-- Along a path the stack grows by the sum of the effects. -/
theorem size_eq (h : Path program pc depth ds last size) :
    (size : Int) = depth + (ds.map fun d => d.instruction.opcode.growth).sum := by
  induction h with
  | nil => simp
  | cons _ _ hdepth _ ih =>
    rw [ih, hdepth, List.map_cons, List.sum_cons, Int.add_assoc]

end Path

namespace Machine

variable {length : Nat} {program : Program} {ins : Instruction} {m m' : Machine}

/-! ## One step -/

theorem Effect.leadsTo {i : Nat} (h : Effect length ins m m') (hm : m.pc = i + 1) :
    ins.LeadsTo i m'.pc := by
  unfold Instruction.LeadsTo
  cases h with
  | @jump target hop htarget hvalid =>
    rw [hop]
    exact ⟨target, htarget, (Int.toNat_of_nonneg hvalid.1).symm⟩
  | @branch condition target rest hop htarget _ hvalid =>
    rw [hop]
    exact .inr ⟨target, htarget, (Int.toNat_of_nonneg hvalid.1).symm⟩
  | pass hop =>
    rw [hop]
    exact .inl hm
  | push hop | arith hop | logic hop | compare hop | real hop | load hop | store hop | print hop =>
    rw [hop]
    exact hm

theorem Effect.size_stack (h : Effect length ins m m') :
    (m'.stack.size : Int) = m.stack.size + ins.opcode.growth := by
  have hsize := Stack.length_topDown m.stack
  cases h with
  | push hop | load hop =>
    simp only [hop, size_withTop, List.length_cons, hsize, Opcode.growth]
    rfl
  | jump hop => simp only [hop, Opcode.growth, Int.add_zero]
  | arith hop htop | logic hop htop | compare hop htop =>
    simp only [htop, List.length_cons] at hsize
    simp only [hop, size_withTop, List.length_cons, Opcode.growth]
    omega
  | real hop htop | store hop _ htop | branch hop _ htop | pass hop _ htop | print hop htop =>
    simp only [htop, List.length_cons] at hsize
    simp only [hop, size_withTop, List.length_cons, Opcode.growth]
    omega

/-- A step that succeeds continues a path. -/
theorem path_cons_of_step_ok {ds : List Dispatch} {last size : Nat} (hp : program[m.pc]? = some ins)
    (hs : step program.size ins m = .ok () m')
    (h : Path program m'.pc m'.stack.size ds last size) :
    Path program m.pc m.stack.size
      ({ pc := m.pc, instruction := ins, depth := m.stack.size } :: ds) last size := by
  have heffect := effect_of_step_ok hs
  exact .cons hp (heffect.leadsTo rfl) heffect.size_stack h

theorem belowLimit_iff : m.belowLimit = true ↔ m.BelowLimit := by
  simp [belowLimit, BelowLimit, Option.all_eq_true]

section Equations

variable (fuel : Nat) (log : Array Event)

theorem traceFrom_of_end (h : program[m.pc]? = none) :
    traceFrom program fuel log m = log.push (.runComplete m.steps m.stack.size) := by
  unfold traceFrom
  simp only [h]

theorem traceFrom_zero (h : program[m.pc]? = some ins) : traceFrom program 0 log m = log := by
  unfold traceFrom
  simp only [h]

theorem traceFrom_succ_of_ok (h : program[m.pc]? = some ins)
    (hs : step program.size ins m = .ok () m') :
    traceFrom program (fuel + 1) log m =
      traceFrom program fuel (log.push (.dispatch m.pc ins m.stack.size)) m' := by
  have hbelow := belowLimit_iff.2 (belowLimit_of_step_ok hs)
  rw [traceFrom]
  simp only [h, hs, hbelow, if_true]

theorem traceFrom_succ_of_error {fault : Fault} (h : program[m.pc]? = some ins)
    (hs : step program.size ins m = .error fault m') :
    traceFrom program (fuel + 1) log m =
      (if m.belowLimit then log.push (.dispatch m.pc ins m.stack.size) else log).push
        (.trap { pc := m.pc, opcode := ins.opcode, fault }) := by
  rw [traceFrom]
  simp only [h, hs]

end Equations

/-! ## Many steps -/

/-- A log is only added to, and what is added does not depend on it. -/
theorem traceFrom_eq_append (program : Program) (fuel : Nat) (log : Array Event) (m : Machine) :
    traceFrom program fuel log m = log ++ traceFrom program fuel #[] m := by
  fun_induction resume program fuel m generalizing log with
  | case1 fuel m hp =>
    rw [traceFrom_of_end fuel log hp, traceFrom_of_end fuel #[] hp]
    simp
  | case2 m ins hp =>
    rw [traceFrom_zero log hp, traceFrom_zero #[] hp]
    simp
  | case3 m ins hp fuel pc m' hs ih =>
    rw [traceFrom_succ_of_ok fuel log hp hs, traceFrom_succ_of_ok fuel #[] hp hs, ih (log.push _),
      ih (#[].push _)]
    simp
  | case4 m ins hp fuel pc fault m' hs =>
    rw [traceFrom_succ_of_error fuel log hp hs, traceFrom_succ_of_error fuel #[] hp hs]
    split <;> simp [← Array.toList_inj]

theorem toList_trace (program : Program) (fuel : Nat) (m : Machine) :
    (trace program fuel m).toList =
      .runStart program.size m.stack.size :: (traceFrom program fuel #[] m.start).toList := by
  rw [trace, traceFrom_eq_append]
  simp

/-- Once a run is over, no event is added. -/
theorem traceFrom_of_ended {fuel more : Nat} (hle : fuel ≤ more)
    (h : (resume program fuel m).Ended) (log : Array Event) :
    traceFrom program more log m = traceFrom program fuel log m := by
  obtain ⟨extra, rfl⟩ := Nat.exists_eq_add_of_le hle
  clear hle
  fun_induction resume program fuel m generalizing log with
  | case1 fuel m hp => rw [traceFrom_of_end _ log hp, traceFrom_of_end fuel log hp]
  | case2 m ins hp => exact h.elim
  | case3 m ins hp fuel pc m' hs ih =>
    rw [Nat.succ_add, traceFrom_succ_of_ok _ log hp hs, traceFrom_succ_of_ok fuel log hp hs]
    exact ih h _
  | case4 m ins hp fuel pc fault m' hs =>
    rw [Nat.succ_add, traceFrom_succ_of_error _ log hp hs, traceFrom_succ_of_error fuel log hp hs]

/-- The events of a run do not depend on how many steps it is given, as long as they suffice. -/
theorem trace_of_ended {fuel more : Nat} (h : (run program fuel m).Ended)
    (h' : (run program more m).Ended) : trace program more m = trace program fuel m := by
  rcases Nat.le_total fuel more with hle | hle
  · exact traceFrom_of_ended hle h _
  · exact (traceFrom_of_ended hle h' _).symm

namespace Progress

/-- The event that reports the end of a run, if it is over. -/
def ending : Progress → List Event
  | finished s => [.runComplete s.steps s.stack.size]
  | trapped trap _ => [.trap trap]
  | running _ => []

/-- The dispatches lead from an index and a size of the stack to where the run is. One that traps has
the faulting instruction as its last dispatch, unless it met the step limit, which is found before the
dispatch. -/
def ReachedBy (program : Program) (pc depth : Nat) (ds : List Dispatch) : Progress → Prop
  | finished s | running s => Path program pc depth ds s.pc s.stack.size
  | trapped trap s =>
    ((∃ limit, trap.fault = .stepLimitExceeded limit) ∧
        Path program pc depth ds trap.pc s.stack.size) ∨
      (∀ limit, trap.fault ≠ .stepLimitExceeded limit) ∧
        ∃ before d, ds = before ++ [d] ∧ Path program pc depth before d.pc d.depth ∧
          program[d.pc]? = some d.instruction ∧ d.pc = trap.pc ∧ d.instruction.opcode = trap.opcode

theorem ReachedBy.cons {p : Progress} {ds : List Dispatch} (hp : program[m.pc]? = some ins)
    (hs : step program.size ins m = .ok () m') (h : ReachedBy program m'.pc m'.stack.size ds p) :
    ReachedBy program m.pc m.stack.size
      ({ pc := m.pc, instruction := ins, depth := m.stack.size } :: ds) p := by
  cases p with
  | finished s => exact path_cons_of_step_ok hp hs h
  | running s => exact path_cons_of_step_ok hp hs h
  | trapped trap s =>
    rcases h with ⟨hlimit, hpath⟩ | ⟨hfault, before, d, rfl, hpath, hd⟩
    · exact .inl ⟨hlimit, path_cons_of_step_ok hp hs hpath⟩
    · exact .inr ⟨hfault, _ :: before, d, rfl, path_cons_of_step_ok hp hs hpath, hd⟩

/-- Every dispatch is one of an instruction of the program. -/
theorem ReachedBy.instruction_eq {p : Progress} {pc depth : Nat} {ds : List Dispatch}
    (h : ReachedBy program pc depth ds p) : ∀ d ∈ ds, program[d.pc]? = some d.instruction := by
  cases p with
  | finished s => exact Path.instruction_eq h
  | running s => exact Path.instruction_eq h
  | trapped trap s =>
    rcases h with ⟨-, hpath⟩ | ⟨-, before, d, rfl, hpath, hins, -⟩
    · exact hpath.instruction_eq
    · intro d' hd'
      rcases List.mem_append.1 hd' with hmem | hmem
      · exact hpath.instruction_eq d' hmem
      · rw [List.mem_singleton.1 hmem]
        exact hins

end Progress

/-- A step that faults is dispatched if it is below the limit, and then it is the last dispatch. -/
theorem trapped_reachedBy {fault : Fault} (hp : program[m.pc]? = some ins)
    (hs : step program.size ins m = .error fault m') :
    ∃ ds : List Dispatch,
      (∀ fuel log, (traceFrom program (fuel + 1) log m).toList = log.toList ++ ds.map Dispatch.event ++
        [.trap { pc := m.pc, opcode := ins.opcode, fault }]) ∧
      m'.steps = m.steps + ds.length ∧
      Progress.ReachedBy program m.pc m.stack.size ds
        (.trapped { pc := m.pc, opcode := ins.opcode, fault } m') := by
  by_cases hbelow : m.BelowLimit
  · refine ⟨[{ pc := m.pc, instruction := ins, depth := m.stack.size }], ?_, ?_, .inr ⟨?_, ?_⟩⟩
    · intro fuel log
      rw [traceFrom_succ_of_error fuel log hp hs, if_pos (belowLimit_iff.2 hbelow)]
      simp [Dispatch.event]
    · exact (counters_of_step_error hbelow hs).2
    · rw [step_of_belowLimit hbelow] at hs
      exact (remains_of_execute_error hs).2
    · exact ⟨[], _, rfl, .nil _ _, hp, rfl, rfl⟩
  · obtain ⟨limit, hl, hle⟩ := not_belowLimit_iff.1 hbelow
    have hs' := hs
    rw [step_of_limit_le hl hle] at hs'
    cases hs'
    refine ⟨[], ?_, rfl, .inl ⟨⟨limit, rfl⟩, .nil _ _⟩⟩
    intro fuel log
    rw [traceFrom_succ_of_error fuel log hp hs, if_neg (fun h => hbelow (belowLimit_iff.1 h))]
    simp

/-- What any number of steps adds to a log: the dispatches that lead to where the run is, and how it
ended if it is over. -/
theorem exists_dispatches (program : Program) (fuel : Nat) (log : Array Event) (m : Machine) :
    ∃ ds : List Dispatch,
      (traceFrom program fuel log m).toList =
        log.toList ++ ds.map Dispatch.event ++ (resume program fuel m).ending ∧
      (resume program fuel m).machine.steps = m.steps + ds.length ∧
      (resume program fuel m).ReachedBy program m.pc m.stack.size ds := by
  fun_induction resume program fuel m generalizing log with
  | case1 fuel m hp =>
    refine ⟨[], ?_, rfl, .nil _ _⟩
    rw [traceFrom_of_end fuel log hp]
    simp [Progress.ending]
  | case2 m ins hp =>
    refine ⟨[], ?_, rfl, .nil _ _⟩
    rw [traceFrom_zero log hp]
    simp [Progress.ending]
  | case3 m ins hp fuel pc m' hs ih =>
    obtain ⟨ds, htrace, hsteps, hreached⟩ := ih (log.push (.dispatch m.pc ins m.stack.size))
    refine ⟨{ pc := m.pc, instruction := ins, depth := m.stack.size } :: ds, ?_, ?_,
      hreached.cons hp hs⟩
    · rw [traceFrom_succ_of_ok fuel log hp hs, htrace]
      simp [Dispatch.event]
    · rw [hsteps, (counters_of_step_ok hs).2, List.length_cons]
      omega
  | case4 m ins hp fuel pc fault m' hs =>
    obtain ⟨ds, htrace, hsteps, hreached⟩ := trapped_reachedBy hp hs
    exact ⟨ds, htrace fuel log, hsteps, hreached⟩

/-! ## The theorem -/

/-- The events of a run that ends are its log. They begin with the start, name one instruction for each
step counted, and close with how the run ended. The instructions named are those of the program, on a
path from its first one: through to the end of the program with the stack grown by the sum of their
effects, up to the instruction before which the step limit stopped the run, or up to the one that
faulted, which is then the last one named. -/
theorem trace_logs_run (program : Program) (m : Machine) (fuel : Nat) (p : Progress)
    (hrun : run program fuel m = p) (hended : p.Ended) :
    ∃ (ds : List Dispatch) (last : Event),
      (trace program fuel m).toList =
        .runStart program.size m.stack.size :: ds.map Dispatch.event ++ [last] ∧
      ds.length = p.machine.steps ∧
      (∀ d ∈ ds, program[d.pc]? = some d.instruction ∧
        d.event.fields = [("pc", d.pc.repr), ("instruction", d.instruction.render),
          ("depth", d.depth.repr)]) ∧
      (∀ s, p = .finished s →
        last = .runComplete s.steps s.stack.size ∧
        Path program 0 m.stack.size ds program.size s.stack.size ∧
        (s.stack.size : Int) = m.stack.size + (ds.map fun d => d.instruction.opcode.growth).sum) ∧
      ∀ trap s, p = .trapped trap s →
        last = .trap trap ∧
        last.fields = [("pc", trap.pc.repr), ("opcode", trap.opcode.mnemonic),
          ("fault", trap.fault.message)] ∧
        ((∃ limit, trap.fault = .stepLimitExceeded limit) →
          Path program 0 m.stack.size ds trap.pc s.stack.size) ∧
        ((∀ limit, trap.fault ≠ .stepLimitExceeded limit) →
          ∃ before d, ds = before ++ [d] ∧ Path program 0 m.stack.size before d.pc d.depth ∧
            d.pc = trap.pc ∧ d.instruction.opcode = trap.opcode) := by
  obtain ⟨ds, htrace, hsteps, hreached⟩ :=
    exists_dispatches program fuel #[.runStart program.size m.stack.size] m.start
  have hresume : resume program fuel m.start = p := hrun
  rw [hresume] at htrace hsteps hreached
  have hlength : ds.length = p.machine.steps := by
    rw [hsteps]
    exact (Nat.zero_add _).symm
  have hinstructions : ∀ d ∈ ds, program[d.pc]? = some d.instruction ∧
      d.event.fields = [("pc", d.pc.repr), ("instruction", d.instruction.render),
        ("depth", d.depth.repr)] := fun d hd => ⟨hreached.instruction_eq d hd, rfl⟩
  cases p with
  | finished s =>
    have hpath : Path program 0 m.stack.size ds program.size s.stack.size := by
      rw [← pc_of_ends_finished ⟨trivial, fuel, hrun⟩]
      exact hreached
    refine ⟨ds, _, htrace, hlength, hinstructions, ?_, ?_⟩
    · intro s' heq
      cases heq
      exact ⟨rfl, hpath, hpath.size_eq⟩
    · intro trap s' heq
      cases heq
  | trapped trap s =>
    refine ⟨ds, _, htrace, hlength, hinstructions, ?_, ?_⟩
    · intro s' heq
      cases heq
    · intro trap' s' heq
      cases heq
      refine ⟨rfl, rfl, ?_, ?_⟩
      · rintro ⟨limit, hlimit⟩
        rcases hreached with ⟨-, hpath⟩ | ⟨hfault, -⟩
        · exact hpath
        · exact absurd hlimit (hfault limit)
      · intro hfault
        rcases hreached with ⟨⟨limit, hlimit⟩, -⟩ | ⟨-, before, d, hds, hpath, -, hd⟩
        · exact absurd hlimit (hfault limit)
        · exact ⟨before, d, hds, hpath, hd⟩
  | running s => exact hended.elim

/-- A loop that the step limit stops in its second round: three dispatches, and a trap at the jump that
would have come next. -/
theorem trace_limited_loop :
    ∃ (s : Machine) (ds : List Dispatch),
      run #[⟨.push, some (.boolean true)⟩, ⟨.jumpIf true, some (.integer 0)⟩] 4
          (new { stepLimit := some 3 } (.zeros 0) .silent) =
        .trapped { pc := 1, opcode := .jumpIf true, fault := .stepLimitExceeded 3 } s ∧
      (trace #[⟨.push, some (.boolean true)⟩, ⟨.jumpIf true, some (.integer 0)⟩] 4
          (new { stepLimit := some 3 } (.zeros 0) .silent)).toList =
        .runStart 2 0 :: ds.map Dispatch.event ++
          [.trap { pc := 1, opcode := .jumpIf true, fault := .stepLimitExceeded 3 }] ∧
      ds.length = 3 ∧
      Path #[⟨.push, some (.boolean true)⟩, ⟨.jumpIf true, some (.integer 0)⟩] 0 0 ds 1 1 := by
  have hrun : run #[⟨.push, some (.boolean true)⟩, ⟨.jumpIf true, some (.integer 0)⟩] 4
      (new { stepLimit := some 3 } (.zeros 0) .silent) =
    .trapped { pc := 1, opcode := .jumpIf true, fault := .stepLimitExceeded 3 } _ := rfl
  obtain ⟨ds, last, htrace, hlength, -, -, htrapped⟩ := trace_logs_run _ _ _ _ hrun trivial
  obtain ⟨rfl, -, hlimit, -⟩ := htrapped _ _ rfl
  exact ⟨_, ds, hrun, htrace, hlength, hlimit ⟨3, rfl⟩⟩

end Machine

end StackMachine
