-- SUMMARY: Every cell of a memory holds what was written to it last, across the runs of a session.
import StackMachine.Proofs.Session
import StackMachine.Proofs.Writes

/-!
# The history of a memory

A memory outlives the runs and the machines that use it. What it holds is told by the writes of its
session, the host's own and those of store instructions: every cell has the value of the last write to
it, or its first value if there was none. That is what a load finds, in whatever run it is made.
-/

namespace StackMachine

theorem Machine.machine_resume_zero (program : Program) (m : Machine) :
    (resume program 0 m).machine = m := by
  cases hp : program[m.pc]? with
  | none =>
    rw [resume_of_end 0 hp]
    rfl
  | some ins =>
    rw [resume_zero hp]
    rfl

theorem Machine.get?_of_poke_ok {m m' : Machine} {index v : Int32} (h : m.poke index v = .ok m')
    (i : Nat) :
    m'.memory.get? i = if index.toInt.toNat = i then some v else m.memory.get? i := by
  unfold poke at h
  cases hstore : m.memory.store index v with
  | error fault =>
    rw [hstore] at h
    cases h
  | ok memory =>
    rw [hstore] at h
    cases h
    exact (Memory.get?_of_store_ok hstore).2 i

namespace Session

/-! ## Writes of a session -/

/-- What an act writes: a store of the host writes if it does not fault, and carrying a run on by one
instruction writes what the instruction does, if that does not fault. -/
def written? (s : Session) : Act → Option Write
  | .store index value =>
    match s.machine.poke index value with
    | .ok _ => some { cell := index.toInt.toNat, value }
    | .error _ => none
  | .step =>
    match s.progress with
    | .running m =>
      match s.program[m.pc]? with
      | some ins =>
        match Machine.step s.program.size ins m with
        | .ok _ _ => Machine.written? ins m
        | .error _ _ => none
      | none => none
    | .finished _ | .trapped _ _ => none
  | .run _ | .renew _ _ => none

/-- The writes of acts that follow one another, in order. -/
def writes (s : Session) : List Act → List Write
  | [] => []
  | a :: acts => (s.written? a).toList ++ writes (s.act a) acts

/-! ## One act -/

section OneAct

variable {s : Session} {m m' : Machine} {ins : Instruction} {fault : Fault} {index v : Int32}

/-- A store of the host that faults changes nothing. -/
theorem act_store_of_error (h : s.machine.poke index v = .error fault) :
    s.act (.store index v) = s := by
  simp only [act, h]

theorem machine_act_store_of_ok (h : s.machine.poke index v = .ok m) :
    (s.act (.store index v)).machine = m := by
  simp only [act, h]
  exact Machine.Progress.machine_map _ _

theorem written?_store_of_error (h : s.machine.poke index v = .error fault) :
    s.written? (.store index v) = none := by
  simp only [written?, h]

theorem written?_store_of_ok (h : s.machine.poke index v = .ok m) :
    s.written? (.store index v) = some { cell := index.toInt.toNat, value := v } := by
  simp only [written?, h]

theorem memory_act_run (program : Program) :
    (s.act (.run program)).machine.memory = s.machine.memory := by
  have h := Machine.machine_resume_zero program s.machine.start
  have hmemory : s.machine.start.memory = s.machine.memory := rfl
  rw [← hmemory, ← h]
  rfl

theorem machine_act_step_of_ok (hr : s.progress = .running m) (hp : s.program[m.pc]? = some ins)
    (hs : Machine.step s.program.size ins m = .ok () m') : (s.act .step).machine = m' := by
  simp only [act, machine, hr, Machine.Progress.resume, Machine.resume_succ_of_ok 0 hp hs,
    Machine.machine_resume_zero]

/-- An instruction that faults ends the run with a trap. -/
theorem progress_act_step_of_error (hr : s.progress = .running m)
    (hp : s.program[m.pc]? = some ins)
    (hs : Machine.step s.program.size ins m = .error fault m') :
    (s.act .step).progress = .trapped { pc := m.pc, opcode := ins.opcode, fault } m' := by
  simp only [act, hr, Machine.Progress.resume, Machine.resume_succ_of_error 0 hp hs]

theorem written?_step_of_ok (hr : s.progress = .running m) (hp : s.program[m.pc]? = some ins)
    (hs : Machine.step s.program.size ins m = .ok () m') :
    s.written? .step = Machine.written? ins m := by
  simp only [written?, hr, hp, hs]

theorem written?_step_of_error (hr : s.progress = .running m) (hp : s.program[m.pc]? = some ins)
    (hs : Machine.step s.program.size ins m = .error fault m') : s.written? .step = none := by
  simp only [written?, hr, hp, hs]

end OneAct

/-- After an act each cell holds what the act writes to it, or else what it held before. -/
theorem get?_act (s : Session) (a : Act) (i : Nat) :
    (s.act a).machine.memory.get? i =
      (lastWrite? (s.written? a).toList i).or (s.machine.memory.get? i) := by
  cases a with
  | run program => exact congrArg (·.get? i) (memory_act_run program)
  | renew config output => rfl
  | store index v =>
    cases hpoke : s.machine.poke index v with
    | error fault =>
      rw [act_store_of_error hpoke, written?_store_of_error hpoke]
      rfl
    | ok m =>
      rw [machine_act_store_of_ok hpoke, written?_store_of_ok hpoke, Option.toList_some,
        lastWrite?_singleton, Machine.get?_of_poke_ok hpoke]
      split <;> rfl
  | step =>
    cases hr : s.progress with
    | finished m => simp [act, written?, hr, machine, Machine.Progress.resume, lastWrite?]
    | trapped trap m => simp [act, written?, hr, machine, Machine.Progress.resume, lastWrite?]
    | running m =>
      have hmachine : s.machine = m := by rw [machine, hr]; rfl
      cases hp : s.program[m.pc]? with
      | none =>
        simp [act, written?, hr, hp, machine, Machine.Progress.resume, Machine.resume_of_end 1 hp,
          lastWrite?, Machine.Progress.machine]
      | some ins =>
        cases hs : Machine.step s.program.size ins m with
        | ok u m' =>
          rw [machine_act_step_of_ok hr hp hs, written?_step_of_ok hr hp hs, hmachine]
          exact Machine.get?_memory_of_step_ok hs i
        | error fault m' =>
          rw [machine, progress_act_step_of_error hr hp hs, written?_step_of_error hr hp hs, hmachine]
          exact congrArg (·.get? i) (Machine.memory_of_step_error hs)

/-- An act leaves every cell alone that it does not write. -/
theorem get?_act_of_not_written {s : Session} {a : Act} {i : Nat}
    (h : ∀ w, s.written? a = some w → w.cell ≠ i) :
    (s.act a).machine.memory.get? i = s.machine.memory.get? i := by
  rw [get?_act, lastWrite?_toList_of_ne h]
  rfl

/-! ## Whole sessions -/

/-- At every moment each cell holds what was last written to it, or else what it held at first. -/
theorem Leads.get?_memory {s t : Session} {acts : List Act} (h : Leads s acts t) (i : Nat) :
    t.machine.memory.get? i = (lastWrite? (s.writes acts) i).or (s.machine.memory.get? i) := by
  induction h with
  | refl s => rfl
  | @next s t a acts ha _ ih =>
    rw [ih, get?_act, writes, lastWrite?_append, Option.or_assoc]

/-- Loads see the last store. At every moment of a session a cell holds what was last written to it, by
a store instruction that was carried out or by the host, and its first value if it was never written.
That is the value that a load pushes. An act that does not write a cell leaves it alone, and nothing is
written by stores that fault, by traps, by the start of a run or by a new machine. -/
theorem leads_load_last_write (config : Config) (memory : Memory) (output : Output)
    (acts : List Act) (t : Session) (h : Leads (start config memory output) acts t) :
    (∀ i, t.machine.memory.get? i =
      if i < memory.size then
        (lastWrite? ((start config memory output).writes acts) i).or (memory.get? i)
      else none) ∧
    (∀ m ins m', t.progress = .running m → t.program[m.pc]? = some ins → ins.opcode = .load →
      Machine.step t.program.size ins m = .ok () m' →
      ∃ (i : Nat) (v : Int32), ins.Names i ∧
        (lastWrite? ((start config memory output).writes acts) i).or (memory.get? i) = some v ∧
        m'.stack.values = m.stack.values.push (.integer v)) ∧
    (∀ a i, (∀ w, t.written? a = some w → w.cell ≠ i) →
      (t.act a).machine.memory.get? i = t.machine.memory.get? i) ∧
    (∀ index v fault, t.machine.poke index v = .error fault → t.act (.store index v) = t) ∧
    (∀ m ins fault m', t.progress = .running m → t.program[m.pc]? = some ins →
      Machine.step t.program.size ins m = .error fault m' →
      (t.act .step).progress = .trapped { pc := m.pc, opcode := ins.opcode, fault } m' ∧
        m'.memory = m.memory) ∧
    (∀ program, (t.act (.run program)).machine.memory = t.machine.memory) ∧
    ∀ config output, (t.act (.renew config output)).machine.memory = t.machine.memory := by
  refine ⟨?_, ?_, ?_, ?_, ?_, memory_act_run, fun _ _ => rfl⟩
  · intro i
    split
    · exact h.get?_memory i
    · rename_i hi
      apply Memory.get?_of_size_le
      rw [((sound_start config memory output).leads h).machine.cells]
      exact Nat.le_of_not_lt hi
  · intro m ins m' hr hp hop hs
    obtain ⟨i, v, hnames, hv, hstack⟩ := Machine.pushed_of_load_ok hop hs
    refine ⟨i, v, hnames, ?_, hstack⟩
    have hcell := h.get?_memory i
    rw [machine, hr] at hcell
    exact hcell.symm.trans hv
  · intro a i hw
    exact get?_act_of_not_written hw
  · intro index v fault hpoke
    exact act_store_of_error hpoke
  · intro m ins fault m' hr hp hs
    exact ⟨progress_act_step_of_error hr hp hs, Machine.memory_of_step_error hs⟩

/-- The host stores into one cell and fails to store before the first. A run stores into the other
cell and then traps at a store behind the last. A new machine finds both values. -/
theorem leads_load_after_trap :
    ∃ (t : Session) (m m' : Machine),
      Leads (start {} (.zeros 2) .silent)
        [.store 1 7, .store (-1) 8,
          .run #[⟨.push, some (.integer 3)⟩, ⟨.store, some (.integer 0)⟩,
            ⟨.push, some (.integer 9)⟩, ⟨.store, some (.integer 2)⟩],
          .step, .step, .step, .step, .renew {} .silent,
          .run #[⟨.load, some (.integer 0)⟩, ⟨.load, some (.integer 1)⟩], .step] t ∧
      t.progress = .running m ∧ t.program[m.pc]? = some ⟨.load, some (.integer 1)⟩ ∧
      Machine.step t.program.size ⟨.load, some (.integer 1)⟩ m = .ok () m' ∧
      m'.stack.values = m.stack.values.push (.integer 7) ∧
      t.machine.memory.get? 0 = some 3 ∧ t.machine.memory.get? 2 = none := by
  let host : Session := ((start {} (.zeros 2) .silent).act (.store 1 7)).act (.store (-1) 8)
  have hfirst : Leads host _ _ := leads_run (by trivial)
    #[⟨.push, some (.integer 3)⟩, ⟨.store, some (.integer 0)⟩, ⟨.push, some (.integer 9)⟩,
      ⟨.store, some (.integer 2)⟩] 4
  have ht := Leads.next (s := start {} (.zeros 2) .silent) (a := .store 1 7) trivial
    (.next (a := .store (-1) 8) trivial (hfirst.append (.next (a := .renew {} .silent) trivial
      (leads_run (by trivial) #[⟨.load, some (.integer 0)⟩, ⟨.load, some (.integer 1)⟩] 1))))
  obtain ⟨hcells, hload, -⟩ := leads_load_last_write _ _ _ _ _ ht
  obtain ⟨i, v, ⟨n, hn, hi⟩, hv, hstack⟩ :=
    hload _ ⟨.load, some (.integer 1)⟩ _ rfl rfl rfl rfl
  cases hn
  obtain rfl : i = 1 := Int.ofNat.inj hi.symm
  obtain rfl : v = 7 := (Option.some.inj hv).symm
  exact ⟨_, _, _, ht, rfl, rfl, rfl, hstack, hcells 0, hcells 2⟩

end Session

end StackMachine
