-- SUMMARY: The limits of the machine hold throughout the sessions of a host.
import StackMachine.Proofs.Trap

/-!
# Sessions

What a host does with a memory over time: it runs programs one after the other, stores into cells
between the runs, and replaces the machine. The limits of the machine hold at every moment of a
session, in the middle of runs as well, whether the runs before it ended or trapped. What a machine
has captured is never taken back.
-/

namespace StackMachine

/-! ## Acts of a host -/

inductive Act where
  /-- Begin to run a program. -/
  | run (program : Program)
  /-- Carry the run on by one instruction, if it is not over. -/
  | step
  /-- Store into a cell from outside a run. -/
  | store (index value : Int32)
  /-- Replace the machine by a new one over the same memory. -/
  | renew (config : Config) (output : Output)
  deriving DecidableEq, Repr

/-- A moment of a session: the latest program of the machine, and how far its run has come. A machine
that has run nothing is at the end of the empty program. -/
structure Session where
  program : Program
  progress : Machine.Progress

namespace Session

/-- The machine as it is at this moment. -/
def machine (s : Session) : Machine :=
  s.progress.machine

/-- The first moment of a session. -/
def start (config : Config) (memory : Memory) (output : Output) : Session :=
  { program := #[], progress := .finished (.new config memory output) }

/-- The moment after an act. A store that faults changes nothing. -/
def act (s : Session) : Act → Session
  | .run program => { program, progress := Machine.run program 0 s.machine }
  | .step => { s with progress := s.progress.resume s.program 1 }
  | .store index value =>
    match s.machine.poke index value with
    | .ok m => { s with progress := s.progress.map fun _ => m }
    | .error _ => s
  | .renew config output =>
    { program := #[], progress := .finished (s.machine.renew config output) }

/-- A store changes one cell of the memory, or nothing. -/
theorem act_store_cases (s : Session) (index v : Int32) :
    s.act (.store index v) = s ∨
      ∃ memory, s.machine.memory.store index v = .ok memory ∧
        s.act (.store index v) =
          { s with progress := s.progress.map fun m => { m with memory } } := by
  obtain ⟨program, progress⟩ := s
  cases hstore : progress.machine.memory.store index v with
  | ok memory =>
    refine .inr ⟨memory, hstore, ?_⟩
    simp only [act, machine, Machine.poke, hstore]
    cases progress <;> rfl
  | error fault =>
    refine .inl ?_
    simp only [act, machine, Machine.poke, hstore]
    rfl

/-- A run can always be carried on. For anything else the host waits until it is over. -/
def Allows (s : Session) : Act → Prop
  | .step => True
  | .run _ | .store _ _ | .renew _ _ => s.progress.Ended

/-- Acts that follow one another lead from one moment to another. -/
inductive Leads : Session → List Act → Session → Prop where
  | refl (s : Session) : Leads s [] s
  | next {s t : Session} {a : Act} {acts : List Act} (ha : s.Allows a) (h : Leads (s.act a) acts t) :
      Leads s (a :: acts) t

theorem Leads.append {s t u : Session} {acts later : List Act} (h : Leads s acts t)
    (h' : Leads t later u) : Leads s (acts ++ later) u := by
  induction h with
  | refl s => exact h'
  | next ha _ ih => exact .next ha (ih h')

/-- What every act preserves holds at every later moment. -/
theorem Leads.invariant {I : Session → Prop} {s t : Session} {acts : List Act}
    (hact : ∀ s a, a ∈ acts → s.Allows a → I s → I (s.act a)) (h : Leads s acts t) (hs : I s) :
    I t := by
  induction h with
  | refl s => exact hs
  | next ha _ ih =>
    apply ih
    · intro s a hmem
      exact hact s a (List.mem_cons_of_mem _ hmem)
    · exact hact _ _ List.mem_cons_self ha hs

/-- Carrying a run on as often as it takes is running the program. -/
theorem leads_run {s : Session} (h : s.progress.Ended) (program : Program) (fuel : Nat) :
    Leads s (.run program :: List.replicate fuel .step)
      { program, progress := Machine.run program fuel s.machine } := by
  refine Leads.next (a := .run program) h ?_
  -- The run is carried on from wherever it is, so its beginning is generalized.
  have hsteps : ∀ k, Leads { program, progress := Machine.run program k s.machine }
      (List.replicate fuel .step)
      { program, progress := Machine.run program (k + fuel) s.machine } := by
    induction fuel with
    | zero =>
      intro k
      exact .refl _
    | succ fuel ih =>
      intro k
      refine .next trivial ?_
      have hone : Machine.run program (k + 1) s.machine =
          (Machine.run program k s.machine).resume program 1 := Machine.resume_add program k 1 _
      have hrest := ih (k + 1)
      rw [hone, Nat.add_right_comm, Nat.add_assoc] at hrest
      exact hrest
  have hall := hsteps 0
  rw [Nat.zero_add] at hall
  exact hall

end Session

/-! ## Limits of a machine -/

namespace Machine

/-- The machine keeps to its limits, stands in a program of the given length or at its end, and has a
memory of so many cells. -/
structure Sound (cells length : Nat) (m : Machine) : Prop where
  limit : m.stack.limit = m.config.maxStack
  size_le : m.stack.size ≤ m.stack.limit
  cells : m.memory.size = cells
  pc_le : m.pc ≤ length
  steps_le : ∀ l, m.config.stepLimit = some l → m.steps ≤ l

variable {cells length : Nat} {program : Program} {ins : Instruction} {m m' : Machine}

theorem sound_new (config : Config) (memory : Memory) (output : Output) :
    Sound memory.size 0 (new config memory output) where
  limit := rfl
  size_le := Nat.zero_le _
  cells := rfl
  pc_le := Nat.le_refl 0
  steps_le _ _ := Nat.zero_le _

namespace Sound

theorem start (h : Sound cells length m) (length' : Nat) : Sound cells length' m.start :=
  { h with pc_le := Nat.zero_le _, steps_le := fun _ _ => Nat.zero_le _ }

theorem step_ok (h : Sound cells program.size m) (hp : program[m.pc]? = some ins)
    (hs : step program.size ins m = .ok () m') : Sound cells program.size m' := by
  obtain ⟨hlt, -⟩ := Array.getElem?_eq_some_iff.1 hp
  obtain ⟨hconfig, hsteps⟩ := counters_of_step_ok hs
  have heffect := effect_of_step_ok hs
  refine ⟨?_, ?_, ?_, ?_, ?_⟩
  · rw [heffect.limit, hconfig]
    exact h.limit
  · exact heffect.size_le h.size_le
  · rw [heffect.size_memory]
    exact h.cells
  · exact heffect.pc_le hlt
  · intro l hl
    rw [hconfig] at hl
    rw [hsteps]
    exact belowLimit_of_step_ok hs l hl

/-- A step that faults is counted only if it was below the limit. -/
theorem step_error {fault : Fault} (h : Sound cells program.size m) (hp : program[m.pc]? = some ins)
    (hs : step program.size ins m = .error fault m') : Sound cells program.size m' := by
  obtain ⟨hlt, -⟩ := Array.getElem?_eq_some_iff.1 hp
  obtain ⟨steps, hremains, -⟩ := remains_of_step_error hs
  obtain ⟨taken, -, htaken⟩ := hremains.stack
  refine ⟨?_, ?_, ?_, ?_, ?_⟩
  · rw [hremains.limit, hremains.config]
    exact h.limit
  · have hsize : m.stack.size = taken.length + m'.stack.size := by
      rw [← Stack.length_topDown, ← Stack.length_topDown, ← List.length_append, ← htaken]
    have hle := h.size_le
    rw [hremains.limit]
    exact Nat.le_trans (by omega) hle
  · rw [hremains.memory]
    exact h.cells
  · rw [hremains.pc]
    exact hlt
  · intro l hl
    rw [hremains.config] at hl
    by_cases hbelow : m.BelowLimit
    · rw [(counters_of_step_error hbelow hs).2]
      exact hbelow l hl
    · obtain ⟨limit, hlimit, hle⟩ := not_belowLimit_iff.1 hbelow
      rw [step_of_limit_le hlimit hle] at hs
      cases hs
      exact h.steps_le l hl

theorem withMemory {memory : Memory} (h : Sound cells length m)
    (hmemory : memory.size = m.memory.size) : Sound cells length { m with memory } :=
  { h with cells := hmemory.trans h.cells }

theorem resume (h : Sound cells program.size m) (fuel : Nat) :
    Sound cells program.size (resume program fuel m).machine := by
  refine machine_resume_invariant (I := Sound cells program.size) ?_ ?_ fuel h
  · intro m m' ins hm hp hs
    exact hm.step_ok hp hs
  · intro m m' ins fault hm hp hs
    exact hm.step_error hp hs

/-- A run that finishes stands exactly at the end of the program. -/
theorem pc_of_finished {fuel : Nat} (h : Sound cells program.size m)
    (hr : Machine.resume program fuel m = .finished m') : m'.pc = program.size := by
  obtain ⟨n, -, hend⟩ := exists_resume_eq_finished_iff.1 ⟨fuel, hr⟩
  have hsound := h.resume fuel
  rw [hr] at hsound
  exact Nat.le_antisymm hsound.pc_le (Array.getElem?_eq_none_iff.1 hend)

end Sound

end Machine

/-! ## Captured text -/

namespace Output

/-- What `o` has captured is the beginning of what `o'` has captured. -/
def Extends (o o' : Output) : Prop :=
  ∃ more, o'.captured = o.captured ++ more

theorem Extends.refl (o : Output) : Extends o o :=
  ⟨"", String.append_empty.symm⟩

theorem Extends.trans {o o' o'' : Output} (h : Extends o o') (h' : Extends o' o'') :
    Extends o o'' := by
  obtain ⟨more, hmore⟩ := h
  obtain ⟨more', hmore'⟩ := h'
  exact ⟨more ++ more', by rw [hmore', hmore, String.append_assoc]⟩

theorem extends_of_println_ok {line : String} {o o' : Output} {u : Unit}
    (h : println line o = .ok u o') : Extends o o' := by
  cases o with
  | buffer text =>
    cases h
    exact ⟨line ++ "\n", String.append_assoc⟩
  | silent =>
    cases h
    exact .refl _
  | stdout text =>
    cases h
    exact ⟨"", rfl⟩
  | writer sink =>
    simp only [println] at h
    split at h
    · cases h
      exact ⟨"", rfl⟩
    · cases h

end Output

theorem Machine.Effect.extends {length : Nat} {ins : Instruction} {m m' : Machine}
    (h : Effect length ins m m') : m.output.Extends m'.output := by
  rcases h.output with heq | ⟨line, hline⟩
  · rw [heq]
    exact .refl _
  · exact Output.extends_of_println_ok hline

theorem Machine.extends_resume (program : Program) (fuel : Nat) (m : Machine) :
    m.output.Extends (resume program fuel m).machine.output := by
  refine machine_resume_invariant (I := fun s => m.output.Extends s.output) ?_ ?_ fuel (.refl _)
  · intro s s' ins hm hp hs
    exact hm.trans (effect_of_step_ok hs).extends
  · intro s s' ins fault hm hp hs
    obtain ⟨steps, hremains, -⟩ := remains_of_step_error hs
    exact hm.trans ⟨"", by rw [hremains.captured, String.append_empty]⟩

/-! ## Limits of a session -/

namespace Session

/-- The machine of the moment keeps to its limits, and where the run is over without a trap it is at
the end of its program. -/
structure Sound (cells : Nat) (s : Session) : Prop where
  machine : s.machine.Sound cells s.program.size
  finished : ∀ m, s.progress = .finished m → m.pc = s.program.size

variable {cells : Nat} {s : Session}

theorem sound_start (config : Config) (memory : Memory) (output : Output) :
    Sound memory.size (start config memory output) where
  machine := Machine.sound_new config memory output
  finished m h := by
    cases h
    rfl

theorem sound_resume {program : Program} {m : Machine} (h : m.Sound cells program.size)
    (fuel : Nat) : Sound cells { program, progress := Machine.resume program fuel m } where
  machine := h.resume fuel
  finished _ hr := h.pc_of_finished hr

theorem Sound.act (h : Sound cells s) (a : Act) : Sound cells (s.act a) := by
  obtain ⟨program, progress⟩ := s
  cases a with
  | run program => exact sound_resume (h.machine.start program.size) 0
  | step =>
    cases progress with
    | finished m => exact h
    | trapped trap m => exact h
    | running m => exact sound_resume h.machine 1
  | store index v =>
    rcases act_store_cases ⟨program, progress⟩ index v with heq | ⟨memory, hstore, heq⟩
    · rw [heq]
      exact h
    · have hmachine := h.machine.withMemory (Memory.size_of_store_ok hstore)
      rw [heq]
      cases progress with
      | finished m => exact ⟨hmachine, fun _ hm => by cases hm; exact h.finished m rfl⟩
      | trapped trap m => exact ⟨hmachine, nofun⟩
      | running m => exact ⟨hmachine, nofun⟩
  | renew config output =>
    rw [← h.machine.cells]
    exact sound_start config _ output

/-- Only a new machine captures from the beginning. -/
theorem extends_act {a : Act} (ha : ∀ config output, a ≠ .renew config output) :
    s.machine.output.Extends (s.act a).machine.output := by
  obtain ⟨program, progress⟩ := s
  cases a with
  | run program => exact Machine.extends_resume program 0 _
  | step =>
    cases progress with
    | finished m => exact .refl _
    | trapped trap m => exact .refl _
    | running m => exact Machine.extends_resume program 1 m
  | store index v =>
    rcases act_store_cases ⟨program, progress⟩ index v with heq | ⟨memory, -, heq⟩
    · rw [heq]
      exact .refl _
    · rw [heq]
      cases progress <;> exact .refl _
  | renew config output => exact absurd rfl (ha config output)

theorem Sound.leads {t : Session} {acts : List Act} (h : Sound cells s) (hacts : Leads s acts t) :
    Sound cells t := by
  refine hacts.invariant (I := Sound cells) ?_ h
  intro s a _ _ hs
  exact hs.act a

theorem Leads.extends {t : Session} {acts : List Act} (h : Leads s acts t)
    (hkeep : ∀ config output, .renew config output ∉ acts) :
    s.machine.output.Extends t.machine.output := by
  refine h.invariant (I := fun t => s.machine.output.Extends t.machine.output) ?_ (.refl _)
  intro t a hmem _ ht
  refine ht.trans (extends_act ?_)
  intro config output heq
  exact hkeep config output (heq ▸ hmem)

/-- At every moment of a session the stack fits the limit of the present machine, the memory has as
many cells as at first, the machine is in its latest program or at its end, and it has counted no more
steps than it may. After a run without a trap it is exactly at the end. As long as the machine is not
replaced, the text that it has captured only gets longer. -/
theorem leads_keeps_limits (config : Config) (memory : Memory) (output : Output) (acts : List Act)
    (s : Session) (h : Leads (start config memory output) acts s) :
    s.machine.stack.size ≤ s.machine.config.maxStack ∧
    s.machine.memory.size = memory.size ∧
    s.machine.pc ≤ s.program.size ∧
    (∀ limit, s.machine.config.stepLimit = some limit → s.machine.steps ≤ limit) ∧
    (∀ m, s.progress = .finished m → m.pc = s.program.size) ∧
    ∀ later t, Leads s later t → (∀ config output, .renew config output ∉ later) →
      ∃ more, t.machine.output.captured = s.machine.output.captured ++ more := by
  obtain ⟨hmachine, hfinished⟩ := (sound_start config memory output).leads h
  refine ⟨?_, hmachine.cells, hmachine.pc_le, hmachine.steps_le, hfinished, ?_⟩
  · rw [← hmachine.limit]
    exact hmachine.size_le
  · intro later t hlater hkeep
    exact hlater.extends hkeep

/-- A run that overflows the stack leaves its value to the next one, which prints it and ends. -/
theorem leads_overflow_then_print :
    ∃ s t : Session,
      Leads (start { maxStack := 1, stepLimit := some 2 } (.zeros 2) (.buffer ""))
        [.run #[⟨.push, some (.integer 5)⟩, ⟨.push, some (.integer 6)⟩], .step, .step] s ∧
      Leads s [.store 1 7, .run #[⟨.print, none⟩], .step] t ∧
      s.machine.stack.size = 1 ∧ s.machine.steps = 2 ∧ t.machine.output.captured = "5\n" ∧
      s.machine.stack.size ≤ s.machine.config.maxStack ∧ s.machine.pc ≤ s.program.size ∧
      (∀ limit, s.machine.config.stepLimit = some limit → s.machine.steps ≤ limit) ∧
      t.machine.memory.size = 2 ∧ t.machine.pc = t.program.size ∧
      ∃ more, t.machine.output.captured = s.machine.output.captured ++ more := by
  let s : Session :=
    { program := #[⟨.push, some (.integer 5)⟩, ⟨.push, some (.integer 6)⟩]
      progress := Machine.run #[⟨.push, some (.integer 5)⟩, ⟨.push, some (.integer 6)⟩] 2
        (.new { maxStack := 1, stepLimit := some 2 } (.zeros 2) (.buffer "")) }
  have hs : Leads (start _ _ _) _ s := leads_run (by trivial) _ 2
  have ht : Leads s [.store 1 7, .run #[⟨.print, none⟩], .step] _ :=
    .next trivial (leads_run (by trivial) _ 1)
  obtain ⟨hsize, -, hpc, hsteps, -, hgrows⟩ := leads_keeps_limits _ _ _ _ _ hs
  obtain ⟨-, hcells, -, -, hfinished, -⟩ := leads_keeps_limits _ _ _ _ _ (hs.append ht)
  exact ⟨_, _, hs, ht, rfl, rfl, rfl, hsize, hpc, hsteps, hcells, hfinished _ rfl,
    hgrows _ _ ht (by simp)⟩

end Session

end StackMachine
