-- SUMMARY: A jump to the next instruction can be inserted anywhere.
import StackMachine.Proofs.Cause
import StackMachine.Proofs.Linking
import StackMachine.Proofs.StepLimit
import StackMachine.Proofs.Tracing

/-!
# Inserted jumps

A jump to the following instruction can be inserted anywhere in a program, if the jumps beyond its place
are adapted. The longer program does what the shorter one does. Where the shorter one comes to the place
of the jump, the longer one makes the jump first, which changes nothing but the steps that are counted.
-/

namespace StackMachine

/-! ## Places -/

namespace Insertion

/-- The target of a jump after an insertion at `k`. A jump to `k` leads to what is inserted. -/
def target (k : Nat) (t : Int) : Int :=
  if k < t then t + 1 else t

/-- Where a run comes to that came to `i` before an insertion at `k`. -/
def arrival (k i : Nat) : Nat :=
  if i ≤ k then i else i + 1

/-- Where the instruction at `i` is after an insertion at `k`. -/
def position (k i : Nat) : Nat :=
  if i < k then i else i + 1

theorem position_succ (k i : Nat) : position k i + 1 = arrival k (i + 1) := by
  unfold position arrival
  split <;> split <;> omega

theorem position_ne (k i : Nat) : position k i ≠ k := by
  unfold position
  split <;> omega

theorem arrival_of_ne {k i : Nat} (h : i ≠ k) : arrival k i = position k i := by
  unfold arrival position
  split <;> split <;> omega

/-- A jump target is valid after the insertion if it was valid before, and leads to where the run then
comes. -/
theorem target_cases (k length : Nat) (t : Int) :
    (0 ≤ t ∧ t.toNat ≤ length ∧ 0 ≤ target k t ∧ (target k t).toNat ≤ length + 1 ∧
        (target k t).toNat = arrival k t.toNat) ∨
      ¬ (0 ≤ t ∧ t.toNat ≤ length) ∧
        (k ≤ length → ¬ (0 ≤ target k t ∧ (target k t).toNat ≤ length + 1)) := by
  unfold target arrival
  split <;> split <;> omega

end Insertion

open Insertion

/-- The fault that the instruction reports after an insertion at `k`. -/
def Fault.inserted (k : Nat) : Fault → Fault
  | invalidJump t length => invalidJump (target k t) (length + 1)
  | fault => fault

namespace Event

/-- Whether the event names the instruction at `k` as about to take effect. -/
def isDispatchAt (k : Nat) : Event → Bool
  | dispatch pc _ _ => pc = k
  | runStart _ _ | trap _ | runComplete _ _ => false

/-- How often a log names the instruction at `k`. -/
def dispatchesAt (k : Nat) (log : Array Event) : Nat :=
  log.toList.countP (isDispatchAt k)

end Event

/-- The instruction in a program with an insertion at `k`. -/
def Instruction.inserted (k : Nat) (ins : Instruction) : Instruction :=
  ins.retarget fun t => .ofInt (target k t.toInt)

/-- The jump at `k` that leads to the following instruction. -/
def Instruction.jumpOn (k : Nat) : Instruction :=
  { opcode := .jump, operand := some (.integer (.ofInt (k + 1))) }

namespace Program

/-- The program with a jump inserted at `k` that leads to the following instruction. -/
def insertJump (k : Nat) (program : Program) : Program :=
  ((program.toList.map (Instruction.inserted k)).insertIdx k (.jumpOn k)).toArray

/-- No jump target leaves the range of integers when it is moved by an insertion at `k`. -/
def Insertable (k : Nat) (program : Program) : Prop :=
  ∀ ins ∈ program, ins.opcode.jumps = true → ∀ t, ins.operand = some (.integer t) →
    k < t.toInt → t.toInt < Int32.maxValue.toInt

variable {program : Program} {k : Nat}

theorem size_insertJump (hk : k ≤ program.size) : (program.insertJump k).size = program.size + 1 := by
  simp [insertJump, List.length_insertIdx, hk]

theorem getElem?_insertJump_self (hk : k ≤ program.size) :
    (program.insertJump k)[k]? = some (.jumpOn k) := by
  simp [insertJump, List.getElem?_insertIdx, hk]

theorem getElem?_insertJump_position (k i : Nat) (program : Program) :
    (program.insertJump k)[position k i]? = program[i]?.map (Instruction.inserted k) := by
  simp only [insertJump, List.getElem?_toArray, List.getElem?_insertIdx]
  unfold position
  by_cases hi : i < k
  · simp [hi]
  · have hne : ¬ i + 1 = k := by omega
    have hlt : ¬ i + 1 < k := by omega
    simp [hi, hne, hlt]

end Program

namespace Machine

variable {program : Program} {k c : Nat} {m m' n : Machine} {ins : Instruction}

/-! ## Related machines -/

/-- The machine in the longer program, where it may stand before the inserted jump, with `c` more steps
counted. -/
def arrived (k c : Nat) (m : Machine) : Machine :=
  { m with pc := arrival k m.pc, steps := c + m.steps }

/-- The machine in the longer program, at the instruction that it is at in the shorter one. -/
def placed (k c : Nat) (m : Machine) : Machine :=
  { m with pc := position k m.pc, steps := c + m.steps }

/-- The second machine is the first one in the longer program. There is no step limit, so that neither
feels what it has counted. -/
def Arrived (k c : Nat) (m n : Machine) : Prop :=
  m.config.stepLimit = none ∧ n = m.arrived k c

theorem toInt_target {t : Int32} (h : k < t.toInt → t.toInt < Int32.maxValue.toInt) :
    (Int32.ofInt (target k t.toInt)).toInt = target k t.toInt := by
  have hlow := t.le_toInt
  have hhigh := t.toInt_lt
  rw [Int32.toInt_maxValue] at h
  unfold target
  split
  · exact Int32.toInt_ofInt_of_le (by omega) (by omega)
  · exact Int32.toInt_ofInt_of_le (by omega) (by omega)

theorem simulates_jumpTo_arrived {length : Nat} {t : Int32}
    (hfits : k < t.toInt → t.toInt < Int32.maxValue.toInt) :
    Simulates InvalidJump (Arrived k c) (jumpTo length t)
      (jumpTo (length + 1) (.ofInt (target k t.toInt))) := by
  rintro m _ ⟨hfree, rfl⟩
  simp only [jumpTo, toInt_target hfits]
  rcases target_cases k length t.toInt with ⟨hlow, hhigh, hlow', hhigh', hpc⟩ | ⟨hinvalid, -⟩
  · rw [hpc] at hhigh'
    simp only [hlow, hhigh, hlow', hpc, hhigh', and_self, if_true]
    exact .inr (.ok ⟨hfree, rfl⟩)
  · simp only [hinvalid, if_false]
    exact .inl ⟨_, _, rfl, _, _, rfl⟩

theorem simulation_arrived (length : Nat)
    (h : ins.opcode.jumps = true → ∀ t, ins.operand = some (.integer t) →
      k < t.toInt → t.toInt < Int32.maxValue.toInt) :
    Simulation InvalidJump (Arrived k c) length (length + 1) (fun t => .ofInt (target k t.toInt))
      ins :=
  simulation_elsewhere fun t hjumps ht => simulates_jumpTo_arrived (h hjumps t ht)

/-! ## Jumps that leave the program -/

section Leaving

variable {length length' : Nat} {t : Int32} (hinvalid : ¬ (0 ≤ t.toInt ∧ t.toInt.toNat ≤ length))
  (hstack : n.stack = m.stack)

include hinvalid hstack

/-- A conditional jump that leaves its program has taken its condition off the stack. So has another one
that leaves its own program, on a machine with the same stack. -/
theorem branch_of_invalidJump {t' : Int32} {condition : Bool}
    (hinvalid' : ¬ (0 ≤ t'.toInt ∧ t'.toInt.toNat ≤ length'))
    (h : (onStack Stack.popBoolean >>= fun b =>
        if b = condition then jumpTo length t else pure ()) m =
      .error (.invalidJump t.toInt length) m') :
    ∃ stack, m' = { m with stack } ∧
      (onStack Stack.popBoolean >>= fun b =>
          if b = condition then jumpTo length' t' else pure ()) n =
        .error (.invalidJump t'.toInt length') { n with stack } := by
  rcases Stack.takes_popBoolean.cases m.stack.topDown with
    hnil | ⟨b, rest, -, hfits⟩ | ⟨tag, v, rest, htag, hne, hunfit⟩
  · rw [← withTop_of_topDown hnil, takes_bind_empty Stack.takes_popBoolean] at h
    cases h
  · have hfits' : n.stack.topDown = .boolean b :: rest := by rw [hstack, hfits]
    rw [← withTop_of_topDown hfits, takes_bind_fits Stack.takes_popBoolean] at h
    refine ⟨Stack.ofTop rest m.stack.limit, ?_⟩
    rw [← withTop_of_topDown hfits', takes_bind_fits Stack.takes_popBoolean]
    split at h
    · rename_i heq
      simp only [jumpTo, hinvalid, if_false] at h
      cases h
      simp only [heq, if_true, jumpTo, hinvalid', if_false, withTop, hstack, and_self]
    · cases h
  · cases htag
    rw [← withTop_of_topDown hunfit, takes_bind_unfit Stack.takes_popBoolean _ hne] at h
    cases h

theorem execute_of_invalidJump (move : Int32 → Int32) (hjumps : ins.opcode.jumps = true)
    (ht : ins.operand = some (.integer t))
    (hinvalid' : ¬ (0 ≤ (move t).toInt ∧ (move t).toInt.toNat ≤ length'))
    (h : execute length ins m = .error (.invalidJump t.toInt length) m') :
    ∃ stack, m' = { m with stack } ∧
      execute length' (ins.retarget move) n =
        .error (.invalidJump (move t).toInt length') { n with stack } := by
  have hinteger : ins.requireInteger = .ok t := by simp only [Instruction.requireInteger, ht]
  unfold execute at h ⊢
  rw [ins.opcode_retarget, Instruction.requireInteger_retarget hjumps, hinteger]
  rw [hinteger] at h
  cases hop : ins.opcode with
  | jump =>
    simp only [hop, check, Bind.bind, EStateM.bind, jumpTo, hinvalid, if_false] at h
    cases h
    refine ⟨m.stack, rfl, ?_⟩
    simp only [check, Except.map, Bind.bind, EStateM.bind, jumpTo, hinvalid', if_false]
    rw [← hstack]
  | jumpIf condition =>
    simp only [hop] at h
    exact branch_of_invalidJump hinvalid hstack hinvalid' h
  | push | arith _ | logic _ | compare _ | real _ | load | store | print =>
    rw [hop] at hjumps
    cases hjumps

end Leaving

/-! ## Steps -/

theorem pc_placed_ne (k c : Nat) (m : Machine) : (m.placed k c).pc ≠ k :=
  position_ne k m.pc

theorem getElem?_insertJump_placed (program : Program) (k c : Nat) (m : Machine) :
    (program.insertJump k)[(m.placed k c).pc]? = program[m.pc]?.map (Instruction.inserted k) :=
  program.getElem?_insertJump_position k m.pc

theorem arrived_dispatched (hfree : m.config.stepLimit = none) :
    Arrived k c m.dispatched (m.placed k c).dispatched := by
  refine ⟨hfree, ?_⟩
  simp only [dispatched, placed, arrived, position_succ, Nat.add_assoc]

section Steps

variable {length : Nat} (hfree : m.config.stepLimit = none)
  (hins : ins.opcode.jumps = true → ∀ t, ins.operand = some (.integer t) →
    k < t.toInt → t.toInt < Int32.maxValue.toInt)

include hfree hins

/-- The instruction does in its new place what it did before. -/
theorem step_placed_of_ok (hs : step length ins m = .ok () m') :
    step (length + 1) (ins.inserted k) (m.placed k c) =
      .ok () (m'.arrived k c) := by
  have hfree' : (m.placed k c).config.stepLimit = none := hfree
  rw [step_of_belowLimit (belowLimit_of_unlimited hfree)] at hs
  rw [step_of_belowLimit (belowLimit_of_unlimited hfree')]
  obtain ⟨_, hs', -, rfl⟩ :=
    (simulation_arrived length hins).execute.of_ok (arrived_dispatched hfree) hs
  exact hs'

theorem step_placed_of_error {fault : Fault} (hk : k ≤ length)
    (hs : step length ins m = .error fault m') :
    step (length + 1) (ins.inserted k) (m.placed k c) =
      .error (fault.inserted k) (m'.arrived k c) := by
  have hfree' : (m.placed k c).config.stepLimit = none := hfree
  rw [step_of_belowLimit (belowLimit_of_unlimited hfree)] at hs
  rw [step_of_belowLimit (belowLimit_of_unlimited hfree')]
  obtain ⟨-, hdispatched⟩ := arrived_dispatched (k := k) (c := c) hfree
  have hcause := faultsIn_execute length ins _ _ _ hs
  cases hcause with
  | @invalidJump t hjumps ht hinvalid =>
    have hfits := toInt_target (hins hjumps t ht)
    have hinvalid' : ¬ (0 ≤ (Int32.ofInt (target k t.toInt)).toInt ∧
        (Int32.ofInt (target k t.toInt)).toInt.toNat ≤ length + 1) := by
      rw [hfits]
      rcases target_cases k length t.toInt with ⟨hlow, hhigh, -⟩ | ⟨-, hleft⟩
      · exact absurd ⟨hlow, hhigh⟩ hinvalid
      · exact hleft hk
    have hstack : (m.placed k c).dispatched.stack = m.dispatched.stack := rfl
    obtain ⟨stack, rfl, hs'⟩ := execute_of_invalidJump hinvalid hstack
      (fun t => .ofInt (target k t.toInt)) hjumps ht hinvalid' hs
    rw [hfits] at hs'
    rw [hdispatched] at hs' ⊢
    exact hs'
  | _ =>
    -- Only jumps that leave the program are excused from the simulation.
    obtain ⟨_, hs', -, rfl⟩ := (simulation_arrived length hins).execute.of_error
      (arrived_dispatched (c := c) hfree) hs (by rintro ⟨t, l, heq⟩; cases heq)
    exact hs'

end Steps

/-! ## Dispatches of one instruction -/

/-- How often the events of at most `fuel` steps name the instruction at `k`. -/
def visits (program : Program) (k fuel : Nat) (m : Machine) : Nat :=
  Event.dispatchesAt k (traceFrom program fuel #[] m)

theorem dispatchesAt_trace (program : Program) (k fuel : Nat) (m : Machine) :
    Event.dispatchesAt k (trace program fuel m) = visits program k fuel m.start := by
  simp [visits, toList_trace, Event.dispatchesAt, Event.isDispatchAt]

theorem visits_of_end (fuel : Nat) (h : program[m.pc]? = none) : visits program k fuel m = 0 := by
  unfold visits
  rw [traceFrom_of_end fuel #[] h]
  simp [Event.dispatchesAt, Event.isDispatchAt]

theorem visits_succ_of_ok (fuel : Nat) (h : program[m.pc]? = some ins)
    (hs : step program.size ins m = .ok () m') :
    visits program k (fuel + 1) m = (if m.pc = k then 1 else 0) + visits program k fuel m' := by
  unfold visits
  rw [traceFrom_succ_of_ok fuel #[] h hs, traceFrom_eq_append]
  by_cases hpc : m.pc = k
  · simp [Event.dispatchesAt, Event.isDispatchAt, hpc, Nat.add_comm]
  · simp [Event.dispatchesAt, Event.isDispatchAt, hpc]

theorem visits_succ_of_error {fault : Fault} (fuel : Nat) (h : program[m.pc]? = some ins)
    (hs : step program.size ins m = .error fault m') (hpc : m.pc ≠ k) :
    visits program k (fuel + 1) m = 0 := by
  unfold visits
  rw [traceFrom_succ_of_error fuel #[] h hs]
  split
  · simp [Event.dispatchesAt, Event.isDispatchAt, hpc]
  · simp [Event.dispatchesAt, Event.isDispatchAt]

/-- `n` instructions lead from one machine to another, and `v` of them are the one at `k`. -/
structure Passes (program : Program) (k n v : Nat) (m s : Machine) : Prop where
  reaches : Reaches program n m s
  visits : ∀ fuel, visits program k (n + fuel) m = v + visits program k fuel s

namespace Passes

variable {s s' : Machine} {i j v w : Nat}

theorem refl (m : Machine) : Passes program k 0 0 m m where
  reaches := .refl m
  visits fuel := by rw [Nat.zero_add, Nat.zero_add]

theorem one (hp : program[m.pc]? = some ins) (hs : step program.size ins m = .ok () m') :
    Passes program k 1 (if m.pc = k then 1 else 0) m m' where
  reaches := .step hp hs (.refl m')
  visits fuel := by rw [Nat.add_comm 1 fuel, visits_succ_of_ok fuel hp hs]

theorem trans (h : Passes program k i v m s) (h' : Passes program k j w s s') :
    Passes program k (i + j) (v + w) m s' where
  reaches := h.reaches.trans h'.reaches
  visits fuel := by rw [Nat.add_assoc, h.visits, h'.visits, Nat.add_assoc]

end Passes

/-! ## Runs -/

section Runs

variable (hk : k ≤ program.size) (hsize : program.size + 1 ≤ Int32.maxValue.toInt)

include hk hsize

/-- A machine that stands before the inserted jump makes it. -/
theorem step_insertedJump (hfree : m.config.stepLimit = none) (hpc : m.pc = k) :
    step (program.insertJump k).size (.jumpOn k) (m.arrived k c) =
      .ok () (m.placed k (c + 1)) := by
  have hfree' : (m.arrived k c).config.stepLimit = none := hfree
  rw [Int32.toInt_maxValue] at hsize
  have htarget : (Int32.ofInt (k + 1)).toInt = k + 1 :=
    Int32.toInt_ofInt_of_le (by omega) (by omega)
  have hvalid : 0 ≤ (k + 1 : Int) ∧ (k + 1 : Int).toNat ≤ program.size + 1 := by omega
  rw [step_of_belowLimit (belowLimit_of_unlimited hfree'), Program.size_insertJump hk]
  simp only [Instruction.jumpOn, execute, Instruction.requireInteger, check, Bind.bind, EStateM.bind,
    jumpTo, htarget, hvalid, and_self, if_true]
  have hpc' : (k + 1 : Int).toNat = position k m.pc := by
    unfold position
    split <;> omega
  have hsteps : c + m.steps + 1 = c + 1 + m.steps := by omega
  simp only [dispatched, arrived, placed, hpc', hsteps]

/-- In the longer program a run comes to the instruction that it comes to in the shorter one, over the
inserted jump if that is in the way. -/
theorem passes_arrived (hfree : m.config.stepLimit = none) :
    ∃ v, Passes (program.insertJump k) k v v (m.arrived k c) (m.placed k (c + v)) := by
  by_cases hpc : m.pc = k
  · have hat : (m.arrived k c).pc = k := by simp [arrived, arrival, hpc]
    have hp : (program.insertJump k)[(m.arrived k c).pc]? = some (.jumpOn k) := by
      rw [hat]
      exact Program.getElem?_insertJump_self hk
    have hpass := Passes.one (k := k) hp (step_insertedJump hk hsize hfree hpc)
    rw [if_pos hat] at hpass
    exact ⟨1, hpass⟩
  · have heq : m.arrived k c = m.placed k c := by simp only [arrived, placed, arrival_of_ne hpc]
    exact ⟨0, heq ▸ .refl _⟩

variable (hinsert : program.Insertable k)

include hinsert

theorem Reaches.passes_placed {j : Nat} {s : Machine} (h : Reaches program j m s)
    (hfree : m.config.stepLimit = none) :
    ∃ v, Passes (program.insertJump k) k (j + v) v (m.placed k c) (s.placed k (c + v)) := by
  induction h generalizing c with
  | refl m => exact ⟨0, .refl _⟩
  | @step j m m' s ins hp hs _ ih =>
    have hfree' : m'.config.stepLimit = none := by rw [(counters_of_step_ok hs).1, hfree]
    have hins := hinsert ins (Array.mem_of_getElem? hp)
    have hp' := getElem?_insertJump_placed program k c m
    have hs' := step_placed_of_ok (c := c) hfree hins hs
    rw [hp] at hp'
    rw [← Program.size_insertJump hk] at hs'
    have hstep := Passes.one (k := k) hp' hs'
    rw [if_neg (pc_placed_ne k c m)] at hstep
    -- The instruction, then the inserted jump if it comes next, then the rest of the run.
    obtain ⟨v, hcross⟩ := passes_arrived (c := c) hk hsize hfree'
    obtain ⟨w, hrest⟩ := ih (c := c + v) hfree'
    refine ⟨v + w, ?_⟩
    have hpass := (hstep.trans hcross).trans hrest
    rw [Nat.zero_add, Nat.add_assoc c] at hpass
    have hlength : 1 + v + (j + w) = j + 1 + (v + w) := by omega
    rw [hlength] at hpass
    exact hpass

/-- A run of the longer program goes side by side with one of the shorter. -/
theorem Reaches.passes_insertJump {j : Nat} {s : Machine} (h : Reaches program j m.start s)
    (hfree : m.config.stepLimit = none) :
    ∃ v, Passes (program.insertJump k) k (j + v) v m.start (s.placed k v) := by
  have hstart : m.start.arrived k 0 = m.start := by
    simp only [arrived, start, arrival, Nat.zero_le, if_true, Nat.zero_add]
  obtain ⟨v, hcross⟩ := passes_arrived (c := 0) hk hsize (m := m.start) hfree
  obtain ⟨w, hrest⟩ := h.passes_placed (c := 0 + v) hk hsize hinsert hfree
  have hpass := hcross.trans hrest
  have hlength : v + (j + w) = j + (v + w) := by omega
  rw [hstart, hlength, Nat.zero_add] at hpass
  exact ⟨v + w, hpass⟩

/-- If the longer program ends, so does the shorter one. -/
theorem ended_of_insertJump {fuel : Nat} (hfree : m.config.stepLimit = none)
    (h : (run (program.insertJump k) fuel m).Ended) : (run program fuel m).Ended := by
  cases hrun : run program fuel m with
  | finished s => exact trivial
  | trapped trap s => exact trivial
  | running s =>
    -- The longer program takes at least as many steps to where the shorter one still is.
    obtain ⟨hreach, ins, hp⟩ := resume_eq_running_iff.1 hrun
    obtain ⟨v, hpass⟩ := hreach.passes_insertJump hk hsize hinsert hfree
    have hp' := getElem?_insertJump_placed program k v s
    rw [hp] at hp'
    have hrunning := resume_eq_running_iff.2 ⟨hpass.reaches, _, hp'⟩
    rw [resume_of_ended (Nat.le_add_right fuel v) h] at hrunning
    have hended : (Progress.running (s.placed k v)).Ended := hrunning ▸ h
    exact hended.elim

theorem exists_run_insertJump_of_finished {s : Machine} (hfree : m.config.stepLimit = none)
    (h : Ends program m (.finished s)) :
    ∃ fuel, run (program.insertJump k) fuel m =
      .finished { s with
        pc := program.size + 1
        steps := s.steps + Event.dispatchesAt k (trace (program.insertJump k) fuel m) } := by
  obtain ⟨j, hreach, hend⟩ := ends_finished_iff.1 h
  obtain ⟨v, hpass⟩ := hreach.passes_insertJump hk hsize hinsert hfree
  have hend' := getElem?_insertJump_placed program k v s
  rw [hend] at hend'
  have hvisits : visits (program.insertJump k) k (j + v) m.start = v := by
    rw [← Nat.add_zero (j + v), hpass.visits 0, visits_of_end 0 hend', Nat.add_zero]
  have hpc : position k s.pc = program.size + 1 := by
    rw [pc_of_ends_finished h, position, if_neg (Nat.not_lt_of_le hk)]
  refine ⟨j + v, ?_⟩
  rw [dispatchesAt_trace, hvisits, run, ← Nat.add_zero (j + v), hpass.reaches.resume_add,
    resume_of_end 0 hend']
  simp only [placed, hpc, Nat.add_comm]

theorem exists_run_insertJump_of_trapped {trap : Trap} {s : Machine}
    (hfree : m.config.stepLimit = none) (h : Ends program m (.trapped trap s)) :
    ∃ fuel, run (program.insertJump k) fuel m =
      .trapped { trap with pc := position k trap.pc, fault := trap.fault.inserted k }
        { s with
          pc := position k trap.pc + 1
          steps := s.steps + Event.dispatchesAt k (trace (program.insertJump k) fuel m) } := by
  obtain ⟨j, r, ins, hreach, hp, hs, hpc, hopcode⟩ := ends_trapped_iff.1 h
  obtain ⟨v, hpass⟩ := hreach.passes_insertJump hk hsize hinsert hfree
  have hfree' : r.config.stepLimit = none := by rw [hreach.counters.1]; exact hfree
  have hp' := getElem?_insertJump_placed program k v r
  rw [hp] at hp'
  have hs' := step_placed_of_error (c := v) hfree' (hinsert ins (Array.mem_of_getElem? hp)) hk hs
  rw [← Program.size_insertJump hk] at hs'
  have hvisits : visits (program.insertJump k) k (j + v + 1) m.start = v := by
    rw [hpass.visits 1, visits_succ_of_error 0 hp' hs' (pc_placed_ne k v r), Nat.add_zero]
  have hspc : s.pc = trap.pc + 1 := by
    rw [step_of_belowLimit (belowLimit_of_unlimited hfree')] at hs
    rw [(remains_of_execute_error hs).1.pc, hpc]
    rfl
  refine ⟨j + v + 1, ?_⟩
  rw [dispatchesAt_trace, hvisits, run, hpass.reaches.resume_add, resume_succ_of_error 0 hp' hs',
    position_succ, ← hspc]
  simp only [arrived, placed, hpc, hopcode, Instruction.inserted, Instruction.opcode_retarget,
    Nat.add_comm]

end Runs

/-! ## The theorem -/

/-- A jump to the following instruction can be inserted at any place `k`, even at the end, when there is
no step limit and the targets that move stay integers. The longer program ends if and only if the
shorter one does, with the same stack, memory and output. It finishes if the shorter one finishes. If
that traps, it traps at the same instruction with the same fault, except that a jump out of the program
tells its moved target and the new length. The steps grow by the number of times that the log names the
inserted jump. -/
theorem run_insertJump (program : Program) (k : Nat) (m : Machine) (hk : k ≤ program.size)
    (hsize : program.size + 1 ≤ Int32.maxValue.toInt) (hinsert : program.Insertable k)
    (hfree : m.config.stepLimit = none) :
    ((∃ p, Ends program m p) ↔ ∃ p, Ends (program.insertJump k) m p) ∧
    ∀ fuel, (run (program.insertJump k) fuel m).Ended →
      (∀ s, Ends program m (.finished s) →
        run (program.insertJump k) fuel m =
          .finished { s with
            pc := program.size + 1
            steps := s.steps + Event.dispatchesAt k (trace (program.insertJump k) fuel m) }) ∧
      ∀ trap s, Ends program m (.trapped trap s) →
        run (program.insertJump k) fuel m =
          .trapped
            { pc := if trap.pc < k then trap.pc else trap.pc + 1
              opcode := trap.opcode
              fault := trap.fault.inserted k }
            { s with
              pc := (if trap.pc < k then trap.pc else trap.pc + 1) + 1
              steps := s.steps + Event.dispatchesAt k (trace (program.insertJump k) fuel m) } := by
  refine ⟨⟨?_, ?_⟩, fun fuel hended => ⟨?_, ?_⟩⟩
  · rintro ⟨p, hp⟩
    cases p with
    | finished s =>
      obtain ⟨fuel, h⟩ := exists_run_insertJump_of_finished hk hsize hinsert hfree hp
      exact ⟨_, h ▸ trivial, fuel, rfl⟩
    | trapped trap s =>
      obtain ⟨fuel, h⟩ := exists_run_insertJump_of_trapped hk hsize hinsert hfree hp
      exact ⟨_, h ▸ trivial, fuel, rfl⟩
    | running s => exact hp.1.elim
  · rintro ⟨p, hended, fuel, rfl⟩
    exact ⟨_, ended_of_insertJump hk hsize hinsert hfree hended, fuel, rfl⟩
  · intro s hp
    obtain ⟨more, h⟩ := exists_run_insertJump_of_finished hk hsize hinsert hfree hp
    have hended' : (run (program.insertJump k) more m).Ended := h ▸ trivial
    rw [trace_of_ended hended' hended, ← h]
    exact Ends.unique ⟨hended, fuel, rfl⟩ ⟨hended', more, rfl⟩
  · intro trap s hp
    obtain ⟨more, h⟩ := exists_run_insertJump_of_trapped hk hsize hinsert hfree hp
    have hended' : (run (program.insertJump k) more m).Ended := h ▸ trivial
    rw [trace_of_ended hended' hended]
    exact (Ends.unique ⟨hended, fuel, rfl⟩ ⟨hended', more, rfl⟩).trans h

/-- A jump out of a program of three instructions, and out of the same program with a jump inserted before
the second: the target has moved, and one more step is counted. -/
theorem run_insertJump_out :
    ∃ s, Ends #[⟨.push, some (.boolean false)⟩, ⟨.jumpIf true, some (.integer 0)⟩,
          ⟨.jump, some (.integer 9)⟩] (new {} (.zeros 0) .silent)
        (.trapped { pc := 2, opcode := .jump, fault := .invalidJump 9 3 } s) ∧
      s.steps = 3 ∧
      run (Program.insertJump 1 #[⟨.push, some (.boolean false)⟩,
          ⟨.jumpIf true, some (.integer 0)⟩, ⟨.jump, some (.integer 9)⟩]) 4
          (new {} (.zeros 0) .silent) =
        .trapped { pc := 3, opcode := .jump, fault := .invalidJump 10 4 }
          { s with pc := 4, steps := 4 } := by
  have hinsert : Program.Insertable 1 #[⟨.push, some (.boolean false)⟩,
      ⟨.jumpIf true, some (.integer 0)⟩, ⟨.jump, some (.integer 9)⟩] := by
    intro ins hmem hjumps t ht hlt
    simp only [List.mem_toArray, List.mem_cons, List.not_mem_nil, or_false] at hmem
    rcases hmem with rfl | rfl | rfl
    · cases hjumps
    · cases ht
      exact absurd hlt (by decide)
    · cases ht
      decide
  have hends : Ends #[⟨.push, some (.boolean false)⟩, ⟨.jumpIf true, some (.integer 0)⟩,
      ⟨.jump, some (.integer 9)⟩] (new {} (.zeros 0) .silent)
      (.trapped { pc := 2, opcode := .jump, fault := .invalidJump 9 3 } _) := ⟨trivial, 3, rfl⟩
  have hinserted := run_insertJump _ 1 (new {} (.zeros 0) .silent) (by decide) (by decide) hinsert rfl
  have hended : (run (Program.insertJump 1 #[⟨.push, some (.boolean false)⟩,
      ⟨.jumpIf true, some (.integer 0)⟩, ⟨.jump, some (.integer 9)⟩]) 4
      (new {} (.zeros 0) .silent)).Ended := trivial
  exact ⟨_, hends, rfl, (hinserted.2 4 hended).2 _ _ hends⟩

end Machine

end StackMachine
