-- SUMMARY: Comparing what two machines do, action by action.
import StackMachine.Machine

/-!
# Comparing actions

Two runs of the same action from two machines are compared through a relation on machines: the
results must be alike, the machines left behind related again. The comparison is closed under
sequencing, so what an instruction does is compared by comparing the few actions it is made of. Some
comparisons hold only as long as the first action does not fault for certain reasons, and in some the
second instruction has another jump target.
-/

namespace StackMachine

/-! ## Jump targets -/

/-- Whether an opcode may jump. -/
def Opcode.jumps : Opcode → Bool
  | jump | jumpIf _ => true
  | push | arith _ | logic _ | compare _ | real _ | load | store | print => false

namespace Instruction

/-- The instruction with another target, if it is a jump. -/
def retarget (t : Int32 → Int32) (ins : Instruction) : Instruction :=
  match ins.operand with
  | some (.integer target) =>
    if ins.opcode.jumps then { ins with operand := some (.integer (t target)) } else ins
  | _ => ins

theorem opcode_retarget (t : Int32 → Int32) (ins : Instruction) :
    (ins.retarget t).opcode = ins.opcode := by
  unfold retarget
  split
  · split <;> rfl
  · rfl

theorem retarget_of_not_jumps {t : Int32 → Int32} {ins : Instruction}
    (h : ins.opcode.jumps = false) : ins.retarget t = ins := by
  unfold retarget
  rw [h]
  split <;> rfl

theorem retarget_id (ins : Instruction) : ins.retarget id = ins := by
  obtain ⟨opcode, operand⟩ := ins
  unfold retarget
  split
  · rename_i target h
    cases h
    exact ite_self _
  · rfl

theorem operand_of_requireInteger {ins : Instruction} {n : Int32} (h : ins.requireInteger = .ok n) :
    ins.operand = some (.integer n) := by
  unfold requireInteger at h
  split at h
  · rename_i hoperand
    cases h
    exact hoperand
  · cases h
  · cases h

theorem requireInteger_retarget {t : Int32 → Int32} {ins : Instruction}
    (h : ins.opcode.jumps = true) :
    (ins.retarget t).requireInteger = ins.requireInteger.map t := by
  obtain ⟨opcode, operand⟩ := ins
  cases operand with
  | none => rfl
  | some v =>
    cases v with
    | integer target =>
      have hjumps : opcode.jumps = true := h
      simp only [retarget, hjumps, if_true]
      rfl
    | text s => rfl
    | boolean b => rfl

end Instruction

namespace Machine

variable {α β γ : Type} {R : Machine → Machine → Prop} {excused : Fault → Prop}

/-! ## Related actions -/

/-- Two results with the same value or the same fault, and with related machines. -/
inductive ResultRel (R : Machine → Machine → Prop) {α : Type} :
    EStateM.Result Fault Machine α → EStateM.Result Fault Machine α → Prop where
  | ok {a : α} {m n : Machine} (h : R m n) : ResultRel R (.ok a m) (.ok a n)
  | error {fault : Fault} {m n : Machine} (h : R m n) : ResultRel R (.error fault m) (.error fault n)

/-- From related machines the two actions have related results. -/
def Related (R : Machine → Machine → Prop) (x y : Action α) : Prop :=
  ∀ m n, R m n → ResultRel R (x m) (y n)

theorem ResultRel.of_ok {a : α} {m : Machine} {r : EStateM.Result Fault Machine α}
    (h : ResultRel R (.ok a m) r) : ∃ n, r = .ok a n ∧ R m n := by
  cases h with
  | ok h' => exact ⟨_, rfl, h'⟩

theorem ResultRel.of_error {fault : Fault} {m : Machine} {r : EStateM.Result Fault Machine α}
    (h : ResultRel R (.error fault m) r) : ∃ n, r = .error fault n ∧ R m n := by
  cases h with
  | error h' => exact ⟨_, rfl, h'⟩

theorem Related.of_ok {x y : Action α} {m m' n : Machine} {a : α} (h : Related R x y) (hR : R m n)
    (hx : x m = .ok a m') : ∃ n', y n = .ok a n' ∧ R m' n' := by
  have hxy := h m n hR
  rw [hx] at hxy
  exact hxy.of_ok

theorem Related.of_error {x y : Action α} {m m' n : Machine} {fault : Fault} (h : Related R x y)
    (hR : R m n) (hx : x m = .error fault m') : ∃ n', y n = .error fault n' ∧ R m' n' := by
  have hxy := h m n hR
  rw [hx] at hxy
  exact hxy.of_error

/-! ## Simulated actions -/

/-- From related machines the second action does what the first does, unless the first faults for a
reason that excuses the second. -/
def Simulates (excused : Fault → Prop) (R : Machine → Machine → Prop) (x y : Action α) : Prop :=
  ∀ m n, R m n → (∃ fault m', x m = .error fault m' ∧ excused fault) ∨ ResultRel R (x m) (y n)

namespace Simulates

theorem of_related {x y : Action α} (h : Related R x y) : Simulates excused R x y :=
  fun m n hR => .inr (h m n hR)

/-- Every action simulates itself. -/
theorem refl (x : Action α) : Simulates excused Eq x x := by
  rintro m _ rfl
  right
  cases x m with
  | ok a m' => exact .ok rfl
  | error fault m' => exact .error rfl

/-- Where nothing is excused, the actions are related. -/
theorem related {x y : Action α} (h : Simulates (fun _ => False) R x y) : Related R x y := by
  intro m n hR
  rcases h m n hR with ⟨fault, m', -, hfalse⟩ | hxy
  · exact hfalse.elim
  · exact hxy

theorem of_ok {x y : Action α} {m m' n : Machine} {a : α} (h : Simulates excused R x y) (hR : R m n)
    (hx : x m = .ok a m') : ∃ n', y n = .ok a n' ∧ R m' n' := by
  have hxy := h m n hR
  rw [hx] at hxy
  rcases hxy with ⟨fault, s, hs, -⟩ | hxy
  · cases hs
  · exact hxy.of_ok

theorem of_error {x y : Action α} {m m' n : Machine} {fault : Fault} (h : Simulates excused R x y)
    (hR : R m n) (hx : x m = .error fault m') (hfault : ¬ excused fault) :
    ∃ n', y n = .error fault n' ∧ R m' n' := by
  have hxy := h m n hR
  rw [hx] at hxy
  rcases hxy with ⟨fault', s, hs, hexcused⟩ | hxy
  · cases hs
    exact absurd hexcused hfault
  · exact hxy.of_error

theorem pure (a : α) : Simulates excused R (Pure.pure a) (Pure.pure a) := fun _ _ h => .inr (.ok h)

theorem throw (fault : Fault) :
    Simulates excused R (throw fault : Action α) (throw fault) := fun _ _ h => .inr (.error h)

theorem bind {x y : Action α} {f g : α → Action β} (hx : Simulates excused R x y)
    (hf : ∀ a, Simulates excused R (f a) (g a)) : Simulates excused R (x >>= f) (y >>= g) := by
  intro m n h
  simp only [Bind.bind, EStateM.bind]
  rcases hx m n h with ⟨fault, m', hfault, hexcused⟩ | hxy
  · rw [hfault]
    exact .inl ⟨fault, m', rfl, hexcused⟩
  · generalize x m = r at hxy ⊢
    generalize y n = r' at hxy ⊢
    cases hxy with
    | ok h' => exact hf _ _ _ h'
    | error h' => exact .inr (.error h')

theorem ite {c : Prop} [Decidable c] {x y x' y' : Action α} (h : Simulates excused R x y)
    (h' : Simulates excused R x' y') :
    Simulates excused R (if c then x else x') (if c then y else y') := by
  by_cases hc : c
  · simpa only [hc, if_true] using h
  · simpa only [hc, if_false] using h'

/-- A computation that does not touch the machine, and whose value the second action changes: the rest
matters only for the value it gives. -/
theorem check_map_bind {result : Except Fault α} {t : α → β} {f : α → Action γ} {g : β → Action γ}
    (hf : ∀ a, result = .ok a → Simulates excused R (f a) (g (t a))) :
    Simulates excused R (check result >>= f) (check (result.map t) >>= g) := by
  intro m n h
  cases result with
  | ok a => exact hf a rfl m n h
  | error fault => exact .inr (.error h)

theorem check_bind {result : Except Fault α} {f g : α → Action γ}
    (hf : ∀ a, result = .ok a → Simulates excused R (f a) (g a)) :
    Simulates excused R (check result >>= f) (check result >>= g) := by
  have h := check_map_bind (t := id) hf
  rw [Except.map_id] at h
  exact h

end Simulates

/-! ## Parts of the machine

An action that reads and writes one part of the machine is respected by every relation under which the
two machines agree on this part, and go on to be related when both get the same new one. -/

theorem related_onStack (hread : ∀ m n, R m n → n.stack = m.stack)
    (hwrite : ∀ m n stack, R m n → R { m with stack } { n with stack }) (action : Stack.Action α) :
    Related R (onStack action) (onStack action) := by
  intro m n h
  simp only [onStack, hread m n h]
  cases action m.stack with
  | ok a stack => exact .ok (hwrite m n stack h)
  | error fault stack => exact .error (hwrite m n stack h)

theorem related_loadCell (hread : ∀ m n, R m n → n.memory = m.memory) (index : Int32) :
    Related R (loadCell index) (loadCell index) := by
  intro m n h
  simp only [loadCell, check, hread m n h]
  cases m.memory.load index with
  | ok v => exact .ok h
  | error fault => exact .error h

theorem related_storeCell (hread : ∀ m n, R m n → n.memory = m.memory)
    (hwrite : ∀ m n memory, R m n → R { m with memory } { n with memory }) (index v : Int32) :
    Related R (storeCell index v) (storeCell index v) := by
  intro m n h
  simp only [storeCell, hread m n h]
  cases m.memory.store index v with
  | ok memory => exact .ok (hwrite m n memory h)
  | error fault => exact .error (hwrite m n m.memory h)

theorem related_printLine (hread : ∀ m n, R m n → n.output = m.output)
    (hwrite : ∀ m n output, R m n → R { m with output } { n with output }) (line : String) :
    Related R (printLine line) (printLine line) := by
  intro m n h
  simp only [printLine, hread m n h]
  cases Output.println line m.output with
  | ok u output => exact .ok (hwrite m n output h)
  | error cause output => exact .error (hwrite m n output h)

theorem related_jumpTo (hwrite : ∀ m n pc, R m n → R { m with pc } { n with pc }) (length : Nat)
    (target : Int32) : Related R (jumpTo length target) (jumpTo length target) := by
  intro m n h
  simp only [jumpTo]
  split
  · exact .ok (hwrite m n _ h)
  · exact .error h

/-! ## Typed pops -/

theorem onStack_bind (x : Stack.Action α) (f : α → Stack.Action β) :
    onStack (x >>= f) = onStack x >>= fun a => onStack (f a) := by
  funext ⟨config, stack, memory, output, pc, steps⟩
  simp only [onStack, Bind.bind, EStateM.bind]
  cases x stack <;> rfl

theorem Simulates.popInteger
    (h : Simulates excused R (onStack Stack.pop) (onStack Stack.pop)) :
    Simulates excused R (onStack Stack.popInteger) (onStack Stack.popInteger) := by
  unfold Stack.popInteger
  rw [onStack_bind]
  refine h.bind fun v => ?_
  cases v with
  | integer n => exact .pure n
  | text s => exact .throw _
  | boolean b => exact .throw _

theorem Simulates.popBoolean
    (h : Simulates excused R (onStack Stack.pop) (onStack Stack.pop)) :
    Simulates excused R (onStack Stack.popBoolean) (onStack Stack.popBoolean) := by
  unfold Stack.popBoolean
  rw [onStack_bind]
  refine h.bind fun v => ?_
  cases v with
  | integer n => exact .throw _
  | text s => exact .throw _
  | boolean b => exact .pure b

/-! ## Instructions -/

/-- Every action of which the instruction is made is simulated by the same action of the instruction
with another target, in a program of another length. Memory is accessed and jumps are made only at
the instruction's own operand. -/
structure Simulation (excused : Fault → Prop) (R : Machine → Machine → Prop) (length length' : Nat)
    (t : Int32 → Int32) (ins : Instruction) : Prop where
  pop : Simulates excused R (onStack Stack.pop) (onStack Stack.pop)
  push : ∀ v, Simulates excused R (onStack (Stack.push v)) (onStack (Stack.push v))
  loadCell : ∀ index, ins.opcode = .load → ins.requireInteger = .ok index →
    Simulates excused R (loadCell index) (loadCell index)
  storeCell : ∀ index n, ins.opcode = .store → ins.requireInteger = .ok index →
    Simulates excused R (storeCell index n) (storeCell index n)
  jumpTo : ∀ target, ins.opcode.jumps = true → ins.requireInteger = .ok target →
    Simulates excused R (jumpTo length target) (jumpTo length' (t target))
  printLine : ∀ line, ins.opcode = .print → Simulates excused R (printLine line) (printLine line)

/-- An instruction is simulated if its actions are. -/
theorem Simulation.execute {length length' : Nat} {t : Int32 → Int32} {ins : Instruction}
    (h : Simulation excused R length length' t ins) :
    Simulates excused R (execute length ins) (execute length' (ins.retarget t)) := by
  have hint : Simulates excused R (onStack Stack.popInteger) (onStack Stack.popInteger) :=
    h.pop.popInteger
  have hbool : Simulates excused R (onStack Stack.popBoolean) (onStack Stack.popBoolean) :=
    h.pop.popBoolean
  unfold Machine.execute
  rw [ins.opcode_retarget]
  cases hop : ins.opcode with
  | push =>
    rw [Instruction.retarget_of_not_jumps (by rw [hop]; rfl)]
    exact .check_bind fun v _ => h.push v
  | arith op => exact hint.bind fun b => hint.bind fun a => .check_bind fun n _ => h.push _
  | logic op => exact hbool.bind fun b => hbool.bind fun a => h.push _
  | compare op => exact hint.bind fun b => hint.bind fun a => h.push _
  | real op => exact hint.bind fun a => h.push _
  | load =>
    rw [Instruction.retarget_of_not_jumps (by rw [hop]; rfl)]
    exact .check_bind fun index hi => (h.loadCell index hop hi).bind fun n => h.push _
  | store =>
    rw [Instruction.retarget_of_not_jumps (by rw [hop]; rfl)]
    exact .check_bind fun index hi => hint.bind fun n => h.storeCell index n hop hi
  | jump =>
    have hjumps : ins.opcode.jumps = true := by rw [hop]; rfl
    rw [Instruction.requireInteger_retarget hjumps]
    exact .check_map_bind fun target ht => h.jumpTo target hjumps ht
  | jumpIf condition =>
    have hjumps : ins.opcode.jumps = true := by rw [hop]; rfl
    rw [Instruction.requireInteger_retarget hjumps]
    exact .check_map_bind fun target ht => hbool.bind fun b =>
      .ite (h.jumpTo target hjumps ht) (.pure ())
  | print => exact h.pop.bind fun v => h.printLine _ hop

/-- A relation that every action of which the instruction is made respects. Memory is accessed and
jumps are made only at the instruction's own operand. -/
structure Respects (R : Machine → Machine → Prop) (length : Nat) (ins : Instruction) : Prop where
  onStack : ∀ {α : Type} (action : Stack.Action α), Related R (onStack action) (onStack action)
  loadCell : ∀ index, ins.opcode = .load → ins.requireInteger = .ok index →
    Related R (loadCell index) (loadCell index)
  storeCell : ∀ index n, ins.opcode = .store → ins.requireInteger = .ok index →
    Related R (storeCell index n) (storeCell index n)
  jumpTo : ∀ target, ins.requireInteger = .ok target →
    Related R (jumpTo length target) (jumpTo length target)
  printLine : ∀ line, ins.opcode = .print → Related R (printLine line) (printLine line)

theorem Respects.simulation {length : Nat} {ins : Instruction} (h : Respects R length ins) :
    Simulation (fun _ => False) R length length id ins where
  pop := .of_related (h.onStack _)
  push _ := .of_related (h.onStack _)
  loadCell index hop hi := .of_related (h.loadCell index hop hi)
  storeCell index n hop hi := .of_related (h.storeCell index n hop hi)
  jumpTo target _ ht := .of_related (h.jumpTo target ht)
  printLine line hop := .of_related (h.printLine line hop)

/-- An instruction respects every relation that its actions respect. -/
theorem Respects.execute {length : Nat} {ins : Instruction} (h : Respects R length ins) :
    Related R (execute length ins) (execute length ins) := by
  have hsim := h.simulation.execute
  rw [ins.retarget_id] at hsim
  exact hsim.related

/-! ## Configuration and step count -/

/-- The machine with another configuration and another step count. -/
def onCounters (f : Config → Config) (g : Nat → Nat) (m : Machine) : Machine :=
  { m with config := f m.config, steps := g m.steps }

/-- No instruction reads the configuration or the step count. -/
theorem respects_onCounters (f : Config → Config) (g : Nat → Nat) (length : Nat) (ins : Instruction) :
    Respects (fun m n => n = m.onCounters f g) length ins where
  onStack action := related_onStack (by rintro m _ rfl; rfl) (by rintro m _ stack rfl; rfl) action
  loadCell index _ _ := related_loadCell (by rintro m _ rfl; rfl) index
  storeCell index n _ _ :=
    related_storeCell (by rintro m _ rfl; rfl) (by rintro m _ memory rfl; rfl) index n
  jumpTo target _ := related_jumpTo (by rintro m _ pc rfl; rfl) length target
  printLine line _ :=
    related_printLine (by rintro m _ rfl; rfl) (by rintro m _ output rfl; rfl) line

theorem counters_of_eq {m : Machine} {config : Config} {steps : Nat}
    (h : m = m.onCounters (fun _ => config) (fun _ => steps)) :
    m.config = config ∧ m.steps = steps := by
  have hc : m.config = (m.onCounters (fun _ => config) (fun _ => steps)).config := congrArg _ h
  have hs : m.steps = (m.onCounters (fun _ => config) (fun _ => steps)).steps := congrArg _ h
  exact ⟨hc, hs⟩

/-- An instruction leaves the configuration and the step count alone. -/
theorem counters_of_execute_ok {length : Nat} {ins : Instruction} {m m' : Machine} {u : Unit}
    (h : execute length ins m = .ok u m') : m'.config = m.config ∧ m'.steps = m.steps := by
  have hr := (respects_onCounters (fun _ => m.config) (fun _ => m.steps) length ins).execute
  -- A machine is itself with its own counters, so the instruction is compared with itself.
  obtain ⟨n', hn, heq⟩ := hr.of_ok rfl h
  cases h.symm.trans hn
  exact counters_of_eq heq

theorem counters_of_execute_error {length : Nat} {ins : Instruction} {m m' : Machine} {fault : Fault}
    (h : execute length ins m = .error fault m') : m'.config = m.config ∧ m'.steps = m.steps := by
  have hr := (respects_onCounters (fun _ => m.config) (fun _ => m.steps) length ins).execute
  obtain ⟨n', hn, heq⟩ := hr.of_error rfl h
  cases h.symm.trans hn
  exact counters_of_eq heq

/-! ## Steps -/

/-- The machine as the next instruction finds it: moved on, and the instruction counted. -/
def dispatched (m : Machine) : Machine :=
  { m with pc := m.pc + 1, steps := m.steps + 1 }

/-- The step limit, if there is one, lets the machine carry out another instruction. -/
def BelowLimit (m : Machine) : Prop :=
  ∀ limit, m.config.stepLimit = some limit → m.steps < limit

theorem not_belowLimit_iff {m : Machine} :
    ¬ m.BelowLimit ↔ ∃ limit, m.config.stepLimit = some limit ∧ limit ≤ m.steps := by
  simp [BelowLimit]

theorem step_of_belowLimit {length : Nat} {ins : Instruction} {m : Machine} (h : m.BelowLimit) :
    step length ins m = execute length ins m.dispatched := by
  simp only [step, advance, countStep, Bind.bind, EStateM.bind]
  cases hl : m.config.stepLimit with
  | none => rfl
  | some limit =>
    have hlt := h limit hl
    simp only [hlt, if_true]
    rfl

theorem step_of_limit_le {length limit : Nat} {ins : Instruction} {m : Machine}
    (hl : m.config.stepLimit = some limit) (hle : limit ≤ m.steps) :
    step length ins m = .error (.stepLimitExceeded limit) { m with pc := m.pc + 1 } := by
  have hlt : ¬ m.steps < limit := Nat.not_lt_of_le hle
  simp only [step, advance, countStep, Bind.bind, EStateM.bind, hl, hlt, if_false]

/-- A step that succeeds was below the limit. -/
theorem belowLimit_of_step_ok {length : Nat} {ins : Instruction} {m m' : Machine} {u : Unit}
    (h : step length ins m = .ok u m') : m.BelowLimit := by
  intro limit hl
  rcases Nat.lt_or_ge m.steps limit with hlt | hle
  · exact hlt
  · rw [step_of_limit_le hl hle] at h
    cases h

/-- A step that succeeds counts one instruction. -/
theorem counters_of_step_ok {length : Nat} {ins : Instruction} {m m' : Machine} {u : Unit}
    (h : step length ins m = .ok u m') : m'.config = m.config ∧ m'.steps = m.steps + 1 := by
  rw [step_of_belowLimit (belowLimit_of_step_ok h)] at h
  exact counters_of_execute_ok h

/-- So does a step that faults below the limit. -/
theorem counters_of_step_error {length : Nat} {ins : Instruction} {m m' : Machine} {fault : Fault}
    (hbelow : m.BelowLimit) (h : step length ins m = .error fault m') :
    m'.config = m.config ∧ m'.steps = m.steps + 1 := by
  rw [step_of_belowLimit hbelow] at h
  exact counters_of_execute_error h

end Machine

end StackMachine
