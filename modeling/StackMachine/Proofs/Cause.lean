-- SUMMARY: Each fault with what it says about the instruction.
import StackMachine.Proofs.Effect

/-!
# Why an instruction faults

The faults of an instruction, each with what it says about the instruction: what its opcode asks for and
its operand does not give, or what the stack, the memory or the output may lack. No other fault occurs.
-/

namespace StackMachine.Machine

/-- The faults that an instruction may meet in a program of the given length. -/
inductive Cause (length : Nat) (ins : Instruction) : Fault → Prop where
  | missingOperand (hneeds : ins.opcode.requiresOperand = true) (hnone : ins.operand = none) :
      Cause length ins .missingOperand
  | wrongOperand {v : Value} (hv : ins.operand = some v) (hne : v.tag ≠ .integer) :
      Cause length ins (Stack.mismatch .integer v)
  | underflow (hpops : ins.opcode.pops ≠ []) : Cause length ins .stackUnderflow
  | wrongValue {tag : Tag} (htag : some tag ∈ ins.opcode.pops) {v : Value} (hne : v.tag ≠ tag) :
      Cause length ins (Stack.mismatch tag v)
  | divisionByZero {op : ArithOp} (hop : ins.opcode = .arith op) : Cause length ins .divisionByZero
  | outOfBounds {index : Int32} (hindex : ins.operand = some (.integer index)) (size : Nat) :
      Cause length ins (.outOfBounds index.toInt size)
  | overflow (limit : Nat) : Cause length ins (.stackOverflow limit)
  | invalidJump {target : Int32} (hjumps : ins.opcode.jumps = true)
      (htarget : ins.operand = some (.integer target))
      (hinvalid : ¬ (0 ≤ target.toInt ∧ target.toInt.toNat ≤ length)) :
      Cause length ins (.invalidJump target.toInt length)
  | outputFailed (hop : ins.opcode = .print) (cause : WriteError) :
      Cause length ins (.outputFailed cause)

/-! ## Faults of an action -/

variable {α β : Type} {B : Fault → Prop}

/-- Every fault of the action is one of `B`. -/
def FaultsIn (B : Fault → Prop) (x : Action α) : Prop :=
  ∀ m fault m', x m = .error fault m' → B fault

namespace FaultsIn

theorem bind {x : Action α} {f : α → Action β} (hx : FaultsIn B x) (hf : ∀ a, FaultsIn B (f a)) :
    FaultsIn B (x >>= f) := by
  intro m fault m' h
  simp only [Bind.bind, EStateM.bind] at h
  split at h
  · exact hf _ _ _ _ h
  · cases h
    exact hx _ _ _ ‹_›

theorem check_bind {result : Except Fault α} {f : α → Action β}
    (hresult : ∀ fault, result = .error fault → B fault)
    (hf : ∀ a, result = .ok a → FaultsIn B (f a)) : FaultsIn B (check result >>= f) := by
  intro m fault m' h
  cases result with
  | ok a => exact hf a rfl m fault m' h
  | error fault' =>
    cases h
    exact hresult _ rfl

theorem onStack {action : Stack.Action α}
    (h : ∀ stack fault stack', action stack = .error fault stack' → B fault) :
    FaultsIn B (onStack action) := by
  intro m fault m' he
  simp only [Machine.onStack] at he
  cases hs : action m.stack with
  | ok a stack =>
    rw [hs] at he
    cases he
  | error fault' stack =>
    rw [hs] at he
    cases he
    exact h _ _ _ hs

/-- A pop faults on an empty stack and on a value that it does not take. -/
theorem pop {kind : Option Tag} {wrap : α → Value} {action : Stack.Action α}
    (htakes : Stack.Takes kind wrap action) (hempty : B .stackUnderflow)
    (hunfit : ∀ tag v, kind = some tag → v.tag ≠ tag → B (Stack.mismatch tag v)) :
    FaultsIn B (Machine.onStack action) := by
  refine onStack fun stack fault stack' h => ?_
  rw [← Stack.ofTop_topDown stack] at h
  rcases htakes.cases stack.topDown with
    hnil | ⟨a, rest, -, hfits⟩ | ⟨tag, v, rest, hkind, hne, hvalue⟩
  · rw [hnil, htakes.empty] at h
    cases h
    exact hempty
  · rw [hfits, htakes.fits] at h
    cases h
  · rw [hvalue, htakes.unfit tag hkind v hne] at h
    cases h
    exact hunfit tag v hkind hne

theorem push (v : Value) (h : ∀ limit, B (.stackOverflow limit)) :
    FaultsIn B (Machine.onStack (Stack.push v)) := by
  refine onStack fun stack fault stack' he => ?_
  unfold Stack.push at he
  split at he
  · cases he
  · cases he
    exact h _

theorem pure (a : α) : FaultsIn B (Pure.pure a) := by
  intro m fault m' h
  cases h

theorem loadCell (index : Int32) (h : ∀ size, B (.outOfBounds index.toInt size)) :
    FaultsIn B (loadCell index) := by
  intro m fault m' he
  simp only [Machine.loadCell, check] at he
  cases hload : m.memory.load index with
  | ok v =>
    rw [hload] at he
    cases he
  | error fault' =>
    rw [hload] at he
    cases he
    rw [outOfBounds_of_load_error hload]
    exact h _

theorem storeCell (index v : Int32) (h : ∀ size, B (.outOfBounds index.toInt size)) :
    FaultsIn B (storeCell index v) := by
  intro m fault m' he
  simp only [Machine.storeCell] at he
  cases hstore : m.memory.store index v with
  | ok memory =>
    rw [hstore] at he
    cases he
  | error fault' =>
    rw [hstore] at he
    cases he
    rw [outOfBounds_of_store_error hstore]
    exact h _

theorem jumpTo {length : Nat} {target : Int32}
    (h : ¬ (0 ≤ target.toInt ∧ target.toInt.toNat ≤ length) →
      B (.invalidJump target.toInt length)) : FaultsIn B (jumpTo length target) := by
  intro m fault m' he
  unfold Machine.jumpTo at he
  split at he
  · cases he
  · cases he
    exact h ‹_›

theorem printLine (line : String) (h : ∀ cause, B (.outputFailed cause)) :
    FaultsIn B (printLine line) := by
  intro m fault m' he
  simp only [Machine.printLine] at he
  cases hprint : Output.println line m.output with
  | ok u output =>
    rw [hprint] at he
    cases he
  | error cause output =>
    rw [hprint] at he
    cases he
    exact h cause

end FaultsIn

/-! ## Faults of an instruction -/

variable {length : Nat} {ins : Instruction}

theorem Cause.of_requireOperand {fault : Fault} (hneeds : ins.opcode.requiresOperand = true)
    (h : ins.requireOperand = .error fault) : Cause length ins fault := by
  unfold Instruction.requireOperand at h
  split at h
  · cases h
  · cases h
    exact .missingOperand hneeds ‹_›

theorem Cause.of_requireInteger {fault : Fault} (hneeds : ins.opcode.requiresOperand = true)
    (h : ins.requireInteger = .error fault) : Cause length ins fault := by
  unfold Instruction.requireInteger at h
  split at h
  · cases h
  · rename_i v hne hv
    cases h
    refine .wrongOperand hv ?_
    cases v with
    | integer n => exact absurd rfl (hne n)
    | text s => exact nofun
    | boolean b => exact nofun
  · cases h
    exact .missingOperand hneeds ‹_›

/-- A pop of a kind that the opcode takes. -/
theorem faultsIn_pop {kind : Option Tag} {wrap : α → Value} {action : Stack.Action α}
    (htakes : Stack.Takes kind wrap action) (h : kind ∈ ins.opcode.pops) :
    FaultsIn (Cause length ins) (onStack action) := by
  refine .pop htakes (.underflow (List.ne_nil_of_mem h)) fun tag v hkind hne => ?_
  exact .wrongValue (hkind ▸ h) hne

theorem faultsIn_push (v : Value) : FaultsIn (Cause length ins) (onStack (Stack.push v)) :=
  .push v .overflow

theorem faultsIn_integerOperand_bind {f : Int32 → Action β}
    (hneeds : ins.opcode.requiresOperand = true)
    (hf : ∀ n, ins.operand = some (.integer n) → FaultsIn (Cause length ins) (f n)) :
    FaultsIn (Cause length ins) (check ins.requireInteger >>= f) :=
  .check_bind (fun _ h => .of_requireInteger hneeds h)
    fun n h => hf n (Instruction.operand_of_requireInteger h)

theorem faultsIn_jumpTo {target : Int32} (hjumps : ins.opcode.jumps = true)
    (htarget : ins.operand = some (.integer target)) :
    FaultsIn (Cause length ins) (jumpTo length target) :=
  .jumpTo fun hinvalid => .invalidJump hjumps htarget hinvalid

/-- An instruction faults for one of its causes. -/
theorem faultsIn_execute (length : Nat) (ins : Instruction) :
    FaultsIn (Cause length ins) (execute length ins) := by
  unfold execute
  cases hop : ins.opcode with
  | push =>
    exact .check_bind (fun _ h => .of_requireOperand (by rw [hop]; rfl) h) fun v _ => faultsIn_push v
  | arith op =>
    have hpop : FaultsIn (Cause length ins) (onStack Stack.popInteger) :=
      faultsIn_pop Stack.takes_popInteger (by simp [hop, Opcode.pops])
    refine hpop.bind fun b => hpop.bind fun a => .check_bind (fun fault h => ?_) fun n _ =>
      faultsIn_push _
    rw [divisionByZero_of_eval_error h]
    exact .divisionByZero hop
  | logic op =>
    have hpop : FaultsIn (Cause length ins) (onStack Stack.popBoolean) :=
      faultsIn_pop Stack.takes_popBoolean (by simp [hop, Opcode.pops])
    exact hpop.bind fun b => hpop.bind fun a => faultsIn_push _
  | compare op =>
    have hpop : FaultsIn (Cause length ins) (onStack Stack.popInteger) :=
      faultsIn_pop Stack.takes_popInteger (by simp [hop, Opcode.pops])
    exact hpop.bind fun b => hpop.bind fun a => faultsIn_push _
  | real op =>
    have hpop : FaultsIn (Cause length ins) (onStack Stack.popInteger) :=
      faultsIn_pop Stack.takes_popInteger (by simp [hop, Opcode.pops])
    exact hpop.bind fun a => faultsIn_push _
  | load =>
    refine faultsIn_integerOperand_bind (by rw [hop]; rfl) fun index hindex => ?_
    exact (FaultsIn.loadCell index (.outOfBounds hindex)).bind fun n => faultsIn_push _
  | store =>
    refine faultsIn_integerOperand_bind (by rw [hop]; rfl) fun index hindex => ?_
    have hpop : FaultsIn (Cause length ins) (onStack Stack.popInteger) :=
      faultsIn_pop Stack.takes_popInteger (by simp [hop, Opcode.pops])
    exact hpop.bind fun n => .storeCell index n (.outOfBounds hindex)
  | jump =>
    refine faultsIn_integerOperand_bind (by rw [hop]; rfl) fun target htarget => ?_
    exact faultsIn_jumpTo (by rw [hop]; rfl) htarget
  | jumpIf condition =>
    refine faultsIn_integerOperand_bind (by rw [hop]; rfl) fun target htarget => ?_
    have hpop : FaultsIn (Cause length ins) (onStack Stack.popBoolean) :=
      faultsIn_pop Stack.takes_popBoolean (by simp [hop, Opcode.pops])
    refine hpop.bind fun b => ?_
    split
    · exact faultsIn_jumpTo (by rw [hop]; rfl) htarget
    · exact .pure ()
  | print =>
    have hpop : FaultsIn (Cause length ins) (onStack Stack.pop) :=
      faultsIn_pop Stack.takes_pop (by simp [hop, Opcode.pops])
    exact hpop.bind fun v => .printLine _ (.outputFailed hop)

/-- A step faults for a cause of its instruction, or because the step limit is reached. -/
theorem cause_of_step_error {m m' : Machine} {fault : Fault}
    (h : step length ins m = .error fault m') :
    Cause length ins fault ∨ ∃ limit, fault = .stepLimitExceeded limit := by
  by_cases hbelow : m.BelowLimit
  · rw [step_of_belowLimit hbelow] at h
    exact .inl (faultsIn_execute length ins _ _ _ h)
  · obtain ⟨limit, hl, hle⟩ := not_belowLimit_iff.1 hbelow
    rw [step_of_limit_le hl hle] at h
    cases h
    exact .inr ⟨limit, rfl⟩

end StackMachine.Machine
