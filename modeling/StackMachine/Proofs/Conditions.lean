-- SUMMARY: The conditions of an instruction, in the order in which they count.
import StackMachine.Proofs.Action
import StackMachine.Proofs.StackView

/-!
# Fault conditions

What an instruction asks of the machine, as a list of conditions in the order in which they count:
the step limit, the instruction's own operand, the values on the stack, the domain of the operation,
the room on the stack and what the output makes of a line. A step succeeds if all of them hold, and
otherwise faults with the first that does not.
-/

namespace StackMachine

/-! ## Conditions -/

/-- A condition of an instruction, with the fault that is reported when it does not hold. -/
structure Condition where
  holds : Bool
  fault : Fault
  deriving DecidableEq, Repr

namespace Condition

/-- The fault of the first condition that does not hold. -/
def firstFault : List Condition → Option Fault
  | [] => none
  | c :: conditions => if c.holds then firstFault conditions else some c.fault

theorem firstFault_append (before after : List Condition) :
    firstFault (before ++ after) = (firstFault before).or (firstFault after) := by
  induction before with
  | nil => rfl
  | cons c before ih =>
    by_cases h : c.holds
    · simp [firstFault, h, ih]
    · simp [firstFault, h]

theorem firstFault_eq_none_iff {conditions : List Condition} :
    firstFault conditions = none ↔ ∀ c ∈ conditions, c.holds := by
  induction conditions with
  | nil => simp [firstFault]
  | cons c conditions ih =>
    by_cases h : c.holds
    · simp [firstFault, h, ih]
    · simp [firstFault, h]

theorem firstFault_eq_some_iff {conditions : List Condition} {fault : Fault} :
    firstFault conditions = some fault ↔
      ∃ before c after, conditions = before ++ c :: after ∧ (∀ b ∈ before, b.holds) ∧
        ¬ c.holds ∧ c.fault = fault := by
  constructor
  · intro h
    induction conditions with
    | nil => cases h
    | cons c conditions ih =>
      by_cases hc : c.holds
      · simp only [firstFault, hc, if_true] at h
        obtain ⟨before, c', after, rfl, hbefore, hc', hfault⟩ := ih h
        exact ⟨c :: before, c', after, rfl, List.forall_mem_cons.2 ⟨hc, hbefore⟩, hc', hfault⟩
      · simp only [firstFault, hc] at h
        exact ⟨[], c, conditions, rfl, by simp, hc, Option.some.inj h⟩
  · rintro ⟨before, c, after, rfl, hbefore, hc, rfl⟩
    rw [firstFault_append, firstFault_eq_none_iff.2 hbefore]
    simp [firstFault, hc]

end Condition

/-! ## The conditions of an instruction -/

namespace Opcode

/-- The kind of operand that an opcode needs, if it needs one. A push takes any kind. -/
def operandKind : Opcode → Option (Option Tag)
  | push => some none
  | load | store | jump | jumpIf _ => some (some .integer)
  | arith _ | logic _ | compare _ | real _ | print => none

/-- The kinds of the values that an opcode pops, the top one first. A print pops any kind. -/
def pops : Opcode → List (Option Tag)
  | push | load | jump => []
  | arith _ | compare _ => [some .integer, some .integer]
  | logic _ => [some .boolean, some .boolean]
  | real _ | store => [some .integer]
  | jumpIf _ => [some .boolean]
  | print => [none]

end Opcode

namespace Machine

/-- The step limit, if there is one, is not reached. -/
def limitConditions (m : Machine) : List Condition :=
  m.config.stepLimit.toList.map fun limit => ⟨m.steps < limit, .stepLimitExceeded limit⟩

/-- There is a value, and it is of the given kind. -/
def valueConditions (missing : Fault) (kind : Option Tag) : Option Value → List Condition
  | none => [⟨false, missing⟩]
  | some v => kind.toList.map fun tag => ⟨v.tag = tag, .typeMismatch tag.name v.tag.name⟩

/-- The instruction has the operand that it needs. -/
def operandConditions (ins : Instruction) : List Condition :=
  match ins.opcode.operandKind with
  | none => []
  | some kind => valueConditions .missingOperand kind ins.operand

/-- The values, from the top, start with values of the given kinds. -/
def popConditions : List (Option Tag) → List Value → List Condition
  | [], _ => []
  | kind :: kinds, values =>
    valueConditions .stackUnderflow kind values.head? ++ popConditions kinds values.tail

/-- The index names a cell. -/
def indexCondition (m : Machine) (index : Int32) : Condition :=
  ⟨0 ≤ index.toInt ∧ index.toInt < m.memory.size, .outOfBounds index.toInt m.memory.size⟩

/-- The target is an instruction of a program of the given length, or its end. -/
def targetCondition (length : Nat) (target : Int32) : Condition :=
  ⟨0 ≤ target.toInt ∧ target.toInt ≤ length, .invalidJump target.toInt length⟩

/-- The operation is defined: no division by zero, no cell outside the memory, no jump outside the
program. The target of a conditional jump counts only if the jump is made. -/
def domainConditions (length : Nat) (ins : Instruction) (m : Machine) : List Condition :=
  match ins.opcode, ins.operand with
  | .arith .div, _ | .arith .mod, _ =>
    [⟨m.stack.topDown.head? ≠ some (.integer 0), .divisionByZero⟩]
  | .load, some (.integer index) | .store, some (.integer index) => [m.indexCondition index]
  | .jump, some (.integer target) => [targetCondition length target]
  | .jumpIf condition, some (.integer target) =>
    if m.stack.topDown.head? = some (.boolean condition) then [targetCondition length target] else []
  | _, _ => []

/-- There is room on the stack for a value that comes from elsewhere. -/
def roomConditions (ins : Instruction) (m : Machine) : List Condition :=
  match ins.opcode with
  | .push | .load => [⟨m.stack.size < m.stack.limit, .stackOverflow m.stack.limit⟩]
  | _ => []

/-- The sink takes a line on its next turn or, when there are no more turns, has room for the line and
its newline. -/
def sinkConditions (line : String) (sink : Sink) : List Condition :=
  match sink.turns with
  | [] => sink.room.toList.map fun room => ⟨line.utf8ByteSize + 1 ≤ room, .outputFailed sink.refusal⟩
  | .takes :: _ => []
  | .fails _ cause :: _ => [⟨false, .outputFailed cause⟩]

/-- The output takes the line. Only a writer may refuse it. -/
def lineConditions (line : String) : Output → List Condition
  | .writer sink => sinkConditions line sink
  | .buffer _ | .silent | .stdout _ => []

/-- The output accepts what is printed. -/
def outputConditions (ins : Instruction) (m : Machine) : List Condition :=
  match ins.opcode, m.stack.topDown with
  | .print, v :: _ => lineConditions v.render m.output
  | _, _ => []

/-- The conditions of carrying out an instruction. -/
def effectConditions (length : Nat) (ins : Instruction) (m : Machine) : List Condition :=
  operandConditions ins ++ (popConditions ins.opcode.pops m.stack.topDown ++
    (domainConditions length ins m ++ (roomConditions ins m ++ outputConditions ins m)))

/-- The conditions of a step, in the order in which they count. -/
def conditions (length : Nat) (ins : Instruction) (m : Machine) : List Condition :=
  m.limitConditions ++ effectConditions length ins m

/-! ## Results that obey conditions -/

variable {α β : Type}

/-- The result is a success if the conditions hold, and otherwise the fault of the first that does
not. -/
def Obeys (conditions : List Condition) : EStateM.Result Fault Machine α → Prop
  | .ok _ _ => Condition.firstFault conditions = none
  | .error fault _ => Condition.firstFault conditions = some fault

/-- Conditions that hold may be left out. -/
theorem obeys_append_of_none {before after : List Condition}
    {result : EStateM.Result Fault Machine α} (h : Condition.firstFault before = none) :
    Obeys (before ++ after) result ↔ Obeys after result := by
  cases result <;> simp [Obeys, Condition.firstFault_append, h]

/-- Of conditions that fail, those that follow do not matter. -/
theorem obeys_append_of_some {before after : List Condition} {fault : Fault} {m : Machine}
    (h : Condition.firstFault before = some fault) :
    Obeys (before ++ after) (.error fault m : EStateM.Result Fault Machine α) := by
  simp [Obeys, Condition.firstFault_append, h]

theorem Obeys.ok_iff {conditions : List Condition} {result : EStateM.Result Fault Machine Unit}
    (h : Obeys conditions result) :
    (∃ m, result = .ok () m) ↔ ∀ c ∈ conditions, c.holds := by
  rw [← Condition.firstFault_eq_none_iff]
  cases result with
  | ok u m => exact ⟨fun _ => h, fun _ => ⟨m, rfl⟩⟩
  | error fault m =>
    have hsome : Condition.firstFault conditions = some fault := h
    simp [hsome]

theorem Obeys.error_iff {conditions : List Condition} {result : EStateM.Result Fault Machine Unit}
    (h : Obeys conditions result) (fault : Fault) :
    (∃ m, result = .error fault m) ↔
      ∃ before c after, conditions = before ++ c :: after ∧ (∀ b ∈ before, b.holds) ∧
        ¬ c.holds ∧ c.fault = fault := by
  rw [← Condition.firstFault_eq_some_iff]
  cases result with
  | ok u m =>
    have hnone : Condition.firstFault conditions = none := h
    simp [hnone]
  | error found m =>
    have hsome : Condition.firstFault conditions = some found := h
    simp [hsome]

theorem firstFault_value_some {missing : Fault} {kind : Option Tag} {v : Value}
    (h : ∀ tag, kind = some tag → v.tag = tag) :
    Condition.firstFault (valueConditions missing kind (some v)) = none := by
  cases kind with
  | none => rfl
  | some tag => simp [valueConditions, Condition.firstFault, h tag rfl]

theorem firstFault_value_unfit {missing : Fault} {tag : Tag} {v : Value} (h : v.tag ≠ tag) :
    Condition.firstFault (valueConditions missing (some tag) (some v)) =
      some (Stack.mismatch tag v) := by
  simp [valueConditions, Condition.firstFault, h, Stack.mismatch]

/-- A pop, for conditions that begin with those of the value that it takes. -/
theorem obeys_pop_bind {kind : Option Tag} {wrap : α → Value} {action : Stack.Action α}
    {f : α → Action β} {kinds : List (Option Tag)} {rest : List Condition} {m : Machine}
    {values : List Value} (htakes : Stack.Takes kind wrap action)
    (h : ∀ a below, values = wrap a :: below →
      Obeys (popConditions kinds below ++ rest) (f a (m.withTop below))) :
    Obeys (popConditions (kind :: kinds) values ++ rest)
      ((onStack action >>= f) (m.withTop values)) := by
  rw [popConditions, List.append_assoc]
  rcases htakes.cases values with rfl | ⟨a, below, hfits, rfl⟩ | ⟨tag, v, below, rfl, hne, rfl⟩
  · rw [takes_bind_empty htakes]
    exact obeys_append_of_some rfl
  · rw [takes_bind_fits htakes, List.head?_cons, obeys_append_of_none (firstFault_value_some hfits)]
    exact h a below rfl
  · rw [takes_bind_unfit htakes m hne, List.head?_cons]
    exact obeys_append_of_some (firstFault_value_unfit hne)

theorem obeys_operand_bind {ins : Instruction} {f : Value → Action β} {rest : List Condition}
    {m : Machine} (h : ∀ v, Obeys rest (f v m)) :
    Obeys (valueConditions .missingOperand none ins.operand ++ rest)
      ((check ins.requireOperand >>= f) m) := by
  obtain ⟨opcode, operand⟩ := ins
  cases operand with
  | none => exact obeys_append_of_some rfl
  | some v => exact (obeys_append_of_none rfl).2 (h v)

theorem obeys_integerOperand_bind {ins : Instruction} {f : Int32 → Action β}
    {rest : List Condition} {m : Machine}
    (h : ∀ n, ins.operand = some (.integer n) → Obeys rest (f n m)) :
    Obeys (valueConditions .missingOperand (some .integer) ins.operand ++ rest)
      ((check ins.requireInteger >>= f) m) := by
  obtain ⟨opcode, operand⟩ := ins
  cases operand with
  | none => exact obeys_append_of_some rfl
  | some v =>
    cases v with
    | integer n => exact (obeys_append_of_none rfl).2 (h n rfl)
    | text s => exact obeys_append_of_some (firstFault_value_unfit nofun)
    | boolean b => exact obeys_append_of_some (firstFault_value_unfit nofun)

/-- An action that is guarded by a condition. -/
theorem obeys_cons {c : Condition} {rest : List Condition} {result : EStateM.Result Fault Machine α}
    (hok : c.holds → Obeys rest result) (herror : ¬ c.holds → ∃ m, result = .error c.fault m) :
    Obeys (c :: rest) result := by
  by_cases h : c.holds
  · have hnone : Condition.firstFault [c] = none := by simp [Condition.firstFault, h]
    exact (obeys_append_of_none hnone).2 (hok h)
  · obtain ⟨m, rfl⟩ := herror h
    simp [Obeys, Condition.firstFault, h]

/-- A push of a value that comes from elsewhere. -/
theorem obeys_push (v : Value) (m : Machine) :
    Obeys [⟨m.stack.size < m.stack.limit, .stackOverflow m.stack.limit⟩]
      (onStack (Stack.push v) m) := by
  have htop : m = m.withTop m.stack.topDown := m.withTop_topDown.symm
  refine obeys_cons (fun h => ?_) (fun h => ?_)
  · have hlt : m.stack.topDown.length < m.stack.limit := by simpa using h
    rw [htop, push_withTop_of_lt v hlt]
    rfl
  · have hge : m.stack.limit ≤ m.stack.topDown.length := by simpa using h
    exact ⟨m, by rw [htop, push_withTop_of_ge v hge]; rfl⟩

/-- A push in the place of a value that was popped. -/
theorem obeys_push_of_lt (v : Value) {m : Machine} {values : List Value}
    (h : values.length < m.stack.limit) :
    Obeys [] (onStack (Stack.push v) (m.withTop values)) := by
  rw [push_withTop_of_lt v h]
  rfl

theorem indexCondition_holds {m : Machine} {index : Int32} :
    (m.indexCondition index).holds ↔ m.memory.Holds index := by
  simp only [indexCondition, decide_eq_true_eq]
  unfold Memory.Holds Memory.size
  omega

theorem obeys_loadCell_bind {index : Int32} {f : Int32 → Action β} {rest : List Condition}
    {m : Machine} (h : ∀ n, Obeys rest (f n m)) :
    Obeys (m.indexCondition index :: rest) ((loadCell index >>= f) m) := by
  simp only [bind, EStateM.bind, loadCell, check, Memory.load]
  refine obeys_cons (fun hc => ?_) (fun hc => ?_)
  · simp only [indexCondition_holds.1 hc, dite_true]
    exact h _
  · simp only [mt indexCondition_holds.2 hc, dite_false]
    exact ⟨m, rfl⟩

theorem obeys_storeCell (index n : Int32) (m : Machine) :
    Obeys [m.indexCondition index] (storeCell index n m) := by
  simp only [storeCell, Memory.store]
  refine obeys_cons (fun hc => ?_) (fun hc => ?_)
  · simp only [indexCondition_holds.1 hc, dite_true]
    rfl
  · simp only [mt indexCondition_holds.2 hc, dite_false]
    exact ⟨m, rfl⟩

theorem obeys_jumpTo (length : Nat) (target : Int32) (m : Machine) :
    Obeys [targetCondition length target] (jumpTo length target m) := by
  have hiff : (targetCondition length target).holds ↔
      0 ≤ target.toInt ∧ target.toInt.toNat ≤ length := by
    simp only [targetCondition, decide_eq_true_eq]
    omega
  simp only [jumpTo]
  refine obeys_cons (fun hc => ?_) (fun hc => ?_)
  · simp only [hiff.1 hc, and_self, if_true]
    rfl
  · simp only [mt hiff.2 hc, if_false]
    exact ⟨m, rfl⟩

theorem size_utf8_line (line : String) :
    (Text.utf8 (line ++ "\n")).size = line.utf8ByteSize + 1 := by
  have hnewline : "\n".utf8ByteSize = 1 := by decide
  simp [Text.utf8, hnewline]

theorem obeys_printLine_writer {sink : Sink} {m : Machine} (line : String)
    (h : m.output = .writer sink) : Obeys (sinkConditions line sink) (printLine line m) := by
  simp only [printLine, h, Output.println, Sink.writeLine, sinkConditions]
  cases sink.turns with
  | nil =>
    simp only [Sink.write, size_utf8_line]
    cases sink.room with
    | none => rfl
    | some room =>
      refine obeys_cons (fun hc => ?_) (fun hc => ?_)
      · have hle : line.utf8ByteSize + 1 ≤ room := by simpa using hc
        simp only [hle, if_true]
        rfl
      · have hgt : ¬ line.utf8ByteSize + 1 ≤ room := by simpa using hc
        simp only [hgt, if_false]
        exact ⟨_, rfl⟩
  | cons turn turns =>
    cases turn with
    | takes => rfl
    | fails taken cause => rfl

theorem obeys_printLine (line : String) (m : Machine) :
    Obeys (lineConditions line m.output) (printLine line m) := by
  obtain ⟨config, stack, memory, output, pc, steps⟩ := m
  cases output with
  | buffer text => rfl
  | silent => rfl
  | stdout text => rfl
  | writer sink => exact obeys_printLine_writer line rfl

/-! ## Instructions -/

/-- A computation that fails for a zero divisor only. -/
theorem obeys_divisor_bind {b : Int32} {below : List Value} {result : Except Fault Int32}
    {f : Int32 → Action β} {rest : List Condition} {m : Machine}
    (hzero : b = 0 → result = .error .divisionByZero) (hdefined : b ≠ 0 → ∃ n, result = .ok n)
    (h : ∀ n, Obeys rest (f n m)) :
    Obeys (⟨(Value.integer b :: below).head? ≠ some (.integer 0), .divisionByZero⟩ :: rest)
      ((check result >>= f) m) := by
  refine obeys_cons (fun hc => ?_) (fun hc => ?_)
  · obtain ⟨n, rfl⟩ := hdefined (by simpa using hc)
    exact h n
  · rw [hzero (by simpa using hc)]
    exact ⟨m, rfl⟩

theorem obeys_arith_bind {length : Nat} {op : ArithOp} {ins : Instruction} {a b : Int32}
    {below : List Value} {f : Int32 → Action β} {rest : List Condition} {m m' : Machine}
    (hop : ins.opcode = .arith op) (htop : m.stack.topDown = .integer b :: below)
    (h : ∀ n, Obeys rest (f n m')) :
    Obeys (domainConditions length ins m ++ rest) ((check (op.eval a b) >>= f) m') := by
  simp only [domainConditions, hop, htop]
  cases op with
  | add => exact h _
  | sub => exact h _
  | mul => exact h _
  | div => exact obeys_divisor_bind (fun hb => if_pos hb) (fun hb => ⟨_, if_neg hb⟩) h
  | mod => exact obeys_divisor_bind (fun hb => if_pos hb) (fun hb => ⟨_, if_neg hb⟩) h

/-- Two pops of one kind. -/
theorem obeys_pop_pop_bind {kind : Option Tag} {wrap : α → Value} {action : Stack.Action α}
    {f : α → α → Action β} {rest : List Condition} {m : Machine} {values : List Value}
    (htakes : Stack.Takes kind wrap action)
    (h : ∀ b a below, values = wrap b :: wrap a :: below → Obeys rest (f b a (m.withTop below))) :
    Obeys (popConditions [kind, kind] values ++ rest)
      ((onStack action >>= fun b => onStack action >>= fun a => f b a) (m.withTop values)) := by
  refine obeys_pop_bind htakes fun b below hb => ?_
  refine obeys_pop_bind htakes fun a below' ha => ?_
  exact h b a below' (by rw [hb, ha])

/-- An instruction obeys its conditions. A stack within its limit has room again for the result once
an operand has been popped. -/
theorem obeys_execute (length : Nat) (ins : Instruction) {m : Machine}
    (hsize : m.stack.size ≤ m.stack.limit) :
    Obeys (effectConditions length ins m) (execute length ins m) := by
  obtain ⟨n, values, rfl⟩ : ∃ (n : Machine) (values : List Value), m = n.withTop values :=
    ⟨m, _, m.withTop_topDown.symm⟩
  rw [size_withTop, limit_withTop] at hsize
  simp only [effectConditions, operandConditions, roomConditions, outputConditions, execute,
    topDown_withTop]
  cases hop : ins.opcode with
  | push =>
    simp only [domainConditions, hop]
    exact obeys_operand_bind fun v => obeys_push v _
  | arith op =>
    refine obeys_pop_pop_bind Stack.takes_popInteger fun b a below hvalues => ?_
    refine obeys_arith_bind hop (by simpa using hvalues) fun _ => obeys_push_of_lt _ ?_
    simp only [hvalues, List.length_cons] at hsize
    omega
  | logic op =>
    simp only [domainConditions, hop]
    refine obeys_pop_pop_bind Stack.takes_popBoolean fun b a below hvalues => obeys_push_of_lt _ ?_
    simp only [hvalues, List.length_cons] at hsize
    omega
  | compare op =>
    simp only [domainConditions, hop]
    refine obeys_pop_pop_bind Stack.takes_popInteger fun b a below hvalues => obeys_push_of_lt _ ?_
    simp only [hvalues, List.length_cons] at hsize
    omega
  | real op =>
    simp only [domainConditions, hop]
    refine obeys_pop_bind Stack.takes_popInteger fun a below hvalues => obeys_push_of_lt _ ?_
    simp only [hvalues, List.length_cons] at hsize
    omega
  | load =>
    refine obeys_integerOperand_bind fun index hindex => ?_
    simp only [domainConditions, hop, hindex]
    exact obeys_loadCell_bind fun _ => obeys_push _ _
  | store =>
    refine obeys_integerOperand_bind fun index hindex => ?_
    refine obeys_pop_bind Stack.takes_popInteger fun a below _ => ?_
    simp only [domainConditions, hop, hindex]
    exact obeys_storeCell index a (n.withTop below)
  | jump =>
    refine obeys_integerOperand_bind fun target htarget => ?_
    simp only [domainConditions, hop, htarget]
    exact obeys_jumpTo length target _
  | jumpIf condition =>
    refine obeys_integerOperand_bind fun target htarget => ?_
    refine obeys_pop_bind Stack.takes_popBoolean fun b below hvalues => ?_
    simp only [domainConditions, hop, htarget, topDown_withTop, hvalues]
    by_cases hb : b = condition
    · simp only [hb, List.head?_cons, if_true]
      exact obeys_jumpTo length target (n.withTop below)
    · have hne : (Value.boolean b :: below).head? ≠ some (.boolean condition) := by simpa using hb
      simp only [hb, hne, if_false]
      rfl
  | print =>
    simp only [domainConditions, hop]
    refine obeys_pop_bind Stack.takes_pop fun v below hvalues => ?_
    simp only [hvalues]
    exact obeys_printLine v.render (n.withTop below)

theorem obeys_step (length : Nat) (ins : Instruction) {m : Machine}
    (hsize : m.stack.size ≤ m.stack.limit) :
    Obeys (conditions length ins m) (step length ins m) := by
  have hexecute : Obeys (effectConditions length ins m) (execute length ins m.dispatched) :=
    obeys_execute length ins (m := m.dispatched) hsize
  unfold conditions limitConditions
  cases hl : m.config.stepLimit with
  | none =>
    have hbelow : m.BelowLimit := fun limit h => nomatch hl.symm.trans h
    rw [step_of_belowLimit hbelow]
    exact hexecute
  | some limit =>
    refine obeys_cons (fun hc => ?_) (fun hc => ?_)
    · have hbelow : m.BelowLimit := fun limit' h => by
        cases hl.symm.trans h
        simpa using hc
      rw [step_of_belowLimit hbelow]
      exact hexecute
    · have hle : limit ≤ m.steps := by simpa using hc
      exact ⟨_, step_of_limit_le hl hle⟩

/-- A step succeeds exactly when all the conditions hold, and otherwise faults with the first that
does not: no other fault, and never a later one in its place. -/
theorem step_faults_with_first_condition (length : Nat) (ins : Instruction) (m : Machine)
    (hsize : m.stack.size ≤ m.stack.limit) :
    ((∃ m', step length ins m = .ok () m') ↔ ∀ c ∈ conditions length ins m, c.holds) ∧
    ∀ fault, (∃ m', step length ins m = .error fault m') ↔
      ∃ before c after, conditions length ins m = before ++ c :: after ∧
        (∀ b ∈ before, b.holds) ∧ ¬ c.holds ∧ c.fault = fault := by
  have h := obeys_step length ins hsize
  exact ⟨h.ok_iff, h.error_iff⟩

/-- A text under a zero divisor: the wrong kind is found before the division is tried. -/
theorem step_divide_text_by_zero :
    ∃ m', step 1 ⟨.arith .div, none⟩
        { new {} (.zeros 0) .silent with stack := ⟨#[.text "x", .integer 0], 2⟩ } =
      .error (.typeMismatch "Integer" "Text") m' :=
  ((step_faults_with_first_condition 1 _ _ (by decide)).2 _).2
    ⟨[⟨true, .typeMismatch "Integer" "Integer"⟩], ⟨false, .typeMismatch "Integer" "Text"⟩,
      [⟨false, .divisionByZero⟩], by decide, by decide, by decide, rfl⟩

end Machine

end StackMachine
