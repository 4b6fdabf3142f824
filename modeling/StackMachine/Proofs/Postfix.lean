-- SUMMARY: Postfix code computes its expression in exactly the room that it needs.
import StackMachine.Proofs.Arithmetic
import StackMachine.Proofs.StepLimit

/-!
# Postfix code

Expressions over words, booleans and the cells of a memory, and the code that computes them: first the
operands, then the operator. The code leaves the value of its expression on the stack and touches
nothing else. It needs as much room on the stack as the expression is deep, and no less, and it stops
early where the expression divides by zero.
-/

namespace StackMachine

/-! ## Expressions -/

/-- The values of a kind. -/
abbrev Tag.Carrier : Tag → Type
  | integer => Int32
  | text => String
  | boolean => Bool

/-- A value of a kind, as the stack holds it. -/
def Value.ofCarrier : {t : Tag} → t.Carrier → Value
  | .integer, n => .integer n
  | .text, s => .text s
  | .boolean, b => .boolean b

/-- An expression whose value is of the given kind. -/
inductive Expr : Tag → Type where
  | integer (n : Int32) : Expr .integer
  | boolean (b : Bool) : Expr .boolean
  | cell (index : Int32) : Expr .integer
  | arith (op : ArithOp) (a b : Expr .integer) : Expr .integer
  | compare (op : CompareOp) (a b : Expr .integer) : Expr .boolean
  | logic (op : LogicOp) (a b : Expr .boolean) : Expr .boolean

/-- The result of an operator, unless it divides by zero. -/
def ArithOp.result? (op : ArithOp) (x y : Int32) : Option Int32 :=
  if op.divides = true ∧ y = 0 then none else some (.ofInt (op.onIntegers x.toInt y.toInt))

namespace Expr

variable {t : Tag}

/-- The operands from left to right, and then the operator. -/
def code {t : Tag} : Expr t → List Instruction
  | integer n => [⟨.push, some (.integer n)⟩]
  | boolean b => [⟨.push, some (.boolean b)⟩]
  | cell index => [⟨.load, some (.integer index)⟩]
  | arith op a b => a.code ++ b.code ++ [⟨.arith op, none⟩]
  | compare op a b => a.code ++ b.code ++ [⟨.compare op, none⟩]
  | logic op a b => a.code ++ b.code ++ [⟨.logic op, none⟩]

/-- The room that the code needs on the stack. While the right operand is computed, the left one is
there already. -/
def depth {t : Tag} : Expr t → Nat
  | integer _ | boolean _ | cell _ => 1
  | arith _ a b | compare _ a b | logic _ a b => max a.depth (1 + b.depth)

/-- Every cell that the expression reads is in the memory. -/
def Within (memory : Memory) {t : Tag} : Expr t → Prop
  | integer _ | boolean _ => True
  | cell index => memory.Holds index
  | arith _ a b | compare _ a b | logic _ a b => a.Within memory ∧ b.Within memory

/-- Evaluate two operands from left to right and combine their values. An error is the index of the
operator that divides by zero, in code where the operands take `left` and `right` instructions. -/
def inOrder {α β : Type} (left right : Nat) (first second : Except Nat α)
    (combine : α → α → Option β) : Except Nat β := do
  let x ← first
  let y ← second.mapError (left + ·)
  (combine x y).elim (.error (left + right)) .ok

/-- The value of an expression, or the index in its code of the first operator that divides by zero. -/
def eval (memory : Memory) {t : Tag} : Expr t → Except Nat t.Carrier
  | integer n => .ok n
  | boolean b => .ok b
  | cell index => .ok ((memory.get? index.toInt.toNat).getD 0)
  | arith op a b =>
    inOrder a.code.length b.code.length (a.eval memory) (b.eval memory) op.result?
  | compare op a b =>
    inOrder a.code.length b.code.length (a.eval memory) (b.eval memory)
      fun x y => some (op.onIntegers x.toInt y.toInt)
  | logic op a b =>
    inOrder a.code.length b.code.length (a.eval memory) (b.eval memory)
      fun x y => some (op.onTruths x y)

theorem inOrder_ok_ok {α β : Type} (left right : Nat) (x y : α) (combine : α → α → Option β) :
    inOrder left right (.ok x) (.ok y) combine =
      (combine x y).elim (.error (left + right)) .ok := rfl

/-- What stops the evaluation of two operands: the first one, the second one, or their combination. -/
theorem inOrder_eq_error {α β : Type} {left right k : Nat} {first second : Except Nat α}
    {combine : α → α → Option β} (h : inOrder left right first second combine = .error k) :
    first = .error k ∨ (∃ j, second = .error j ∧ k = left + j) ∨
      (∃ x y, combine x y = none) ∧ k = left + right := by
  cases first with
  | error j =>
    cases h
    exact .inl rfl
  | ok x =>
    cases second with
    | error j =>
      cases h
      exact .inr (.inl ⟨j, rfl, rfl⟩)
    | ok y =>
      rw [inOrder_ok_ok] at h
      cases hz : combine x y with
      | none =>
        rw [hz] at h
        cases h
        exact .inr (.inr ⟨⟨x, y, hz⟩, rfl⟩)
      | some z =>
        rw [hz] at h
        cases h

theorem getElem?_operator {first second : List Instruction} {ins ins' : Instruction} {k : Nat}
    (h : first[k]? = some ins' ∨ (∃ j, second[j]? = some ins' ∧ k = first.length + j) ∨
      ins = ins' ∧ k = first.length + second.length) :
    (first ++ second ++ [ins])[k]? = some ins' := by
  rcases h with hfirst | ⟨j, hsecond, rfl⟩ | ⟨rfl, rfl⟩
  · obtain ⟨hlt, -⟩ := List.getElem?_eq_some_iff.1 hfirst
    rw [List.append_assoc, List.getElem?_append_left hlt, hfirst]
  · obtain ⟨hlt, -⟩ := List.getElem?_eq_some_iff.1 hsecond
    rw [List.append_assoc, List.getElem?_append_right (Nat.le_add_right _ _), Nat.add_sub_cancel_left,
      List.getElem?_append_left hlt, hsecond]
  · rw [← List.length_append, List.getElem?_concat_length]

/-- Evaluation stops at an operator that divides. -/
theorem divides_of_eval_eq_error {memory : Memory} {e : Expr t} {k : Nat}
    (h : e.eval memory = .error k) :
    ∃ op : ArithOp, op.divides = true ∧ e.code[k]? = some ⟨.arith op, none⟩ := by
  induction e generalizing k with
  | integer | boolean | cell => cases h
  | arith op a b iha ihb =>
    rcases inOrder_eq_error h with ha | ⟨j, hb, rfl⟩ | ⟨⟨x, y, hnone⟩, rfl⟩
    · obtain ⟨op', hdivides, hcode⟩ := iha ha
      exact ⟨op', hdivides, getElem?_operator (.inl hcode)⟩
    · obtain ⟨op', hdivides, hcode⟩ := ihb hb
      exact ⟨op', hdivides, getElem?_operator (.inr (.inl ⟨j, hcode, rfl⟩))⟩
    · refine ⟨op, ?_, getElem?_operator (.inr (.inr ⟨rfl, rfl⟩))⟩
      cases hdivides : op.divides with
      | true => rfl
      | false => simp [ArithOp.result?, hdivides] at hnone
  | compare op a b iha ihb | logic op a b iha ihb =>
    rcases inOrder_eq_error h with ha | ⟨j, hb, rfl⟩ | ⟨⟨x, y, hnone⟩, rfl⟩
    · obtain ⟨op', hdivides, hcode⟩ := iha ha
      exact ⟨op', hdivides, getElem?_operator (.inl hcode)⟩
    · obtain ⟨op', hdivides, hcode⟩ := ihb hb
      exact ⟨op', hdivides, getElem?_operator (.inr (.inl ⟨j, hcode, rfl⟩))⟩
    · cases hnone

theorem depth_pos (e : Expr t) : 0 < e.depth := by
  induction e with
  | integer | boolean | cell => exact Nat.one_pos
  | arith _ _ _ iha | compare _ _ _ iha | logic _ _ _ iha =>
    exact Nat.lt_of_lt_of_le iha (Nat.le_max_left _ _)

end Expr

namespace Machine

/-! ## Code in a program -/

/-- The program has the code from index `pc` on. -/
def CodeAt (program : Program) (pc : Nat) (code : List Instruction) : Prop :=
  ∀ i ins, code[i]? = some ins → program[pc + i]? = some ins

variable {program : Program} {pc : Nat} {m r : Machine}

theorem CodeAt.left {first second : List Instruction} (h : CodeAt program pc (first ++ second)) :
    CodeAt program pc first := by
  intro i ins hi
  obtain ⟨hlt, -⟩ := List.getElem?_eq_some_iff.1 hi
  exact h i ins ((List.getElem?_append_left hlt).trans hi)

theorem CodeAt.right {first second : List Instruction} (h : CodeAt program pc (first ++ second)) :
    CodeAt program (pc + first.length) second := by
  intro i ins hi
  rw [Nat.add_assoc]
  refine h _ ins ?_
  rw [List.getElem?_append_right (Nat.le_add_right _ _), Nat.add_sub_cancel_left]
  exact hi

theorem codeAt_toArray (code : List Instruction) : CodeAt code.toArray 0 code := by
  intro i ins hi
  rw [Nat.zero_add, List.getElem?_toArray]
  exact hi

/-- The machine after `n` instructions that leave one value. -/
def produced (n : Nat) (v : Value) (m : Machine) : Machine :=
  { m.withTop (v :: m.stack.topDown) with pc := m.pc + n, steps := m.steps + n }

/-- A run comes to an index where the instruction faults, and memory and output stay as they were. -/
def StopsAt (program : Program) (m : Machine) (i : Nat) (fault : Fault) : Prop :=
  ∃ n r ins s, Reaches program n m r ∧ r.pc = i ∧ program[i]? = some ins ∧
    step program.size ins r = .error fault s ∧ s.memory = m.memory ∧ s.output = m.output

theorem StopsAt.produced {n k i : Nat} {v : Value} {fault : Fault}
    (hreach : Reaches program n m (m.produced k v)) (h : StopsAt program (m.produced k v) i fault) :
    StopsAt program m i fault := by
  obtain ⟨n', r, ins, s, hreach', hpc, hp, hs, hmemory, houtput⟩ := h
  exact ⟨n + n', r, ins, s, hreach.trans hreach', hpc, hp, hs, hmemory, houtput⟩

theorem reaches_one {ins : Instruction} {s : Machine} (hfree : m.config.stepLimit = none)
    (hp : program[m.pc]? = some ins) (he : execute program.size ins m.dispatched = .ok () s) :
    Reaches program 1 m s := by
  refine .step hp ?_ (.refl _)
  rw [step_of_belowLimit (belowLimit_of_unlimited hfree)]
  exact he

theorem stopsAt_zero {ins : Instruction} {fault : Fault} {s : Machine}
    (hfree : m.config.stepLimit = none) (hp : program[m.pc]? = some ins)
    (he : execute program.size ins m.dispatched = .error fault s) (hmemory : s.memory = m.memory)
    (houtput : s.output = m.output) : StopsAt program m m.pc fault := by
  refine ⟨0, m, ins, s, .refl m, rfl, hp, ?_, hmemory, houtput⟩
  rw [step_of_belowLimit (belowLimit_of_unlimited hfree)]
  exact he

/-! ## Operators -/

/-- An instruction that takes two values and leaves what they combine to. If there is no result, it
faults with a division by zero. -/
def Combines {α β : Type} (ins : Instruction) (wrap : α → Value) (wrap' : β → Value)
    (combine : α → α → Option β) : Prop :=
  ∀ length (m : Machine) x y rest, rest.length < m.stack.limit →
    execute length ins (m.withTop (wrap y :: wrap x :: rest)) =
      match combine x y with
      | some z => .ok () (m.withTop (wrap' z :: rest))
      | none => .error .divisionByZero (m.withTop rest)

theorem combines_arith (op : ArithOp) :
    Combines ⟨.arith op, none⟩ .integer .integer op.result? := by
  intro length m x y rest hroom
  unfold execute
  simp only [takes_bind_fits Stack.takes_popInteger]
  by_cases hzero : op.divides = true ∧ y = 0
  · obtain ⟨hdivides, rfl⟩ := hzero
    rw [ArithOp.eval_zero hdivides]
    simp only [ArithOp.result?, hdivides, and_self, if_true]
    rfl
  · have hne : op.divides = true → y ≠ 0 := fun hdivides hy => hzero ⟨hdivides, hy⟩
    rw [ArithOp.eval_eq hne]
    simp only [ArithOp.result?, hzero, if_false]
    exact push_withTop_of_lt _ hroom

theorem combines_compare (op : CompareOp) :
    Combines ⟨.compare op, none⟩ .integer .boolean
      fun x y => some (op.onIntegers x.toInt y.toInt) := by
  intro length m x y rest hroom
  unfold execute
  simp only [takes_bind_fits Stack.takes_popInteger, op.eval_eq]
  exact push_withTop_of_lt _ hroom

theorem combines_logic (op : LogicOp) :
    Combines ⟨.logic op, none⟩ .boolean .boolean fun x y => some (op.onTruths x y) := by
  intro length m x y rest hroom
  unfold execute
  simp only [takes_bind_fits Stack.takes_popBoolean, op.eval_eq]
  exact push_withTop_of_lt _ hroom

/-! ## Evaluation by code -/

/-- From `m`, the code of an expression of the given depth comes to the result of the expression if the
stack has room for it. If it has not, the run stops before the end of the code. -/
structure Computes {α : Type} (program : Program) (m : Machine) (code : List Instruction)
    (depth : Nat) (wrap : α → Value) (result : Except Nat α) : Prop where
  value : ∀ a, m.stack.size + depth ≤ m.stack.limit → result = .ok a →
    Reaches program code.length m (m.produced code.length (wrap a))
  stops : ∀ k, m.stack.size + depth ≤ m.stack.limit → result = .error k →
    StopsAt program m (m.pc + k) .divisionByZero
  overflows : m.stack.limit < m.stack.size + depth →
    ∃ i fault, StopsAt program m i fault ∧
      (fault = .stackOverflow m.stack.limit ∨ fault = .divisionByZero)

/-- An instruction that pushes a value needs room for it, and nothing else. -/
theorem computes_leaf {α : Type} {ins : Instruction} {wrap : α → Value} {a : α}
    (hfree : m.config.stepLimit = none) (hcode : CodeAt program m.pc [ins])
    (he : execute program.size ins m.dispatched = onStack (Stack.push (wrap a)) m.dispatched) :
    Computes program m [ins] 1 wrap (.ok a) := by
  have hp : program[m.pc]? = some ins := hcode 0 ins rfl
  have htop : m.dispatched.withTop m.stack.topDown = m.dispatched :=
    withTop_of_topDown (m := m.dispatched) rfl
  refine ⟨?_, nofun, ?_⟩
  · rintro _ hroom ⟨⟩
    have hpush : onStack (Stack.push (wrap a)) (m.dispatched.withTop m.stack.topDown) =
        .ok () (m.produced 1 (wrap a)) :=
      push_withTop_of_lt _ (by rw [Stack.length_topDown]; exact hroom)
    rw [htop, ← he] at hpush
    exact reaches_one hfree hp hpush
  · intro hfull
    have hpush : onStack (Stack.push (wrap a)) (m.dispatched.withTop m.stack.topDown) =
        .error (.stackOverflow m.stack.limit) (m.dispatched.withTop m.stack.topDown) :=
      push_withTop_of_ge _ (by rw [Stack.length_topDown]; exact Nat.le_of_lt_succ hfull)
    rw [htop, ← he] at hpush
    exact ⟨m.pc, _, stopsAt_zero hfree hp hpush rfl rfl, .inl rfl⟩

/-- The operator after two operands that were computed one after the other. -/
theorem execute_operator {α β : Type} {wrap : α → Value} {wrap' : β → Value}
    {combine : α → α → Option β} {ins : Instruction} (hcombines : Combines ins wrap wrap' combine)
    (hroom : m.stack.size < m.stack.limit) (length left right : Nat) (x y : α) :
    execute length ins ((m.produced left (wrap x)).produced right (wrap y)).dispatched =
      match combine x y with
      | some z => .ok () (m.produced (left + right + 1) (wrap' z))
      | none => .error .divisionByZero
          { m with pc := m.pc + left + right + 1, steps := m.steps + left + right + 1 } := by
  have h := hcombines length
    { m with pc := m.pc + left + right + 1, steps := m.steps + left + right + 1 } x y
    m.stack.topDown (by rw [Stack.length_topDown]; exact hroom)
  have hbelow : { m with pc := m.pc + left + right + 1, steps := m.steps + left + right + 1 }.withTop
      m.stack.topDown =
        { m with pc := m.pc + left + right + 1, steps := m.steps + left + right + 1 } :=
    withTop_of_topDown rfl
  have hafter : ((m.produced left (wrap x)).produced right (wrap y)).dispatched =
      { m with pc := m.pc + left + right + 1, steps := m.steps + left + right + 1 }.withTop
        (wrap y :: wrap x :: m.stack.topDown) := by
    simp [produced, dispatched, withTop]
  rw [hafter, h, hbelow]
  cases combine x y with
  | some z => simp only [produced, withTop, Nat.add_assoc]
  | none => rfl

theorem size_produced (n : Nat) (v : Value) (m : Machine) :
    (m.produced n v).stack.size = m.stack.size + 1 := by
  simp [produced, withTop]

theorem limit_produced (n : Nat) (v : Value) (m : Machine) :
    (m.produced n v).stack.limit = m.stack.limit := rfl

section Operands

variable {α β : Type} {wrap : α → Value} {wrap' : β → Value} {combine : α → α → Option β}
  {ins : Instruction} {first second : List Instruction} {d d' : Nat} {a b : Except Nat α}

/-- The room that two operands need one after the other: the left one is there while the right one is
computed. If it is lacking, the run stops in one of them. -/
theorem Computes.overflows_operands (ha : Computes program m first d wrap a)
    (hb : ∀ x, Computes program (m.produced first.length (wrap x)) second d' wrap b)
    (hfull : m.stack.limit < m.stack.size + max d (1 + d')) :
    ∃ i fault, StopsAt program m i fault ∧
      (fault = .stackOverflow m.stack.limit ∨ fault = .divisionByZero) := by
  by_cases hroom : m.stack.size + d ≤ m.stack.limit
  · cases a with
    | error k => exact ⟨_, _, ha.stops k hroom rfl, .inr rfl⟩
    | ok x =>
      -- The left operand had room, so it is the right one, above its value, that lacks it.
      have hsecond : (m.produced first.length (wrap x)).stack.limit <
          (m.produced first.length (wrap x)).stack.size + d' := by
        rw [size_produced, limit_produced]
        omega
      obtain ⟨i, fault, hstop, hfault⟩ := (hb x).overflows hsecond
      exact ⟨i, fault, hstop.produced (ha.value x hroom rfl), hfault⟩
  · exact ha.overflows (by omega)

/-- Two operands and the operator that combines their values. -/
theorem computes_operator (hfree : m.config.stepLimit = none) (hd : 0 < d)
    (hcode : CodeAt program m.pc (first ++ second ++ [ins]))
    (hcombines : Combines ins wrap wrap' combine) (ha : Computes program m first d wrap a)
    (hb : ∀ x, Computes program (m.produced first.length (wrap x)) second d' wrap b) :
    Computes program m (first ++ second ++ [ins]) (max d (1 + d')) wrap'
      (Expr.inOrder first.length second.length a b combine) := by
  have hfull := ha.overflows_operands hb
  -- The cases are those of `inOrder`: the run stops in the left operand, in the right one, at the
  -- operator, or not at all.
  cases a with
  | error k =>
    refine ⟨nofun, ?_, hfull⟩
    rintro _ hroom ⟨⟩
    exact ha.stops k (by omega) rfl
  | ok x =>
    have hfirst (hroom : m.stack.size + max d (1 + d') ≤ m.stack.limit) :
        Reaches program first.length m (m.produced first.length (wrap x)) :=
      ha.value x (by omega) rfl
    have hfits (hroom : m.stack.size + max d (1 + d') ≤ m.stack.limit) :
        (m.produced first.length (wrap x)).stack.size + d' ≤
          (m.produced first.length (wrap x)).stack.limit := by
      rw [size_produced, limit_produced]
      omega
    cases b with
    | error k =>
      refine ⟨nofun, ?_, hfull⟩
      rintro _ hroom ⟨⟩
      rw [← Nat.add_assoc]
      exact ((hb x).stops k (hfits hroom) rfl).produced (hfirst hroom)
    | ok y =>
      have hp : program[((m.produced first.length (wrap x)).produced second.length (wrap y)).pc]? =
          some ins := by
        have h := hcode.right 0 ins rfl
        rw [List.length_append, Nat.add_zero, ← Nat.add_assoc] at h
        exact h
      rw [Expr.inOrder_ok_ok]
      cases hz : combine x y with
      | some z =>
        refine ⟨?_, nofun, hfull⟩
        rintro _ hroom ⟨⟩
        have hlt : m.stack.size < m.stack.limit := by omega
        have he := execute_operator hcombines hlt program.size first.length second.length x y
        rw [hz] at he
        rw [List.length_append, List.length_append]
        exact ((hfirst hroom).trans ((hb x).value y (hfits hroom) rfl)).trans
          (reaches_one hfree hp he)
      | none =>
        refine ⟨nofun, ?_, hfull⟩
        rintro _ hroom ⟨⟩
        have hlt : m.stack.size < m.stack.limit := by omega
        have he := execute_operator hcombines hlt program.size first.length second.length x y
        rw [hz] at he
        rw [← Nat.add_assoc]
        have hstop := stopsAt_zero (m := (m.produced first.length (wrap x)).produced _ (wrap y)) hfree
          hp he rfl rfl
        exact (hstop.produced ((hb x).value y (hfits hroom) rfl)).produced (hfirst hroom)

end Operands

/-- Wherever its code stands in a program, an expression is computed by it. -/
theorem computes_code {t : Tag} (e : Expr t) (hfree : m.config.stepLimit = none)
    (hcells : e.Within m.memory) (hcode : CodeAt program m.pc e.code) :
    Computes program m e.code e.depth Value.ofCarrier (e.eval m.memory) := by
  induction e generalizing m with
  | integer n => exact computes_leaf hfree hcode rfl
  | boolean b => exact computes_leaf hfree hcode rfl
  | cell index =>
    refine computes_leaf hfree hcode ?_
    have hload : m.memory.load index = .ok ((m.memory.get? index.toInt.toNat).getD 0) := by
      have hindex : m.memory.Holds index := hcells
      unfold Memory.load Memory.get?
      rw [dif_pos hindex, Array.getElem?_eq_getElem hindex.2]
      rfl
    have hcheck : loadCell index m.dispatched = .ok _ m.dispatched :=
      congrArg (check · m.dispatched) hload
    simp only [execute, Instruction.requireInteger, check, bind, EStateM.bind, hcheck]
    rfl
  | arith op a b iha ihb =>
    refine computes_operator hfree a.depth_pos hcode (combines_arith op)
      (iha hfree hcells.1 hcode.left.left) fun x => ?_
    exact ihb hfree hcells.2 hcode.left.right
  | compare op a b iha ihb =>
    refine computes_operator hfree a.depth_pos hcode (combines_compare op)
      (iha hfree hcells.1 hcode.left.left) fun x => ?_
    exact ihb hfree hcells.2 hcode.left.right
  | logic op a b iha ihb =>
    refine computes_operator hfree a.depth_pos hcode (combines_logic op)
      (iha hfree hcells.1 hcode.left.left) fun x => ?_
    exact ihb hfree hcells.2 hcode.left.right

/-! ## The theorem -/

theorem ends_trapped_of_stopsAt {i : Nat} {fault : Fault} (h : StopsAt program m.start i fault) :
    ∃ ins s, program[i]? = some ins ∧
      Ends program m (.trapped { pc := i, opcode := ins.opcode, fault } s) ∧
      s.memory = m.memory ∧ s.output = m.output := by
  obtain ⟨n, r, ins, s, hreach, rfl, hp, hs, hmemory, houtput⟩ := h
  exact ⟨ins, s, hp, ends_trapped_iff.2 ⟨n, r, ins, hreach, hp, hs, rfl, rfl⟩, hmemory, houtput⟩

/-- The code of an expression computes it, on any stack and without a step limit. If the stack has as
much room as the expression is deep, the run ends with the value of the expression on top and with
nothing else changed, after as many steps as there are instructions. If the evaluation divides by zero,
it traps at the first operator that does. With less room the run does not reach its end: the stack
overflows, unless a division by zero comes first. -/
theorem run_code_evaluates {t : Tag} (e : Expr t) (m : Machine) (hfree : m.config.stepLimit = none)
    (hcells : e.Within m.memory) :
    (m.stack.size + e.depth ≤ m.stack.limit →
      (∀ v, e.eval m.memory = .ok v →
        Ends e.code.toArray m
          (.finished
            { m with
              stack := { m.stack with values := m.stack.values.push (.ofCarrier v) }
              pc := e.code.length
              steps := e.code.length })) ∧
      ∀ k, e.eval m.memory = .error k →
        ∃ op s, (op = .div ∨ op = .mod) ∧ e.code[k]? = some ⟨.arith op, none⟩ ∧
          Ends e.code.toArray m
            (.trapped { pc := k, opcode := .arith op, fault := .divisionByZero } s) ∧
          s.memory = m.memory ∧ s.output = m.output) ∧
    (m.stack.limit < m.stack.size + e.depth →
      (∀ s, ¬ Ends e.code.toArray m (.finished s)) ∧
      ∃ trap s, Ends e.code.toArray m (.trapped trap s) ∧
        (trap.fault = .stackOverflow m.stack.limit ∨ trap.fault = .divisionByZero)) := by
  have hcomputes : Computes e.code.toArray m.start e.code e.depth Value.ofCarrier (e.eval m.memory) :=
    computes_code e hfree hcells (codeAt_toArray e.code)
  refine ⟨fun hroom => ⟨?_, ?_⟩, ?_⟩
  · intro v hv
    have hreach := hcomputes.value v hroom hv
    have hlast : m.start.produced e.code.length (.ofCarrier v) =
        { m with
          stack := { m.stack with values := m.stack.values.push (.ofCarrier v) }
          pc := e.code.length
          steps := e.code.length } := by
      simp [produced, start, withTop, Stack.ofTop_cons_topDown]
    rw [hlast] at hreach
    refine ends_finished_iff.2 ⟨_, hreach, ?_⟩
    simp
  · intro k hk
    obtain ⟨op, hdivides, hop⟩ := Expr.divides_of_eval_eq_error hk
    have hstop := hcomputes.stops k hroom hk
    have hpc : m.start.pc + k = k := Nat.zero_add k
    rw [hpc] at hstop
    obtain ⟨ins, s, hins, hends, hkept⟩ := ends_trapped_of_stopsAt hstop
    rw [List.getElem?_toArray, hop] at hins
    cases hins
    exact ⟨op, s, ArithOp.divides_iff.1 hdivides, hop, hends, hkept⟩
  · intro hfull
    obtain ⟨i, fault, hstop, hfault⟩ := hcomputes.overflows hfull
    obtain ⟨ins, s, -, hends, -⟩ := ends_trapped_of_stopsAt hstop
    refine ⟨fun s' hs' => ?_, _, s, hends, hfault⟩
    cases hends.unique hs'

/-- The difference of a cell and a number, divided by a remainder, is `-7 / 2` and so negative: that and
a true disjunction exclude each other. On a stack with room for three more values, which is what it
needs, `false` is left above what was there. -/
theorem run_code_sign_of_quotient :
    Ends (Expr.logic .bitXor
        (.compare .less
          (.arith .div (.arith .sub (.cell 0) (.integer 9)) (.arith .mod (.integer (-1)) (.integer 3)))
          (.integer 0))
        (.logic .or (.boolean false) (.boolean true))).code.toArray
      ⟨{ maxStack := 4 }, ⟨#[.text "below"], 4⟩, ⟨#[2]⟩, .silent, 0, 0⟩
      (.finished
        ⟨{ maxStack := 4 }, ⟨#[.text "below", .boolean false], 4⟩, ⟨#[2]⟩, .silent, 13, 13⟩) := by
  have hcells : Expr.Within ⟨#[2]⟩ (.logic .bitXor
      (.compare .less
        (.arith .div (.arith .sub (.cell 0) (.integer 9)) (.arith .mod (.integer (-1)) (.integer 3)))
        (.integer 0))
      (.logic .or (.boolean false) (.boolean true))) :=
    ⟨⟨⟨⟨(by decide : Memory.Holds ⟨#[2]⟩ 0), trivial⟩, trivial, trivial⟩, trivial⟩, trivial, trivial⟩
  exact ((run_code_evaluates _
    ⟨{ maxStack := 4 }, ⟨#[.text "below"], 4⟩, ⟨#[2]⟩, .silent, 0, 0⟩ rfl hcells).1 (by decide)).1 false
      rfl

end Machine

end StackMachine
