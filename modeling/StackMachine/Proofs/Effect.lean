-- SUMMARY: The rules of the instructions.
import StackMachine.Proofs.Conditions

/-!
# What an instruction does

The rules of the instructions: what each of them makes of a machine when it succeeds. An instruction
that faults has made nothing: it has at most taken its operands off the stack, or handed a part of a
line to a sink.
-/

namespace StackMachine

theorem Memory.size_of_store_ok {memory memory' : Memory} {index v : Int32}
    (h : memory.store index v = .ok memory') : memory'.size = memory.size := by
  unfold Memory.store at h
  split at h
  · rename_i hindex
    cases h
    exact Array.size_set hindex.2
  · cases h

namespace Machine

/-! ## Success -/

/-- The machines that an instruction may lead to, in a program of the given length. Of two values the
upper one is the right operand. -/
inductive Effect (length : Nat) (ins : Instruction) (m : Machine) : Machine → Prop where
  | push {v : Value} (hop : ins.opcode = .push) (hv : ins.operand = some v)
      (hroom : m.stack.size < m.stack.limit) :
      Effect length ins m (m.withTop (v :: m.stack.topDown))
  | arith {op : ArithOp} {a b n : Int32} {rest : List Value} (hop : ins.opcode = .arith op)
      (htop : m.stack.topDown = .integer b :: .integer a :: rest) (hn : op.eval a b = .ok n)
      (hroom : rest.length < m.stack.limit) :
      Effect length ins m (m.withTop (.integer n :: rest))
  | logic {op : LogicOp} {a b : Bool} {rest : List Value} (hop : ins.opcode = .logic op)
      (htop : m.stack.topDown = .boolean b :: .boolean a :: rest)
      (hroom : rest.length < m.stack.limit) :
      Effect length ins m (m.withTop (.boolean (op.eval a b) :: rest))
  | compare {op : CompareOp} {a b : Int32} {rest : List Value} (hop : ins.opcode = .compare op)
      (htop : m.stack.topDown = .integer b :: .integer a :: rest)
      (hroom : rest.length < m.stack.limit) :
      Effect length ins m (m.withTop (.boolean (op.eval a b) :: rest))
  | real {op : RealOp} {a : Int32} {rest : List Value} (hop : ins.opcode = .real op)
      (htop : m.stack.topDown = .integer a :: rest) (hroom : rest.length < m.stack.limit) :
      Effect length ins m (m.withTop (.integer (op.eval a) :: rest))
  | load {index n : Int32} (hop : ins.opcode = .load) (hindex : ins.operand = some (.integer index))
      (hn : m.memory.load index = .ok n) (hroom : m.stack.size < m.stack.limit) :
      Effect length ins m (m.withTop (.integer n :: m.stack.topDown))
  | store {index n : Int32} {rest : List Value} {memory : Memory} (hop : ins.opcode = .store)
      (hindex : ins.operand = some (.integer index)) (htop : m.stack.topDown = .integer n :: rest)
      (hmemory : m.memory.store index n = .ok memory) :
      Effect length ins m { m.withTop rest with memory }
  | jump {target : Int32} (hop : ins.opcode = .jump)
      (htarget : ins.operand = some (.integer target))
      (hvalid : 0 ≤ target.toInt ∧ target.toInt.toNat ≤ length) :
      Effect length ins m { m with pc := target.toInt.toNat }
  | branch {condition : Bool} {target : Int32} {rest : List Value}
      (hop : ins.opcode = .jumpIf condition) (htarget : ins.operand = some (.integer target))
      (htop : m.stack.topDown = .boolean condition :: rest)
      (hvalid : 0 ≤ target.toInt ∧ target.toInt.toNat ≤ length) :
      Effect length ins m { m.withTop rest with pc := target.toInt.toNat }
  | pass {condition b : Bool} {target : Int32} {rest : List Value}
      (hop : ins.opcode = .jumpIf condition) (htarget : ins.operand = some (.integer target))
      (htop : m.stack.topDown = .boolean b :: rest) (hne : b ≠ condition) :
      Effect length ins m (m.withTop rest)
  | print {v : Value} {rest : List Value} {output : Output} (hop : ins.opcode = .print)
      (htop : m.stack.topDown = v :: rest)
      (houtput : Output.println v.render m.output = .ok () output) :
      Effect length ins m { m.withTop rest with output }

namespace Effect

variable {length : Nat} {ins : Instruction} {m m' : Machine}

theorem limit (h : Effect length ins m m') : m'.stack.limit = m.stack.limit := by
  cases h <;> rfl

/-- The next instruction is the following one, unless the instruction jumps. -/
theorem pc_cases (h : Effect length ins m m') :
    (ins.opcode ≠ .jump ∧ m'.pc = m.pc) ∨
      ∃ target : Int32, ins.opcode.jumps = true ∧ ins.operand = some (.integer target) ∧
        target.toInt.toNat ≤ length ∧ m'.pc = target.toInt.toNat := by
  cases h with
  | jump hop htarget hvalid | branch hop htarget _ hvalid =>
    exact .inr ⟨_, by rw [hop]; rfl, htarget, hvalid.2, rfl⟩
  | push hop | arith hop | logic hop | compare hop | real hop | load hop | store hop | pass hop
  | print hop => exact .inl ⟨by rw [hop]; exact nofun, rfl⟩

theorem pc_le (h : Effect length ins m m') (hm : m.pc ≤ length) : m'.pc ≤ length := by
  rcases h.pc_cases with ⟨-, hpc⟩ | ⟨target, -, -, hle, hpc⟩
  · rw [hpc]
    exact hm
  · rw [hpc]
    exact hle

theorem size_memory (h : Effect length ins m m') : m'.memory.size = m.memory.size := by
  cases h with
  | store _ _ _ hmemory => exact Memory.size_of_store_ok hmemory
  | _ => rfl

theorem size_le (h : Effect length ins m m') (hm : m.stack.size ≤ m.stack.limit) :
    m'.stack.size ≤ m'.stack.limit := by
  have hsize := Stack.length_topDown m.stack
  rw [h.limit]
  cases h with
  | push _ _ hroom | load _ _ _ hroom =>
    rw [size_withTop, List.length_cons, hsize]
    exact hroom
  | arith _ _ _ hroom | logic _ _ hroom | compare _ _ hroom | real _ _ hroom =>
    rw [size_withTop, List.length_cons]
    exact hroom
  | jump => exact hm
  | store _ _ htop | branch _ _ htop | pass _ _ htop | print _ htop =>
    -- A value was taken and none was put back.
    rw [htop, List.length_cons] at hsize
    exact Nat.le_trans (Nat.le_of_eq (size_withTop _ _)) (by omega)

/-- The output stays, or a line is printed. -/
theorem output (h : Effect length ins m m') :
    m'.output = m.output ∨ ∃ line, Output.println line m.output = .ok () m'.output := by
  cases h with
  | print _ _ houtput => exact .inr ⟨_, houtput⟩
  | _ => exact .inl rfl

end Effect

/-! ## Failure -/

/-- What a fault leaves of a machine: at most `k` values have been taken off the stack, and a sink may
have received a part of a line. -/
structure Remains (k : Nat) (m m' : Machine) : Prop where
  config : m'.config = m.config
  stack : ∃ taken : List Value, taken.length ≤ k ∧ m.stack.topDown = taken ++ m'.stack.topDown
  limit : m'.stack.limit = m.stack.limit
  memory : m'.memory = m.memory
  output : m'.output = m.output ∨
    ∃ sink sink', m.output = .writer sink ∧ m'.output = .writer sink'
  pc : m'.pc = m.pc
  steps : m'.steps = m.steps

namespace Remains

variable {k : Nat} {m m' : Machine}

theorem refl (k : Nat) (m : Machine) : Remains k m m where
  config := rfl
  stack := ⟨[], Nat.zero_le k, rfl⟩
  limit := rfl
  memory := rfl
  output := .inl rfl
  pc := rfl
  steps := rfl

/-- What remains after one value was taken remains of the machine with that value. -/
theorem of_withTop {v : Value} {rest : List Value} (htop : m.stack.topDown = v :: rest)
    (h : Remains k (m.withTop rest) m') : Remains (k + 1) m m' where
  config := h.config
  stack := by
    obtain ⟨taken, hlength, htaken⟩ := h.stack
    rw [topDown_withTop] at htaken
    refine ⟨v :: taken, Nat.succ_le_succ hlength, ?_⟩
    rw [htop, htaken, List.cons_append]
  limit := h.limit
  memory := h.memory
  output := h.output
  pc := h.pc
  steps := h.steps

/-- No text that was captured is lost or added. -/
theorem captured (h : Remains k m m') : m'.output.captured = m.output.captured := by
  rcases h.output with heq | ⟨sink, sink', hm, hm'⟩
  · rw [heq]
  · rw [hm, hm']
    rfl

end Remains

/-! ## Results -/

variable {α : Type} {k : Nat} {Q : Machine → Prop} {m : Machine}

/-- The result of an action that starts at `m`: a success is as `Q` says, and a fault, which is not one
of the step limit, leaves what remains when at most `k` values were taken. -/
def Yields (k : Nat) (Q : Machine → Prop) (m : Machine) : EStateM.Result Fault Machine Unit → Prop
  | .ok _ m' => Q m'
  | .error fault m' => Remains k m m' ∧ ∀ limit, fault ≠ .stepLimitExceeded limit

theorem yields_pop_bind {kind : Option Tag} {wrap : α → Value} {action : Stack.Action α}
    {f : α → Action Unit} (htakes : Stack.Takes kind wrap action)
    (h : ∀ a rest, m.stack.topDown = wrap a :: rest →
      Yields k Q (m.withTop rest) (f a (m.withTop rest))) :
    Yields (k + 1) Q m ((onStack action >>= f) m) := by
  rcases htakes.cases m.stack.topDown with
    hnil | ⟨a, rest, -, hfits⟩ | ⟨tag, v, rest, rfl, hne, hunfit⟩
  · have herror := takes_bind_empty (f := f) htakes m
    rw [withTop_of_topDown hnil] at herror
    rw [herror]
    exact ⟨.refl _ m, nofun⟩
  · have hok := takes_bind_fits (f := f) htakes m a rest
    rw [withTop_of_topDown hfits] at hok
    have hrest := h a rest hfits
    rw [hok]
    generalize f a (m.withTop rest) = r at hrest ⊢
    cases r with
    | ok u m' => exact hrest
    | error fault m' => exact ⟨.of_withTop hfits hrest.1, hrest.2⟩
  · have herror := takes_bind_unfit (f := f) htakes m hne rest
    rw [withTop_of_topDown hunfit] at herror
    rw [herror]
    exact ⟨.of_withTop hunfit (.refl k _), nofun⟩

/-- Two pops of one kind. -/
theorem yields_pop_pop_bind {kind : Option Tag} {wrap : α → Value} {action : Stack.Action α}
    {f : α → α → Action Unit} (htakes : Stack.Takes kind wrap action)
    (h : ∀ b a rest, m.stack.topDown = wrap b :: wrap a :: rest →
      Yields k Q (m.withTop rest) (f b a (m.withTop rest))) :
    Yields (k + 2) Q m ((onStack action >>= fun b => onStack action >>= fun a => f b a) m) := by
  refine yields_pop_bind htakes fun b below hb => ?_
  refine yields_pop_bind htakes fun a rest ha => ?_
  rw [topDown_withTop] at ha
  exact h b a rest (by rw [hb, ha])

theorem yields_check_bind {result : Except Fault α} {f : α → Action Unit}
    (hfault : ∀ fault, result = .error fault → ∀ limit, fault ≠ .stepLimitExceeded limit)
    (h : ∀ a, result = .ok a → Yields k Q m (f a m)) :
    Yields k Q m ((check result >>= f) m) := by
  cases result with
  | ok a => exact h a rfl
  | error fault => exact ⟨.refl k m, hfault fault rfl⟩

theorem yields_operand_bind {ins : Instruction} {f : Value → Action Unit}
    (h : ∀ v, ins.operand = some v → Yields k Q m (f v m)) :
    Yields k Q m ((check ins.requireOperand >>= f) m) := by
  obtain ⟨opcode, operand⟩ := ins
  cases operand with
  | none => exact ⟨.refl k m, nofun⟩
  | some v => exact h v rfl

theorem yields_integerOperand_bind {ins : Instruction} {f : Int32 → Action Unit}
    (h : ∀ n, ins.operand = some (.integer n) → Yields k Q m (f n m)) :
    Yields k Q m ((check ins.requireInteger >>= f) m) := by
  obtain ⟨opcode, operand⟩ := ins
  cases operand with
  | none => exact ⟨.refl k m, nofun⟩
  | some v =>
    cases v with
    | integer n => exact h n rfl
    | text s => exact ⟨.refl k m, nofun⟩
    | boolean b => exact ⟨.refl k m, nofun⟩

theorem yields_push {v : Value}
    (h : m.stack.size < m.stack.limit → Q (m.withTop (v :: m.stack.topDown))) :
    Yields k Q m (onStack (Stack.push v) m) := by
  by_cases hroom : m.stack.size < m.stack.limit
  · have hok := push_withTop_of_lt v ((Stack.length_topDown m.stack).symm ▸ hroom)
    rw [withTop_topDown] at hok
    rw [hok]
    exact h hroom
  · have hfull : m.stack.limit ≤ m.stack.topDown.length := by simpa using hroom
    have herror := push_withTop_of_ge v hfull
    rw [withTop_topDown] at herror
    rw [herror]
    exact ⟨.refl k m, nofun⟩

theorem yields_push_withTop {v : Value} {rest : List Value}
    (h : rest.length < m.stack.limit → Q (m.withTop (v :: rest))) :
    Yields k Q (m.withTop rest) (onStack (Stack.push v) (m.withTop rest)) := by
  refine yields_push fun hroom => ?_
  rw [size_withTop] at hroom
  rw [topDown_withTop]
  exact h hroom

theorem outOfBounds_of_load_error {memory : Memory} {index : Int32} {fault : Fault}
    (h : memory.load index = .error fault) : fault = .outOfBounds index.toInt memory.size := by
  unfold Memory.load at h
  split at h
  · cases h
  · cases h
    rfl

theorem outOfBounds_of_store_error {memory : Memory} {index v : Int32} {fault : Fault}
    (h : memory.store index v = .error fault) : fault = .outOfBounds index.toInt memory.size := by
  unfold Memory.store at h
  split at h
  · cases h
  · cases h
    rfl

theorem yields_loadCell_bind {index : Int32} {f : Int32 → Action Unit}
    (h : ∀ n, m.memory.load index = .ok n → Yields k Q m (f n m)) :
    Yields k Q m ((loadCell index >>= f) m) := by
  have hcheck : Yields k Q m ((check (m.memory.load index) >>= f) m) := by
    refine yields_check_bind (fun fault hfault => ?_) h
    rw [outOfBounds_of_load_error hfault]
    exact nofun
  exact hcheck

theorem yields_storeCell {index n : Int32}
    (h : ∀ memory, m.memory.store index n = .ok memory → Q { m with memory }) :
    Yields k Q m (storeCell index n m) := by
  unfold storeCell
  cases hstore : m.memory.store index n with
  | ok memory =>
    simp only [hstore]
    exact h memory hstore
  | error fault =>
    simp only [hstore]
    refine ⟨.refl k m, ?_⟩
    rw [outOfBounds_of_store_error hstore]
    exact nofun

theorem yields_jumpTo {length : Nat} {target : Int32}
    (h : 0 ≤ target.toInt ∧ target.toInt.toNat ≤ length → Q { m with pc := target.toInt.toNat }) :
    Yields k Q m (jumpTo length target m) := by
  unfold jumpTo
  split
  · exact h ‹_›
  · exact ⟨.refl k m, nofun⟩

/-- Only a writer refuses a line. -/
theorem writer_of_println_error {line : String} {output output' : Output} {cause : WriteError}
    (h : Output.println line output = .error cause output') :
    ∃ sink sink', output = .writer sink ∧ output' = .writer sink' := by
  cases output with
  | buffer text => cases h
  | silent => cases h
  | stdout text => cases h
  | writer sink =>
    simp only [Output.println] at h
    split at h
    · cases h
    · cases h
      exact ⟨sink, _, rfl, rfl⟩

theorem yields_printLine {line : String}
    (h : ∀ output, Output.println line m.output = .ok () output → Q { m with output }) :
    Yields k Q m (printLine line m) := by
  unfold printLine
  cases hprint : Output.println line m.output with
  | ok u output =>
    simp only [hprint]
    exact h output hprint
  | error cause output =>
    simp only [hprint]
    refine ⟨?_, nofun⟩
    exact { Remains.refl k m with output := .inr (writer_of_println_error hprint) }

/-! ## Instructions -/

theorem divisionByZero_of_eval_error {op : ArithOp} {a b : Int32} {fault : Fault}
    (h : op.eval a b = .error fault) : fault = .divisionByZero := by
  cases op with
  | add => cases h
  | sub => cases h
  | mul => cases h
  | div =>
    simp only [ArithOp.eval, divide] at h
    split at h
    · cases h
      rfl
    · cases h
  | mod =>
    simp only [ArithOp.eval, modulo] at h
    split at h
    · cases h
      rfl
    · cases h

/-- An instruction has one of its effects, or it faults and leaves all but the values that it pops. -/
theorem yields_execute (length : Nat) (ins : Instruction) (m : Machine) :
    Yields ins.opcode.pops.length (Effect length ins m) m (execute length ins m) := by
  unfold execute
  cases hop : ins.opcode with
  | push =>
    refine yields_operand_bind fun v hv => ?_
    exact yields_push fun hroom => .push hop hv hroom
  | arith op =>
    refine yields_pop_pop_bind Stack.takes_popInteger fun b a rest htop => ?_
    refine yields_check_bind (fun fault h => ?_) fun n hn => ?_
    · rw [divisionByZero_of_eval_error h]
      exact nofun
    · exact yields_push_withTop fun hroom => .arith hop htop hn hroom
  | logic op =>
    refine yields_pop_pop_bind Stack.takes_popBoolean fun b a rest htop => ?_
    exact yields_push_withTop fun hroom => .logic hop htop hroom
  | compare op =>
    refine yields_pop_pop_bind Stack.takes_popInteger fun b a rest htop => ?_
    exact yields_push_withTop fun hroom => .compare hop htop hroom
  | real op =>
    refine yields_pop_bind Stack.takes_popInteger fun a rest htop => ?_
    exact yields_push_withTop fun hroom => .real hop htop hroom
  | load =>
    refine yields_integerOperand_bind fun index hindex => ?_
    refine yields_loadCell_bind fun n hn => yields_push fun hroom => ?_
    exact .load hop hindex hn hroom
  | store =>
    refine yields_integerOperand_bind fun index hindex => ?_
    refine yields_pop_bind Stack.takes_popInteger fun n rest hn => yields_storeCell fun memory h => ?_
    exact .store hop hindex hn h
  | jump =>
    refine yields_integerOperand_bind fun target htarget => ?_
    exact yields_jumpTo fun hvalid => .jump hop htarget hvalid
  | jumpIf condition =>
    refine yields_integerOperand_bind fun target htarget => ?_
    refine yields_pop_bind Stack.takes_popBoolean fun b rest hb => ?_
    by_cases heq : b = condition
    · subst heq
      simp only [if_true]
      exact yields_jumpTo fun hvalid => .branch hop htarget hb hvalid
    · simp only [heq, if_false]
      exact Effect.pass hop htarget hb heq
  | print =>
    refine yields_pop_bind Stack.takes_pop fun v rest hv => yields_printLine fun output h => ?_
    exact .print hop hv h

theorem effect_of_execute_ok {length : Nat} {ins : Instruction} {m m' : Machine} {u : Unit}
    (h : execute length ins m = .ok u m') : Effect length ins m m' := by
  have hy := yields_execute length ins m
  rw [h] at hy
  exact hy

theorem effect_of_step_ok {length : Nat} {ins : Instruction} {m m' : Machine} {u : Unit}
    (h : step length ins m = .ok u m') : Effect length ins m.dispatched m' := by
  rw [step_of_belowLimit (belowLimit_of_step_ok h)] at h
  exact effect_of_execute_ok h

theorem remains_of_execute_error {length : Nat} {ins : Instruction} {m m' : Machine} {fault : Fault}
    (h : execute length ins m = .error fault m') :
    Remains ins.opcode.pops.length m m' ∧ ∀ limit, fault ≠ .stepLimitExceeded limit := by
  have hy := yields_execute length ins m
  rw [h] at hy
  exact hy

end Machine

end StackMachine
