-- SUMMARY: Programs that agree with stack types fault only at zero divisors and at the step limit.
import Mathlib.Data.List.Forall2
import StackMachine.Proofs.Reach

/-!
# Stack types

A stack type gives, for each index of a program, the kinds of the values that the stack holds there.
A program agrees with its types if every instruction finds the kinds that it pops and leaves the kinds
that are expected wherever it may lead. Such a program keeps to its types for as long as it runs,
through loops and branches, and faults only where no type can tell: at a zero divisor and at the step
limit.
-/

namespace StackMachine

/-! ## Types -/

/-- The kinds of the values from bottom to top. -/
def Stack.tags (s : Stack) : List Tag :=
  s.values.toList.map Value.tag

theorem Stack.tags_eq (s : Stack) : s.tags = (s.topDown.map Value.tag).reverse := by
  simp [tags, topDown]

/-- The tag is of the kind that is asked for. Where no kind is asked for, every tag will do. -/
def Tag.Fits (kind : Option Tag) (tag : Tag) : Prop :=
  kind = none ∨ kind = some tag

namespace Instruction

/-- The operand is what the instruction needs: any value to push, the index of a cell, or a target in
the program or at its end. -/
def OperandFits (length cells : Nat) (ins : Instruction) : Prop :=
  match ins.opcode with
  | .push => ∃ v, ins.operand = some v
  | .load | .store =>
    ∃ index : Int32, ins.operand = some (.integer index) ∧ 0 ≤ index.toInt ∧ index.toInt < cells
  | .jump | .jumpIf _ =>
    ∃ target : Int32, ins.operand = some (.integer target) ∧ 0 ≤ target.toInt ∧
      target.toInt ≤ length
  | .arith _ | .logic _ | .compare _ | .real _ | .print => True

/-- The kind of the value that the instruction pushes, if it pushes one. -/
def result (ins : Instruction) : Option Tag :=
  match ins.opcode with
  | .push => ins.operand.map Value.tag
  | .arith _ | .real _ | .load => some .integer
  | .logic _ | .compare _ => some .boolean
  | .store | .jump | .jumpIf _ | .print => none

/-- The index to which the instruction may jump. -/
def targets (ins : Instruction) : List Nat :=
  match ins.operand with
  | some (.integer target) => if ins.opcode.jumps then [target.toInt.toNat] else []
  | _ => []

/-- The indices at which a run may go on after the instruction at index `i`. -/
def successors (i : Nat) (ins : Instruction) : List Nat :=
  (if ins.opcode = .jump then [] else [i + 1]) ++ ins.targets

/-- The instruction at index `i` agrees with the types `T`: the stack ends with the kinds that it pops,
and wherever it may lead, these have given way to the kind that it pushes. -/
structure TypedAt (length cells : Nat) (T : Nat → List Tag) (i : Nat) (ins : Instruction) :
    Prop where
  operand : ins.OperandFits length cells
  stack : ∃ below popped : List Tag, T i = below ++ popped.reverse ∧
    List.Forall₂ Tag.Fits ins.opcode.pops popped ∧
    ∀ j ∈ ins.successors i, T j = below ++ ins.result.toList

end Instruction

/-- A program agrees with its types, on a memory of so many cells and a stack with the given limit. -/
structure Program.Typed (program : Program) (cells limit : Nat) (T : Nat → List Tag) : Prop where
  bounded : ∀ i ≤ program.size, (T i).length ≤ limit
  instructions : ∀ (i : Nat) (ins : Instruction), program[i]? = some ins →
    ins.TypedAt program.size cells T i

/-- An output that passes no line on, so that no line can be refused: a buffer or a silent one. -/
def Output.Internal : Output → Prop
  | buffer _ | silent => True
  | stdout _ | writer _ => False

theorem Output.Internal.println {line : String} {output output' : Output} (h : output.Internal)
    (hprint : Output.println line output = .ok () output') : output'.Internal := by
  cases output with
  | buffer text =>
    cases hprint
    trivial
  | silent =>
    cases hprint
    trivial
  | stdout text => exact h.elim
  | writer sink => exact h.elim

namespace Machine

variable {length cells limit : Nat} {T : Nat → List Tag} {ins : Instruction} {m m' : Machine}

/-! ## What an effect does to the types -/

/-- An effect replaces values of the kinds that the instruction pops by the value that it pushes. -/
theorem Effect.tags (h : Effect length ins m m') :
    ∃ taken rest : List Value, m.stack.topDown = taken ++ rest ∧
      List.Forall₂ Tag.Fits ins.opcode.pops (taken.map Value.tag) ∧
      m'.stack.topDown.map Value.tag = ins.result.toList ++ rest.map Value.tag := by
  cases h with
  | push hop hv =>
    refine ⟨[], m.stack.topDown, rfl, ?_, ?_⟩
    · simp [hop, Opcode.pops]
    · simp [Instruction.result, hop, hv]
  | arith hop htop | logic hop htop | compare hop htop =>
    refine ⟨[_, _], _, htop, ?_, ?_⟩
    · simp [hop, Opcode.pops, Tag.Fits, Value.tag]
    · simp [Instruction.result, hop, Value.tag]
  | real hop htop =>
    refine ⟨[_], _, htop, ?_, ?_⟩
    · simp [hop, Opcode.pops, Tag.Fits, Value.tag]
    · simp [Instruction.result, hop, Value.tag]
  | load hop =>
    refine ⟨[], m.stack.topDown, rfl, ?_, ?_⟩
    · simp [hop, Opcode.pops]
    · simp [Instruction.result, hop, Value.tag]
  | jump hop =>
    refine ⟨[], m.stack.topDown, rfl, ?_, ?_⟩
    · simp [hop, Opcode.pops]
    · simp [Instruction.result, hop]
  | store hop _ htop | branch hop _ htop | pass hop _ htop =>
    refine ⟨[_], _, htop, ?_, ?_⟩
    · simp [hop, Opcode.pops, Tag.Fits, Value.tag]
    · simp [Instruction.result, hop]
  | print hop htop =>
    refine ⟨[_], _, htop, ?_, ?_⟩
    · simp [hop, Opcode.pops, Tag.Fits]
    · simp [Instruction.result, hop]

theorem Effect.pc_mem_successors {i : Nat} (h : Effect length ins m m') (hm : m.pc = i + 1) :
    m'.pc ∈ ins.successors i := by
  unfold Instruction.successors
  apply List.mem_append.2
  rcases h.pc_cases with ⟨hop, hpc⟩ | ⟨target, hjumps, htarget, -, hpc⟩
  · left
    rw [if_neg hop, hpc, hm]
    exact List.mem_singleton_self _
  · right
    simp [Instruction.targets, htarget, hjumps, hpc]

/-! ## Machines that keep to the types -/

/-- A machine that stands in a program with the stack that the types say. -/
structure Conforms (program : Program) (cells limit : Nat) (T : Nat → List Tag) (m : Machine) :
    Prop where
  pc_le : m.pc ≤ program.size
  tags : m.stack.tags = T m.pc
  limit : m.stack.limit = limit
  cells : m.memory.size = cells
  output : m.output.Internal

variable {program : Program}

/-- An instruction leaves the kinds that are expected where it leads. -/
theorem Conforms.of_effect (h : Conforms program cells limit T m)
    (hins : ins.TypedAt program.size cells T m.pc) (hpc : m.pc < program.size)
    (heffect : Effect program.size ins m.dispatched m') : Conforms program cells limit T m' where
  pc_le := heffect.pc_le hpc
  tags := by
    obtain ⟨below, popped, hT, hpopped, hnext⟩ := hins.stack
    obtain ⟨taken, rest, htop, htaken, hleft⟩ := heffect.tags
    have htags : below ++ popped.reverse =
        (rest.map Value.tag).reverse ++ (taken.map Value.tag).reverse := by
      have htop' : m.stack.topDown = taken ++ rest := htop
      rw [← hT, ← h.tags, Stack.tags_eq, htop', List.map_append, List.reverse_append]
    -- As many values are popped as the types say, so what lies below them is as the types say, too.
    have hlength : popped.reverse.length = (taken.map Value.tag).reverse.length := by
      rw [List.length_reverse, List.length_reverse, ← hpopped.length_eq, htaken.length_eq]
    have hbelow : below = (rest.map Value.tag).reverse := (List.append_inj' htags hlength).1
    rw [hnext _ (heffect.pc_mem_successors rfl), Stack.tags_eq, hleft, List.reverse_append, hbelow]
    cases ins.result <;> rfl
  limit := heffect.limit.trans h.limit
  cells := heffect.size_memory.trans h.cells
  output := by
    rcases heffect.output with heq | ⟨line, hprint⟩
    · rw [heq]
      exact h.output
    · exact h.output.println hprint

/-! ## Conditions that the types settle -/

theorem operandConditions_hold (h : ins.OperandFits length cells) :
    ∀ c ∈ operandConditions ins, c.holds := by
  intro c hc
  unfold Instruction.OperandFits at h
  unfold operandConditions at hc
  cases hop : ins.opcode with
  | push =>
    simp only [hop] at h hc
    obtain ⟨v, hv⟩ := h
    simp [Opcode.operandKind, valueConditions, hv] at hc
  | load | store | jump | jumpIf =>
    simp only [hop] at h hc
    obtain ⟨n, hn, -⟩ := h
    simp [Opcode.operandKind, valueConditions, hn, Value.tag] at hc
    simp [hc]
  | arith | logic | compare | real | print => simp [hop, Opcode.operandKind] at hc

theorem popConditions_hold {kinds : List (Option Tag)} {popped rest : List Tag}
    {values : List Value} (h : List.Forall₂ Tag.Fits kinds popped)
    (hvalues : values.map Value.tag = popped ++ rest) :
    ∀ c ∈ popConditions kinds values, c.holds := by
  induction h generalizing values with
  | nil => simp [popConditions]
  | @cons kind tag kinds popped hfits _ ih =>
    cases values with
    | nil => cases hvalues
    | cons v values =>
      obtain ⟨rfl, htail⟩ := List.cons.inj hvalues
      intro c hc
      rcases List.mem_append.1 hc with hhead | htail'
      · rcases hfits with rfl | rfl
        · simp [valueConditions] at hhead
        · simp [valueConditions] at hhead
          simp [hhead]
      · exact ih htail c htail'

/-- Of the domain of an operation only a zero divisor is left open. -/
theorem domainConditions_hold (h : ins.OperandFits length m.memory.size) :
    ∀ c ∈ domainConditions length ins m, c.holds ∨ c.fault = .divisionByZero := by
  intro c hc
  unfold Instruction.OperandFits at h
  cases hop : ins.opcode with
  | load | store =>
    simp only [hop] at h
    obtain ⟨index, hoperand, hindex⟩ := h
    simp only [domainConditions, hop, hoperand] at hc
    rw [List.mem_singleton.1 hc]
    exact .inl (decide_eq_true hindex)
  | jump =>
    simp only [hop] at h
    obtain ⟨target, hoperand, htarget⟩ := h
    simp only [domainConditions, hop, hoperand] at hc
    rw [List.mem_singleton.1 hc]
    exact .inl (decide_eq_true htarget)
  | jumpIf condition =>
    simp only [hop] at h
    obtain ⟨target, hoperand, htarget⟩ := h
    simp only [domainConditions, hop, hoperand] at hc
    split at hc
    · rw [List.mem_singleton.1 hc]
      exact .inl (decide_eq_true htarget)
    · cases hc
  | arith op =>
    cases op with
    | div | mod =>
      simp only [domainConditions, hop] at hc
      rw [List.mem_singleton.1 hc]
      exact .inr rfl
    | add | sub | mul =>
      simp only [domainConditions, hop] at hc
      cases hc
  | push | logic | compare | real | print =>
    simp only [domainConditions, hop] at hc
    cases hc

/-- A value that is pushed where none is popped finds room, since the stack after it is within the
limit as well. -/
theorem Conforms.size_lt (hprogram : program.Typed cells limit T)
    (h : Conforms program cells limit T m) (hpc : m.pc < program.size)
    (hins : ins.TypedAt program.size cells T m.pc) (hnext : m.pc + 1 ∈ ins.successors m.pc)
    (hpops : ins.opcode.pops = []) (hresult : ins.result.isSome) : m.stack.size < m.stack.limit := by
  obtain ⟨below, popped, hT, hpopped, hsuccessors⟩ := hins.stack
  obtain ⟨tag, htag⟩ := Option.isSome_iff_exists.1 hresult
  rw [hpops] at hpopped
  cases hpopped
  have hsize : m.stack.size = below.length := by
    have hlength := congrArg List.length hT
    rw [← h.tags] at hlength
    simpa [Stack.tags, Stack.size] using hlength
  have hbound := hprogram.bounded (m.pc + 1) hpc
  rw [hsuccessors _ hnext, htag] at hbound
  have hlt : below.length + 1 ≤ limit := by simpa using hbound
  rw [h.limit, hsize]
  exact hlt

theorem Conforms.roomConditions_hold (hprogram : program.Typed cells limit T)
    (h : Conforms program cells limit T m) (hpc : m.pc < program.size)
    (hins : ins.TypedAt program.size cells T m.pc) : ∀ c ∈ roomConditions ins m, c.holds := by
  intro c hc
  unfold roomConditions at hc
  cases hop : ins.opcode with
  | push =>
    have hoperand := hins.operand
    simp only [Instruction.OperandFits, hop] at hoperand
    obtain ⟨v, hv⟩ := hoperand
    simp only [hop] at hc
    rw [List.mem_singleton.1 hc]
    apply decide_eq_true
    apply h.size_lt hprogram hpc hins
    · simp [Instruction.successors, hop]
    · rw [hop]
      rfl
    · simp [Instruction.result, hop, hv]
  | load =>
    simp only [hop] at hc
    rw [List.mem_singleton.1 hc]
    apply decide_eq_true
    apply h.size_lt hprogram hpc hins
    · simp [Instruction.successors, hop]
    · rw [hop]
      rfl
    · simp [Instruction.result, hop]
  | arith | logic | compare | real | store | jump | jumpIf | print =>
    simp only [hop] at hc
    cases hc

theorem outputConditions_hold (h : m.output.Internal) : ∀ c ∈ outputConditions ins m, c.holds := by
  intro c hc
  unfold outputConditions at hc
  split at hc
  · cases hout : m.output with
    | buffer text =>
      rw [hout] at hc
      cases hc
    | silent =>
      rw [hout] at hc
      cases hc
    | stdout text =>
      rw [hout] at h
      exact h.elim
    | writer sink =>
      rw [hout] at h
      exact h.elim
  · cases hc

/-! ## Steps and runs -/

theorem Conforms.size_le (hprogram : program.Typed cells limit T)
    (h : Conforms program cells limit T m) : m.stack.size ≤ m.stack.limit := by
  have hbound := hprogram.bounded m.pc h.pc_le
  rw [← h.tags, ← h.limit] at hbound
  simpa [Stack.tags, Stack.size] using hbound

/-- Preservation: a step that succeeds keeps to the types. -/
theorem Conforms.step_ok (hprogram : program.Typed cells limit T)
    (h : Conforms program cells limit T m) (hp : program[m.pc]? = some ins)
    (hs : step program.size ins m = .ok () m') : Conforms program cells limit T m' := by
  obtain ⟨hpc, -⟩ := Array.getElem?_eq_some_iff.1 hp
  exact h.of_effect (hprogram.instructions m.pc ins hp) hpc (effect_of_step_ok hs)

/-- Progress: a step faults only at a zero divisor or at the step limit. -/
theorem Conforms.step_error {fault : Fault} (hprogram : program.Typed cells limit T)
    (h : Conforms program cells limit T m) (hp : program[m.pc]? = some ins)
    (hs : step program.size ins m = .error fault m') :
    fault = .divisionByZero ∨
      ∃ l, m.config.stepLimit = some l ∧ fault = .stepLimitExceeded l := by
  obtain ⟨hpc, -⟩ := Array.getElem?_eq_some_iff.1 hp
  have hins := hprogram.instructions m.pc ins hp
  obtain ⟨before, c, after, hconditions, -, hfails, rfl⟩ :=
    ((obeys_step program.size ins (h.size_le hprogram)).error_iff fault).1 ⟨m', hs⟩
  have hc : c ∈ conditions program.size ins m := by
    rw [hconditions]
    exact List.mem_append_right before List.mem_cons_self
  -- The condition that fails is one of six groups, and all but two of them the types settle.
  unfold conditions effectConditions at hc
  simp only [List.mem_append] at hc
  rcases hc with hlimit | hoperand | hpop | hdomain | hroom | houtput
  · right
    unfold limitConditions at hlimit
    obtain ⟨l, hl, rfl⟩ := List.mem_map.1 hlimit
    exact ⟨l, Option.mem_toList.1 hl, rfl⟩
  · exact absurd (operandConditions_hold hins.operand c hoperand) hfails
  · obtain ⟨below, popped, hT, hpopped, -⟩ := hins.stack
    have htags : m.stack.topDown.map Value.tag = popped ++ below.reverse := by
      rw [← List.reverse_inj, ← Stack.tags_eq, h.tags, hT]
      simp
    exact absurd (popConditions_hold hpopped htags c hpop) hfails
  · left
    have hoperand := hins.operand
    rw [← h.cells] at hoperand
    exact (domainConditions_hold hoperand c hdomain).resolve_left hfails
  · exact absurd (h.roomConditions_hold hprogram hpc hins c hroom) hfails
  · exact absurd (outputConditions_hold h.output c houtput) hfails

/-- A program that agrees with stack types, started on a stack of the first type, keeps to them for as
long as it runs: it traps only at a zero divisor or at the step limit, and if it ends, the stack is of
the last type. -/
theorem run_typed (program : Program) (T : Nat → List Tag) (m : Machine)
    (hprogram : program.Typed m.memory.size m.stack.limit T) (hstack : m.stack.tags = T 0)
    (houtput : (∃ text, m.output = .buffer text) ∨ m.output = .silent) (fuel : Nat) :
    (∀ trap s, run program fuel m = .trapped trap s → trap.fault = .divisionByZero ∨
      ∃ l, m.config.stepLimit = some l ∧ trap.fault = .stepLimitExceeded l) ∧
    (∀ s, run program fuel m = .finished s → s.stack.tags = T program.size) ∧
    (∀ s, run program fuel m = .running s → s.stack.tags = T s.pc) := by
  have hinternal : m.output.Internal := by
    rcases houtput with ⟨text, heq⟩ | heq
    · rw [heq]; trivial
    · rw [heq]; trivial
  have hstart : Conforms program m.memory.size m.stack.limit T m.start :=
    ⟨Nat.zero_le _, hstack, rfl, rfl, hinternal⟩
  have hreach : ∀ {n s}, Reaches program n m.start s →
      Conforms program m.memory.size m.stack.limit T s := fun h =>
    h.invariant (fun _ _ _ h hp hs => h.step_ok hprogram hp hs) hstart
  refine ⟨?_, ?_, ?_⟩
  · intro trap s h
    obtain ⟨n, r, ins, hr, hp, hs, -, -⟩ := exists_resume_eq_trapped_iff.1 ⟨fuel, h⟩
    have hfault := (hreach hr).step_error hprogram hp hs
    rw [hr.counters.1] at hfault
    exact hfault
  · intro s h
    obtain ⟨n, hs, -⟩ := exists_resume_eq_finished_iff.1 ⟨fuel, h⟩
    rw [(hreach hs).tags, pc_of_ends_finished ⟨trivial, fuel, h⟩]
  · intro s h
    exact (hreach (resume_eq_running_iff.1 h).1).tags

/-- A loop that is left at once, on a stack that holds an integer all the while. -/
theorem run_left_loop_typed :
    ∃ s, run #[⟨.push, some (.boolean false)⟩, ⟨.jumpIf true, some (.integer 0)⟩,
        ⟨.push, some (.integer 2)⟩, ⟨.arith .add, none⟩] 4
        { new {} (.zeros 0) .silent with stack := ⟨#[.integer 5], 2⟩ } = .finished s ∧
      s.stack.tags = [.integer] := by
  have hint : Tag.Fits (some .integer) .integer := .inr rfl
  have hbool : Tag.Fits (some .boolean) .boolean := .inr rfl
  have hprogram : Program.Typed #[⟨.push, some (.boolean false)⟩,
      ⟨.jumpIf true, some (.integer 0)⟩, ⟨.push, some (.integer 2)⟩, ⟨.arith .add, none⟩] 0 2
      fun | 1 => [.integer, .boolean] | 3 => [.integer, .integer] | _ => [.integer] := by
    refine ⟨by decide, ?_⟩
    intro i ins h
    match i with
    | 0 =>
      cases h
      exact ⟨⟨_, rfl⟩, [.integer], [], rfl, .nil, by decide⟩
    | 1 =>
      cases h
      exact ⟨⟨0, rfl, by decide⟩, [.integer], [_], rfl, .cons hbool .nil, by decide⟩
    | 2 =>
      cases h
      exact ⟨⟨_, rfl⟩, [.integer], [], rfl, .nil, by decide⟩
    | 3 =>
      cases h
      exact ⟨trivial, [], [_, _], rfl, .cons hint (.cons hint .nil), by decide⟩
    | i + 4 => cases h
  obtain ⟨s, hs⟩ : ∃ s, run #[⟨.push, some (.boolean false)⟩, ⟨.jumpIf true, some (.integer 0)⟩,
      ⟨.push, some (.integer 2)⟩, ⟨.arith .add, none⟩] 4
      { new {} (.zeros 0) .silent with stack := ⟨#[.integer 5], 2⟩ } = .finished s := ⟨_, rfl⟩
  exact ⟨s, hs, (run_typed _ _ _ hprogram rfl (.inr rfl) 4).2.1 s hs⟩

end Machine

end StackMachine
