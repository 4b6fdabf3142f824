-- SUMMARY: Which cells of a memory a step writes.
import StackMachine.Proofs.Trap

/-!
# Writes to cells

What becomes of the single cells of a memory. A store that succeeds writes one cell, the one that its
operand names, and every other cell keeps its value. No other instruction writes, and neither does a
step that faults.
-/

namespace StackMachine

/-- The operand of the instruction is the index `i`. -/
def Instruction.Names (ins : Instruction) (i : Nat) : Prop :=
  ∃ n : Int32, ins.operand = some (.integer n) ∧ n.toInt = i

/-! ## Cells -/

namespace Memory

variable {memory memory' : Memory} {index v : Int32}

theorem get?_of_size_le {i : Nat} (h : memory.size ≤ i) : memory.get? i = none :=
  Array.getElem?_eq_none h

/-- A load gives the value of the cell that its index names. -/
theorem get?_of_load_ok (h : memory.load index = .ok v) :
    0 ≤ index.toInt ∧ memory.get? index.toInt.toNat = some v := by
  unfold load at h
  split at h
  · rename_i hindex
    cases h
    exact ⟨hindex.1, Array.getElem?_eq_getElem hindex.2⟩
  · cases h

/-- A store changes the cell that its index names, and no other. -/
theorem get?_of_store_ok (h : memory.store index v = .ok memory') :
    0 ≤ index.toInt ∧
      ∀ i, memory'.get? i = if index.toInt.toNat = i then some v else memory.get? i := by
  unfold store at h
  split at h
  · rename_i hindex
    cases h
    exact ⟨hindex.1, fun i => Array.getElem?_set hindex.2⟩
  · cases h

end Memory

/-! ## Writes -/

/-- A value that is written to a cell. -/
structure Write where
  cell : Nat
  value : Int32
  deriving DecidableEq, Repr

/-- The value most recently written to a cell, if one of the writes, given in order, was to it. -/
def lastWrite? (writes : List Write) (i : Nat) : Option Int32 :=
  (writes.reverse.find? (·.cell = i)).map Write.value

theorem lastWrite?_append (writes later : List Write) (i : Nat) :
    lastWrite? (writes ++ later) i = (lastWrite? later i).or (lastWrite? writes i) := by
  unfold lastWrite?
  rw [List.reverse_append, List.find?_append, Option.map_or]

theorem lastWrite?_singleton (w : Write) (i : Nat) :
    lastWrite? [w] i = if w.cell = i then some w.value else none := by
  by_cases h : w.cell = i <;> simp [lastWrite?, h]

/-- A cell that is not written has no last write. -/
theorem lastWrite?_toList_of_ne {write : Option Write} {i : Nat}
    (h : ∀ w, write = some w → w.cell ≠ i) : lastWrite? write.toList i = none := by
  cases write with
  | none => rfl
  | some w =>
    rw [Option.toList_some, lastWrite?_singleton, if_neg (h w rfl)]

/-! ## What an instruction writes and loads -/

namespace Machine

variable {length : Nat} {ins : Instruction} {m m' : Machine}

/-- What an instruction writes when it is carried out: a store writes the integer on top of the stack
to the cell that its operand names. -/
def written? (ins : Instruction) (m : Machine) : Option Write :=
  match ins.opcode, ins.operand, m.stack.topDown with
  | .store, some (.integer index), .integer v :: _ =>
    some { cell := index.toInt.toNat, value := v }
  | _, _, _ => none

theorem written?_of_not_store (h : ins.opcode ≠ .store) : written? ins m = none := by
  unfold written?
  split
  · rename_i hop _ _
    exact absurd hop h
  · rfl

/-- Each cell holds what the instruction writes to it, or else what it held before. -/
theorem Effect.get?_memory (h : Effect length ins m m') (i : Nat) :
    m'.memory.get? i = (lastWrite? (written? ins m).toList i).or (m.memory.get? i) := by
  cases h with
  | @store index v rest memory hop hindex htop hmemory =>
    have hwritten : written? ins m = some { cell := index.toInt.toNat, value := v } := by
      simp only [written?, hop, hindex, htop]
    rw [hwritten, Option.toList_some, lastWrite?_singleton]
    refine ((Memory.get?_of_store_ok hmemory).2 i).trans ?_
    split <;> rfl
  | push hop | arith hop | logic hop | compare hop | real hop | load hop | jump hop | branch hop
  | pass hop | print hop =>
    rw [written?_of_not_store (by rw [hop]; exact nofun)]
    rfl

/-- Only a store writes, and only to the cell that its operand names. -/
theorem Effect.names_of_written? {w : Write} (h : Effect length ins m m')
    (hw : written? ins m = some w) : ins.opcode = .store ∧ ins.Names w.cell := by
  cases h with
  | @store index v rest memory hop hindex htop hmemory =>
    have hindex' := (Memory.get?_of_store_ok hmemory).1
    simp only [written?, hop, hindex, htop, Option.some.injEq] at hw
    subst hw
    exact ⟨hop, index, hindex, (Int.toNat_of_nonneg hindex').symm⟩
  | push hop | arith hop | logic hop | compare hop | real hop | load hop | jump hop | branch hop
  | pass hop | print hop =>
    rw [written?_of_not_store (by rw [hop]; exact nofun)] at hw
    cases hw

theorem get?_memory_of_step_ok {u : Unit} (h : step length ins m = .ok u m') (i : Nat) :
    m'.memory.get? i = (lastWrite? (written? ins m).toList i).or (m.memory.get? i) :=
  (effect_of_step_ok h).get?_memory i

/-- A load pushes the value of the cell that its operand names. -/
theorem pushed_of_load_ok (hop : ins.opcode = .load) (h : step length ins m = .ok () m') :
    ∃ (i : Nat) (v : Int32), ins.Names i ∧ m.memory.get? i = some v ∧
      m'.stack.values = m.stack.values.push (.integer v) := by
  cases effect_of_step_ok h with
  | @load index v _ hindex hv hroom =>
    obtain ⟨hnonneg, hcell⟩ := Memory.get?_of_load_ok hv
    have htop : (m.dispatched.withTop (.integer v :: m.stack.topDown)).stack.topDown =
        [.integer v] ++ m.stack.topDown := topDown_withTop _ _
    exact ⟨index.toInt.toNat, v, ⟨index, hindex, (Int.toNat_of_nonneg hnonneg).symm⟩, hcell,
      Stack.values_of_topDown_append htop⟩
  | push hop' | arith hop' | logic hop' | compare hop' | real hop' | store hop' | jump hop'
  | branch hop' | pass hop' | print hop' =>
    rw [hop] at hop'
    cases hop'

theorem memory_of_step_error {fault : Fault} (h : step length ins m = .error fault m') :
    m'.memory = m.memory := by
  obtain ⟨steps, hremains, -⟩ := remains_of_step_error h
  exact hremains.memory

end Machine

end StackMachine
