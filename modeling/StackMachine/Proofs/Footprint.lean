-- SUMMARY: The cells that a program may read and change are those that its text names.
import StackMachine.Proofs.Simulation
import StackMachine.Proofs.Writes

/-!
# The footprint of a program

An instruction reaches the memory at its own operand only, so the cells that a program may read and the
cells that it may change are there to be seen in its text. Cells that it never loads may hold anything:
the run is the same. Cells that it never stores into stay as they are.
-/

namespace StackMachine

/-- Some instruction of the program with the given opcode has the index `i` as its operand. -/
def Program.Names (program : Program) (opcode : Opcode) (i : Nat) : Prop :=
  ∃ ins ∈ program, ins.opcode = opcode ∧ ins.Names i

/-! ## Two memories -/

namespace Memory

variable {memory memory' : Memory} {index v : Int32}

/-- Memories of the same size hold the same indices. -/
theorem holds_congr (hsize : memory'.size = memory.size) :
    memory'.Holds index ↔ memory.Holds index := by
  unfold Holds
  rw [show memory'.cells.size = memory.cells.size from hsize]

/-- A load depends on the size of the memory and on one cell. -/
theorem load_congr (hsize : memory'.size = memory.size)
    (hcell : ∀ i : Nat, index.toInt = i → memory'.get? i = memory.get? i) :
    memory'.load index = memory.load index := by
  unfold load
  by_cases h : memory.Holds index
  · have h' : memory'.Holds index := (holds_congr hsize).2 h
    have heq := hcell index.toInt.toNat (Int.toNat_of_nonneg h.1).symm
    unfold get? at heq
    rw [Array.getElem?_eq_getElem h.2, Array.getElem?_eq_getElem h'.2] at heq
    rw [dif_pos h, dif_pos h', Option.some.inj heq]
  · have h' : ¬ memory'.Holds index := fun h' => h ((holds_congr hsize).1 h')
    rw [dif_neg h, dif_neg h', hsize]

/-- A store succeeds in both of two memories of the same size, or faults in both. -/
theorem store_cases (hsize : memory'.size = memory.size) :
    (∃ after after', memory.store index v = .ok after ∧ memory'.store index v = .ok after') ∨
      ∃ fault, memory.store index v = .error fault ∧ memory'.store index v = .error fault := by
  unfold store
  by_cases h : memory.Holds index
  · rw [dif_pos h, dif_pos ((holds_congr hsize).2 h)]
    exact .inl ⟨_, _, rfl, rfl⟩
  · rw [dif_neg h, dif_neg (fun h' => h ((holds_congr hsize).1 h')), hsize]
    exact .inr ⟨_, rfl, rfl⟩

/-- Two memories on their way from `first` and `second` through a run of the program. They agree on the
cells that the program loads. Where they do not agree, neither has been written. -/
structure Agreeing (program : Program) (first second memory memory' : Memory) : Prop where
  size : memory'.size = memory.size
  loads : ∀ i, program.Names .load i → memory'.get? i = memory.get? i
  cells : ∀ i, memory'.get? i = memory.get? i ∨
    memory.get? i = first.get? i ∧ memory'.get? i = second.get? i

/-- A store makes the two agree on its cell, and leaves the others alone. -/
theorem Agreeing.store {program : Program} {first second after after' : Memory}
    (h : Agreeing program first second memory memory') (hs : memory.store index v = .ok after)
    (hs' : memory'.store index v = .ok after') : Agreeing program first second after after' := by
  have hafter := (get?_of_store_ok hs).2
  have hafter' := (get?_of_store_ok hs').2
  refine ⟨?_, ?_, ?_⟩
  · rw [size_of_store_ok hs, size_of_store_ok hs']
    exact h.size
  · intro i hi
    rw [hafter, hafter', h.loads i hi]
  · intro i
    rw [hafter, hafter']
    by_cases hi : index.toInt.toNat = i
    · simp only [hi, if_true]
      exact .inl trivial
    · simp only [hi, if_false]
      exact h.cells i

end Memory

namespace Machine

/-! ## Two runs -/

/-- The machine with another memory. -/
def withMemory (memory : Memory) (m : Machine) : Machine :=
  { m with memory }

/-- Two machines that differ in their memories only, and these agree. -/
def Alike (program : Program) (first second : Memory) (m n : Machine) : Prop :=
  ∃ memory, n = m.withMemory memory ∧ Memory.Agreeing program first second m.memory memory

variable {program : Program} {first second : Memory} {ins : Instruction}

theorem related_loadCell_alike {index : Int32}
    (hnames : ∀ i : Nat, index.toInt = i → program.Names .load i) :
    Related (Alike program first second) (loadCell index) (loadCell index) := by
  rintro m _ ⟨memory, rfl, h⟩
  have hload : memory.load index = m.memory.load index :=
    Memory.load_congr h.size fun i hi => h.loads i (hnames i hi)
  simp only [loadCell, withMemory, hload]
  cases m.memory.load index with
  | ok v => exact .ok ⟨memory, rfl, h⟩
  | error fault => exact .error ⟨memory, rfl, h⟩

theorem related_storeCell_alike (index v : Int32) :
    Related (Alike program first second) (storeCell index v) (storeCell index v) := by
  rintro m _ ⟨memory, rfl, h⟩
  simp only [storeCell, withMemory]
  rcases Memory.store_cases h.size with ⟨after, after', hs, hs'⟩ | ⟨fault, hs, hs'⟩
  · rw [hs, hs']
    exact .ok ⟨after', rfl, h.store hs hs'⟩
  · rw [hs, hs']
    exact .error ⟨memory, rfl, h⟩

/-- Only loads look at the memory, and they look where the two agree. -/
theorem respects_alike (hins : ins ∈ program) :
    Respects (Alike program first second) program.size ins where
  onStack action := by
    apply related_onStack
    · rintro m _ ⟨memory, rfl, -⟩
      rfl
    · rintro m _ stack ⟨memory, rfl, h⟩
      exact ⟨memory, rfl, h⟩
  loadCell index hop hindex := by
    apply related_loadCell_alike
    intro i hi
    exact ⟨ins, hins, hop, index, Instruction.operand_of_requireInteger hindex, hi⟩
  storeCell index v _ _ := related_storeCell_alike index v
  jumpTo target _ := by
    apply related_jumpTo
    rintro m _ pc ⟨memory, rfl, h⟩
    exact ⟨memory, rfl, h⟩
  printLine line _ := by
    apply related_printLine
    · rintro m _ ⟨memory, rfl, -⟩
      rfl
    · rintro m _ output ⟨memory, rfl, h⟩
      exact ⟨memory, rfl, h⟩

theorem tracks_alike (program : Program) (first second : Memory) :
    Tracks (fun _ => False) (Alike program first second) program program := by
  rintro m _ ins ⟨memory, rfl, -⟩ hp
  have hadvance : Simulates (fun _ => False) (Alike program first second) advance advance :=
    simulates_advance (by rintro m _ ⟨memory, rfl, h⟩; exact ⟨memory, rfl, h⟩)
  have hcount : Simulates (fun _ => False) (Alike program first second) countStep countStep :=
    simulates_countStep (by rintro m _ ⟨memory, rfl, -⟩; exact ⟨rfl, rfl⟩)
      (by rintro m _ steps ⟨memory, rfl, h⟩; exact ⟨memory, rfl, h⟩)
  have hsim := (respects_alike (Array.mem_of_getElem? hp)).simulation.step hadvance hcount
  rw [ins.retarget_id] at hsim
  exact ⟨ins, hp, rfl, hsim⟩

/-- From two memories that agree on the cells that the program loads, both runs end alike or neither
does. -/
theorem ends_alike {m : Machine} {p : Progress} (hsize : second.size = first.size)
    (hloads : ∀ i, program.Names .load i → second.get? i = first.get? i)
    (hends : Ends program (m.withMemory first) p) :
    ∃ q, Ends program (m.withMemory second) q ∧ ProgressRel (Alike program first second) p q := by
  refine (tracks_alike program first second).ends rfl ?_ ?_ hends
  · rintro m _ ⟨memory, rfl, -⟩
    rfl
  · exact ⟨second, rfl, hsize, hloads, fun _ => .inr ⟨rfl, rfl⟩⟩

/-! ## One run -/

/-- A cell that the program does not store into keeps its value, however far a run comes. -/
theorem get?_resume_of_not_stored {m : Machine} {i : Nat} (hi : ¬ program.Names .store i)
    (fuel : Nat) : (resume program fuel m).machine.memory.get? i = m.memory.get? i := by
  refine machine_resume_invariant (I := fun s => s.memory.get? i = m.memory.get? i) ?_ ?_ fuel rfl
  · intro s s' ins hs hp hstep
    rw [get?_memory_of_step_ok hstep, lastWrite?_toList_of_ne ?_]
    · exact hs
    · rintro w hw rfl
      obtain ⟨hop, hnames⟩ := (effect_of_step_ok hstep).names_of_written? hw
      exact hi ⟨ins, Array.mem_of_getElem? hp, hop, hnames⟩
  · intro s s' ins fault hs _ hstep
    rw [memory_of_step_error hstep]
    exact hs

theorem get?_of_ends {m : Machine} {p : Progress} {i : Nat} (hi : ¬ program.Names .store i)
    (h : Ends program m p) : p.machine.memory.get? i = m.memory.get? i := by
  obtain ⟨-, fuel, rfl⟩ := h
  exact get?_resume_of_not_stored hi fuel

/-! ## The theorem -/

/-- The operands of its loads and stores are all that ties a program to its memory. On two memories of
the same size that agree on the cells it loads, its run ends on both or on neither, and it ends in the
same way and in the same state but for the memory. Cells that it does not store into are unchanged, and
any cell in which the two memories differ afterwards is one that was written in neither. -/
theorem run_footprint (program : Program) (m : Machine) (first second : Memory)
    (hsize : first.size = second.size)
    (hloads : ∀ i, program.Names .load i → first.get? i = second.get? i) :
    ((∃ p, Ends program (m.withMemory first) p) ↔ ∃ q, Ends program (m.withMemory second) q) ∧
    ∀ p q, Ends program (m.withMemory first) p → Ends program (m.withMemory second) q →
      q = p.map (withMemory q.machine.memory) ∧
      (∀ i, ¬ program.Names .store i → p.machine.memory.get? i = first.get? i ∧
        q.machine.memory.get? i = second.get? i) ∧
      ∀ i, p.machine.memory.get? i = q.machine.memory.get? i ∨
        p.machine.memory.get? i = first.get? i ∧ q.machine.memory.get? i = second.get? i := by
  refine ⟨⟨?_, ?_⟩, ?_⟩
  · rintro ⟨p, hp⟩
    obtain ⟨q, hq, -⟩ := ends_alike hsize.symm (fun i hi => (hloads i hi).symm) hp
    exact ⟨q, hq⟩
  · rintro ⟨q, hq⟩
    obtain ⟨p, hp, -⟩ := ends_alike hsize hloads hq
    exact ⟨p, hp⟩
  · intro p q hp hq
    obtain ⟨q', hq', hrel⟩ := ends_alike hsize.symm (fun i hi => (hloads i hi).symm) hp
    obtain rfl := hq.unique hq'
    refine ⟨?_, ?_, ?_⟩
    · cases hrel with
      | finished h | trapped h =>
        obtain ⟨memory, rfl, -⟩ := h
        rfl
    · intro i hi
      exact ⟨get?_of_ends hi hp, get?_of_ends hi hq⟩
    · intro i
      obtain ⟨memory, hmachine, hagree⟩ := hrel.machine
      rw [hmachine]
      rcases hagree.cells i with heq | hinitial
      · exact .inl heq.symm
      · exact .inr hinitial

/-- Two memories that agree on the first cell only, under a program that copies it into the second: the
third cell keeps its two values. -/
theorem run_copy_footprint :
    ∃ p q, Ends #[⟨.load, some (.integer 0)⟩, ⟨.store, some (.integer 1)⟩]
        ((new {} (.zeros 0) .silent).withMemory ⟨#[1, 2, 3]⟩) p ∧
      Ends #[⟨.load, some (.integer 0)⟩, ⟨.store, some (.integer 1)⟩]
        ((new {} (.zeros 0) .silent).withMemory ⟨#[1, 8, 9]⟩) q ∧
      q = p.map (withMemory q.machine.memory) ∧
      p.machine.memory.get? 1 = some 1 ∧ q.machine.memory.get? 1 = some 1 ∧
      p.machine.memory.get? 2 = some 3 ∧ q.machine.memory.get? 2 = some 9 := by
  have hnames : ∀ op i, Program.Names #[⟨.load, some (.integer 0)⟩, ⟨.store, some (.integer 1)⟩] op i →
      op = .load ∧ i = 0 ∨ op = .store ∧ i = 1 := by
    rintro op i ⟨ins, hmem, rfl, n, hn, hi⟩
    simp only [List.mem_toArray, List.mem_cons, List.not_mem_nil, or_false] at hmem
    rcases hmem with rfl | rfl
    · cases hn
      exact .inl ⟨rfl, Int.ofNat.inj hi.symm⟩
    · cases hn
      exact .inr ⟨rfl, Int.ofNat.inj hi.symm⟩
  have hfirst : Ends #[⟨.load, some (.integer 0)⟩, ⟨.store, some (.integer 1)⟩]
      ((new {} (.zeros 0) .silent).withMemory ⟨#[1, 2, 3]⟩) (.finished _) := ⟨trivial, 2, rfl⟩
  have hsecond : Ends #[⟨.load, some (.integer 0)⟩, ⟨.store, some (.integer 1)⟩]
      ((new {} (.zeros 0) .silent).withMemory ⟨#[1, 8, 9]⟩) (.finished _) := ⟨trivial, 2, rfl⟩
  obtain ⟨-, hruns⟩ := run_footprint #[⟨.load, some (.integer 0)⟩, ⟨.store, some (.integer 1)⟩]
    (new {} (.zeros 0) .silent) ⟨#[1, 2, 3]⟩ ⟨#[1, 8, 9]⟩ rfl (by
      intro i hi
      rcases hnames .load i hi with ⟨-, rfl⟩ | ⟨hop, -⟩
      · rfl
      · cases hop)
  obtain ⟨hsame, hkept, -⟩ := hruns _ _ hfirst hsecond
  obtain ⟨hkept₁, hkept₂⟩ := hkept 2 fun hi => by
    rcases hnames .store 2 hi with ⟨hop, -⟩ | ⟨-, hcell⟩
    · cases hop
    · cases hcell
  exact ⟨_, _, hfirst, hsecond, hsame, rfl, rfl, hkept₁, hkept₂⟩

end Machine

end StackMachine
