-- SUMMARY: A linked program does in one run what its two parts do one after the other.
import StackMachine.Proofs.Simulation

/-!
# Linking

Two programs are linked by putting the second behind the first and moving its jump targets by the
length of the first. The linked program runs the first until it ends, which is where the second
begins, and then runs the second. So it does in one run what the two do one after the other.
-/

namespace StackMachine

/-! ## Linked programs -/

/-- The instruction in a place `d` further on: a jump goes `d` further as well. -/
def Instruction.relocate (d : Nat) (ins : Instruction) : Instruction :=
  ins.retarget fun target => .ofInt (target.toInt + d)

namespace Program

/-- The program in a place `d` further on. -/
def relocate (d : Nat) (program : Program) : Program :=
  program.map (Instruction.relocate d)

/-- The first program, with the second behind it. -/
def link (first second : Program) : Program :=
  first ++ second.relocate first.size

/-- No jump target leaves the range of integers when it is moved by `d`. -/
def Relocatable (d : Nat) (program : Program) : Prop :=
  ∀ ins ∈ program, ins.opcode.jumps = true → ∀ target, ins.operand = some (.integer target) →
    target.toInt + d ≤ Int32.maxValue.toInt

theorem size_link (first second : Program) :
    (first.link second).size = first.size + second.size := by
  simp [link, relocate]

theorem getElem?_link_left {first second : Program} {i : Nat} (h : i < first.size) :
    (first.link second)[i]? = first[i]? := by
  unfold link
  exact Array.getElem?_append_left h

theorem getElem?_link_right (first second : Program) (i : Nat) :
    (first.link second)[first.size + i]? = second[i]?.map (Instruction.relocate first.size) := by
  unfold link relocate
  rw [Array.getElem?_append_right (Nat.le_add_right _ _), Nat.add_sub_cancel_left,
    Array.getElem?_map]

end Program

namespace Machine

/-- The faults of jumps that leave the program. -/
def InvalidJump (fault : Fault) : Prop :=
  ∃ target length, fault = .invalidJump target length

/-! ## The first program -/

/-- In a longer program the same jumps are possible. -/
theorem simulation_longer {length length' : Nat} (hle : length ≤ length') (ins : Instruction) :
    Simulation InvalidJump Eq length length' id ins where
  pop := .refl _
  push _ := .refl _
  loadCell _ _ _ := .refl _
  storeCell _ _ _ _ := .refl _
  jumpTo target _ _ := by
    rintro m _ rfl
    simp only [jumpTo, id]
    by_cases hvalid : 0 ≤ target.toInt ∧ target.toInt.toNat ≤ length
    · have hvalid' : 0 ≤ target.toInt ∧ target.toInt.toNat ≤ length' :=
        ⟨hvalid.1, Nat.le_trans hvalid.2 hle⟩
      simp only [hvalid, hvalid', and_self, if_true]
      exact .inr (.ok rfl)
    · simp only [hvalid, if_false]
      exact .inl ⟨_, _, rfl, _, _, rfl⟩
  printLine _ _ := .refl _

theorem tracks_link_left (first second : Program) :
    Tracks InvalidJump Eq first (first.link second) := by
  rintro m _ ins rfl hp
  obtain ⟨hlt, -⟩ := Array.getElem?_eq_some_iff.1 hp
  have hle : first.size ≤ (first.link second).size := by
    rw [Program.size_link]
    exact Nat.le_add_right _ _
  have hsim := (simulation_longer hle ins).step (.refl advance) (.refl countStep)
  rw [ins.retarget_id] at hsim
  exact ⟨ins, (Program.getElem?_link_left hlt).trans hp, rfl, hsim⟩

/-! ## The second program -/

/-- The second machine is the first one at another place of a program, with `c` more steps counted. There
is no step limit, so that neither feels what it has counted. -/
def Elsewhere (place : Nat → Nat) (c : Nat) (m n : Machine) : Prop :=
  m.config.stepLimit = none ∧ n = { m with pc := place m.pc, steps := c + m.steps }

/-- Only jumps depend on where the machine is. -/
theorem simulation_elsewhere {excused : Fault → Prop} {place : Nat → Nat} {c length length' : Nat}
    {t : Int32 → Int32} {ins : Instruction}
    (h : ∀ target, ins.opcode.jumps = true → ins.operand = some (.integer target) →
      Simulates excused (Elsewhere place c) (jumpTo length target) (jumpTo length' (t target))) :
    Simulation excused (Elsewhere place c) length length' t ins where
  pop := .of_related (related_onStack (by rintro m _ ⟨-, rfl⟩; rfl)
    (by rintro m _ stack ⟨hfree, rfl⟩; exact ⟨hfree, rfl⟩) _)
  push _ := .of_related (related_onStack (by rintro m _ ⟨-, rfl⟩; rfl)
    (by rintro m _ stack ⟨hfree, rfl⟩; exact ⟨hfree, rfl⟩) _)
  loadCell index _ _ := .of_related (related_loadCell (by rintro m _ ⟨-, rfl⟩; rfl) index)
  storeCell index n _ _ := .of_related (related_storeCell (by rintro m _ ⟨-, rfl⟩; rfl)
    (by rintro m _ memory ⟨hfree, rfl⟩; exact ⟨hfree, rfl⟩) index n)
  jumpTo target hjumps ht := h target hjumps (Instruction.operand_of_requireInteger ht)
  printLine line _ := .of_related (related_printLine (by rintro m _ ⟨-, rfl⟩; rfl)
    (by rintro m _ output ⟨hfree, rfl⟩; exact ⟨hfree, rfl⟩) line)

/-- The machine `d` instructions further on in the program, with `c` more counted. -/
def moved (d c : Nat) (m : Machine) : Machine :=
  { m with pc := d + m.pc, steps := c + m.steps }

/-- The second machine is the first one, moved. There is no step limit, so that neither feels what it
has counted. -/
def Moved (d c : Nat) (m n : Machine) : Prop :=
  m.config.stepLimit = none ∧ n = m.moved d c

variable {d c : Nat}

theorem simulates_jumpTo_moved {length : Nat} {target : Int32}
    (hfits : target.toInt + d ≤ Int32.maxValue.toInt) :
    Simulates InvalidJump (Moved d c) (jumpTo length target)
      (jumpTo (d + length) (.ofInt (target.toInt + d))) := by
  rintro m _ ⟨hfree, rfl⟩
  rw [Int32.toInt_maxValue] at hfits
  have hlow := target.le_toInt
  have htarget : (Int32.ofInt (target.toInt + d)).toInt = target.toInt + d :=
    Int32.toInt_ofInt_of_le (by omega) (by omega)
  simp only [jumpTo, htarget]
  by_cases hvalid : 0 ≤ target.toInt ∧ target.toInt.toNat ≤ length
  · have hpc : (target.toInt + d).toNat = d + target.toInt.toNat := by omega
    have hvalid' : 0 ≤ target.toInt + d ∧ d + target.toInt.toNat ≤ d + length := by omega
    simp only [hvalid, hpc, hvalid', and_self, if_true]
    exact .inr (.ok ⟨hfree, rfl⟩)
  · simp only [hvalid, if_false]
    exact .inl ⟨_, _, rfl, _, _, rfl⟩

theorem simulation_moved (length : Nat) {ins : Instruction}
    (h : ins.opcode.jumps = true → ∀ target, ins.operand = some (.integer target) →
      target.toInt + d ≤ Int32.maxValue.toInt) :
    Simulation InvalidJump (Moved d c) length (d + length) (fun target => .ofInt (target.toInt + d))
      ins :=
  simulation_elsewhere fun target hjumps ht => simulates_jumpTo_moved (h hjumps target ht)

theorem simulates_countStep_moved :
    Simulates InvalidJump (Moved d c) countStep countStep := by
  rintro m _ ⟨hfree, rfl⟩
  simp only [countStep, moved, hfree]
  exact .inr (.ok ⟨hfree, rfl⟩)

theorem tracks_link_right {first second : Program} (h : second.Relocatable first.size) :
    Tracks InvalidJump (Moved first.size c) second (first.link second) := by
  rintro m _ ins ⟨-, rfl⟩ hp
  have hins := h ins (Array.mem_of_getElem? hp)
  have hadvance : Simulates InvalidJump (Moved first.size c) advance advance :=
    simulates_advance (by rintro m _ ⟨hfree, rfl⟩; exact ⟨hfree, rfl⟩)
  have hsim := (simulation_moved second.size hins).step hadvance simulates_countStep_moved
  rw [← Program.size_link] at hsim
  refine ⟨ins.relocate first.size, ?_, ins.opcode_retarget _, hsim⟩
  simp only [moved, Program.getElem?_link_right, hp, Option.map_some]

/-! ## The linked program -/

/-- The linked program comes to where the first ends, in the same state. There the second begins. -/
theorem reaches_link {first : Program} (second : Program) {m s : Machine}
    (hfree : m.config.stepLimit = none) (h : Ends first m (.finished s)) :
    ∃ n, Reaches (first.link second) n m.start s ∧ Moved first.size s.steps s.start s := by
  obtain ⟨n, hreach, -⟩ := ends_finished_iff.1 h
  obtain ⟨_, hlink, rfl⟩ := (tracks_link_left first second).reaches hreach rfl
  refine ⟨n, hlink, ?_, ?_⟩
  · rw [start, hreach.counters.1]
    exact hfree
  · -- The first program ends at its length, which the start of the second is moved by.
    unfold moved start
    rw [← pc_of_ends_finished h]
    rfl

/-- Running two programs one after the other is running the two linked, when there is no step limit and
the targets of the second can be moved. If both end, so does the linked program, in the state of the
second. If the second traps, the linked program traps at the same instruction with the same fault. A
jump out of the second program is left out: it may lead into the first. -/
theorem run_link (first second : Program) (m s₁ : Machine) (hfree : m.config.stepLimit = none)
    (hmove : second.Relocatable first.size) (hfirst : Ends first m (.finished s₁)) :
    (∀ s₂, Ends second s₁ (.finished s₂) →
      Ends (first.link second) m
        (.finished
          { s₂ with pc := first.size + second.size, steps := s₁.steps + s₂.steps })) ∧
    (∀ trap s₂, Ends second s₁ (.trapped trap s₂) →
      (∀ target length, trap.fault ≠ .invalidJump target length) →
      Ends (first.link second) m
        (.trapped { trap with pc := first.size + trap.pc }
          { s₂ with pc := first.size + s₂.pc, steps := s₁.steps + s₂.steps })) := by
  obtain ⟨n₁, hreach₁, hmoved⟩ := reaches_link second hfree hfirst
  refine ⟨?_, ?_⟩
  · intro s₂ hsecond
    obtain ⟨n₂, hreach₂, hend⟩ := ends_finished_iff.1 hsecond
    obtain ⟨_, hreach, -, rfl⟩ := (tracks_link_right hmove).reaches hreach₂ hmoved
    rw [← pc_of_ends_finished hsecond]
    refine ends_finished_iff.2 ⟨n₁ + n₂, hreach₁.trans hreach, ?_⟩
    rw [Program.getElem?_link_right, hend]
    rfl
  · intro trap s₂ hsecond hfault
    obtain ⟨n₂, r, ins, hreach₂, hp, hs, hpc, hopcode⟩ := ends_trapped_iff.1 hsecond
    have hexcused : ¬ InvalidJump trap.fault := by
      rintro ⟨target, length, heq⟩
      exact hfault target length heq
    obtain ⟨_, _, ins', hreach, ⟨-, rfl⟩, hp', hopcode', hs', -, rfl⟩ :=
      (tracks_link_right hmove).faults hreach₂ hp hs hmoved hexcused
    refine ends_trapped_iff.2 ⟨n₁ + n₂, _, ins', hreach₁.trans hreach, hp', hs', ?_, ?_⟩
    · rw [hpc]
      rfl
    · exact hopcode.trans hopcode'.symm

/-- The first program leaves an integer and jumps to its own end. The second, whose jump back is not
made, prints it. -/
theorem run_link_print :
    ∃ s₁ s₂, Ends #[⟨.push, some (.integer 1)⟩, ⟨.jump, some (.integer 2)⟩]
        (new {} (.zeros 0) (.buffer "")) (.finished s₁) ∧
      Ends #[⟨.push, some (.boolean false)⟩, ⟨.jumpIf true, some (.integer 0)⟩, ⟨.print, none⟩] s₁
        (.finished s₂) ∧
      Ends (Program.link #[⟨.push, some (.integer 1)⟩, ⟨.jump, some (.integer 2)⟩]
          #[⟨.push, some (.boolean false)⟩, ⟨.jumpIf true, some (.integer 0)⟩, ⟨.print, none⟩])
        (new {} (.zeros 0) (.buffer ""))
        (.finished { s₂ with pc := 5, steps := s₁.steps + s₂.steps }) := by
  have hmove : Program.Relocatable 2
      #[⟨.push, some (.boolean false)⟩, ⟨.jumpIf true, some (.integer 0)⟩, ⟨.print, none⟩] := by
    intro ins hmem hjumps target htarget
    simp only [List.mem_toArray, List.mem_cons, List.not_mem_nil, or_false] at hmem
    rcases hmem with rfl | rfl | rfl
    · cases hjumps
    · cases htarget
      decide
    · cases hjumps
  have hfirst : Ends #[⟨.push, some (.integer 1)⟩, ⟨.jump, some (.integer 2)⟩]
      (new {} (.zeros 0) (.buffer "")) (.finished _) := ⟨trivial, 2, rfl⟩
  have hlink := run_link #[⟨.push, some (.integer 1)⟩, ⟨.jump, some (.integer 2)⟩] _ _ _ rfl hmove
    hfirst
  exact ⟨_, _, hfirst, ⟨trivial, 3, rfl⟩, hlink.1 _ ⟨trivial, 3, rfl⟩⟩

end Machine

end StackMachine
