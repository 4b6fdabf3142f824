-- SUMMARY: Values below those that a run starts with are never seen.
import StackMachine.Proofs.Simulation

/-!
# The stack below

A run looks at the stack from the top. Values that lie below the ones it starts with are never seen,
and come out as they went in, as long as the run does not reach for a value that is not there or for
room that is not there: then, with values below and with as much more room, it would have found them.
-/

namespace StackMachine.Machine

/-- The machine with more values at the bottom of its stack, and with another limit on its size. -/
def framed (base : Array Value) (limit : Nat) (m : Machine) : Machine :=
  { m with
    config := { m.config with maxStack := limit }
    stack := { values := base ++ m.stack.values, limit } }

/-- The faults that values below, or more room, may avert. -/
def StackBound (fault : Fault) : Prop :=
  fault = .stackUnderflow ∨ ∃ limit, fault = .stackOverflow limit

/-- The second machine is the first with `base` below its values, and has room for both. -/
def Framed (base : Array Value) (limit : Nat) (m n : Machine) : Prop :=
  m.stack.limit + base.size ≤ limit ∧ n = m.framed base limit

variable {base : Array Value} {limit : Nat}

/-! ## Steps -/

theorem simulates_pop_framed :
    Simulates StackBound (Framed base limit) (onStack Stack.pop) (onStack Stack.pop) := by
  rintro m _ ⟨hroom, rfl⟩
  simp only [onStack, Stack.pop, framed, Array.back?_append]
  cases hback : m.stack.values.back? with
  | none => exact .inl ⟨_, _, rfl, .inl rfl⟩
  | some v =>
    right
    have hne : m.stack.values ≠ #[] := by
      intro hempty
      rw [hempty] at hback
      cases hback
    simp only [Option.some_or, Array.pop_append_of_ne_empty hne]
    exact .ok ⟨hroom, rfl⟩

theorem simulates_push_framed (v : Value) :
    Simulates StackBound (Framed base limit) (onStack (Stack.push v)) (onStack (Stack.push v)) := by
  rintro m _ ⟨hroom, rfl⟩
  simp only [onStack, Stack.push, Stack.size, framed, Array.size_append]
  by_cases hlt : m.stack.values.size < m.stack.limit
  · right
    have hlt' : base.size + m.stack.values.size < limit := by omega
    simp only [hlt, hlt', if_true, Array.push_append]
    exact .ok ⟨hroom, rfl⟩
  · simp only [hlt, if_false]
    exact .inl ⟨_, _, rfl, .inr ⟨_, rfl⟩⟩

/-- Only pops and pushes look at the stack, and no other action writes it. -/
theorem simulation_framed (length : Nat) (ins : Instruction) :
    Simulation StackBound (Framed base limit) length length id ins where
  pop := simulates_pop_framed
  push := simulates_push_framed
  loadCell index _ _ := .of_related (related_loadCell (by rintro m _ ⟨-, rfl⟩; rfl) index)
  storeCell index n _ _ := .of_related
    (related_storeCell (by rintro m _ ⟨-, rfl⟩; rfl)
      (by rintro m _ memory ⟨hroom, rfl⟩; exact ⟨hroom, rfl⟩) index n)
  jumpTo target _ _ := .of_related
    (related_jumpTo (by rintro m _ pc ⟨hroom, rfl⟩; exact ⟨hroom, rfl⟩) length target)
  printLine line _ := .of_related
    (related_printLine (by rintro m _ ⟨-, rfl⟩; rfl)
      (by rintro m _ output ⟨hroom, rfl⟩; exact ⟨hroom, rfl⟩) line)

theorem simulates_step_framed (length : Nat) (ins : Instruction) :
    Simulates StackBound (Framed base limit) (step length ins) (step length ins) := by
  have hadvance : Simulates StackBound (Framed base limit) advance advance :=
    simulates_advance (by rintro m _ ⟨hroom, rfl⟩; exact ⟨hroom, rfl⟩)
  have hcount : Simulates StackBound (Framed base limit) countStep countStep :=
    simulates_countStep (by rintro m _ ⟨-, rfl⟩; exact ⟨rfl, rfl⟩)
      (by rintro m _ steps ⟨hroom, rfl⟩; exact ⟨hroom, rfl⟩)
  have h := (simulation_framed length ins).step hadvance hcount
  rw [ins.retarget_id] at h
  exact h

/-! ## Runs -/

theorem tracks_framed (program : Program) :
    Tracks StackBound (Framed base limit) program program := by
  rintro m _ ins ⟨-, rfl⟩ hp
  exact ⟨ins, hp, rfl, simulates_step_framed program.size ins⟩

/-- What lies below on the stack never matters. A run that ends, without underflow or overflow of the
stack, ends in the same way with any values below and with a limit that leaves room for them: with the
same trap if there is one, and in the same state, but for the values below. -/
theorem run_framed (program : Program) (m : Machine) (p : Progress) (base : Array Value) (limit : Nat)
    (hends : Ends program m p)
    (hfault : ∀ trap s, p = .trapped trap s → ¬ StackBound trap.fault)
    (hlimit : m.stack.limit + base.size ≤ limit) :
    Ends program (m.framed base limit) (p.map (framed base limit)) := by
  have hstart : Framed base limit m.start (m.framed base limit).start := ⟨hlimit, rfl⟩
  cases p with
  | finished s =>
    obtain ⟨n, hreach, hend⟩ := ends_finished_iff.1 hends
    obtain ⟨_, hreach', -, rfl⟩ := (tracks_framed program).reaches hreach hstart
    exact ends_finished_iff.2 ⟨n, hreach', hend⟩
  | trapped trap s =>
    obtain ⟨n, r, ins, hreach, hp, hs, hpc, hopcode⟩ := ends_trapped_iff.1 hends
    obtain ⟨_, _, ins', hreach', ⟨-, rfl⟩, hp', hopcode', hs', -, rfl⟩ :=
      (tracks_framed program).faults hreach hp hs hstart (hfault trap s rfl)
    exact ends_trapped_iff.2 ⟨n, _, ins', hreach', hp', hs', hpc, hopcode.trans hopcode'.symm⟩
  | running s => exact hends.1.elim

/-- A text below two integers does not disturb their sum. -/
theorem run_sum_framed :
    ∃ s, Ends #[⟨.arith .add, none⟩]
        { new {} (.zeros 0) .silent with stack := ⟨#[.integer 2, .integer 3], 2⟩ } (.finished s) ∧
      Ends #[⟨.arith .add, none⟩]
        ({ new {} (.zeros 0) .silent with stack := ⟨#[.integer 2, .integer 3], 2⟩ }.framed
          #[.text "below"] 3) (.finished (s.framed #[.text "below"] 3)) := by
  obtain ⟨s, hs⟩ : ∃ s, run #[⟨.arith .add, none⟩] 1
      { new {} (.zeros 0) .silent with stack := ⟨#[.integer 2, .integer 3], 2⟩ } = .finished s :=
    ⟨_, rfl⟩
  have hends : Ends _ _ (.finished s) := ⟨trivial, 1, hs⟩
  exact ⟨s, hends, run_framed _ _ _ #[.text "below"] 3 hends (fun _ _ h => nomatch h) (by decide)⟩

end StackMachine.Machine
