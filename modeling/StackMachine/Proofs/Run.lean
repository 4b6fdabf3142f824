-- SUMMARY: Runs can be cut anywhere, and their end does not depend on the steps they are given.
import StackMachine.Machine

/-!
# Runs in parts

A run of so many steps can be cut anywhere: taking some steps and then some more is taking them all.
Hence the end of a run does not depend on how many steps it is given, as long as they suffice, and
the number of steps that just suffices is the length of the run.
-/

namespace StackMachine.Machine

/-! ## Progress -/

namespace Progress

/-- The machine as it is so far. -/
def machine : Progress → Machine
  | finished m => m
  | trapped _ m => m
  | running m => m

/-- The same progress of another machine. -/
def map (f : Machine → Machine) : Progress → Progress
  | finished m => finished (f m)
  | trapped trap m => trapped trap (f m)
  | running m => running (f m)

/-- Whether the run is over, at the end of the program or by a trap. -/
def Ended : Progress → Prop
  | finished _ | trapped _ _ => True
  | running _ => False

@[simp] theorem machine_map (f : Machine → Machine) (p : Progress) :
    (p.map f).machine = f p.machine := by
  cases p <;> rfl

theorem Ended.map {f : Machine → Machine} {p : Progress} (h : p.Ended) : (p.map f).Ended := by
  cases p with
  | finished m => exact trivial
  | trapped trap m => exact trivial
  | running m => exact h.elim

theorem not_ended_iff {p : Progress} : ¬ p.Ended ↔ ∃ m, p = running m := by
  cases p with
  | finished m => simp [Ended]
  | trapped trap m => simp [Ended]
  | running m => simp [Ended]

end Progress

/-! ## Cutting a run -/

/-- A run that is still going stands at an instruction. -/
theorem exists_instruction_of_running {program : Program} {fuel : Nat} {m s : Machine}
    (h : resume program fuel m = .running s) : ∃ ins, program[s.pc]? = some ins := by
  fun_induction resume program fuel m with
  | case1 fuel m hp => cases h
  | case2 m ins hp =>
    cases h
    exact ⟨ins, hp⟩
  | case3 m ins hp fuel pc m' hs ih => exact ih h
  | case4 m ins hp fuel pc fault m' hs => cases h

/-- Take at most `more` steps from where a run is, if it is not over. -/
def Progress.resume (program : Program) (more : Nat) : Progress → Progress
  | running m => Machine.resume program more m
  | finished m => finished m
  | trapped trap m => trapped trap m

theorem resume_add (program : Program) (fuel more : Nat) (m : Machine) :
    resume program (fuel + more) m = (resume program fuel m).resume program more := by
  fun_induction resume program fuel m with
  | case1 fuel m hp => exact resume_of_end _ hp
  | case2 m ins hp => rw [Nat.zero_add, Progress.resume]
  | case3 m ins hp fuel pc m' hs ih => rw [Nat.succ_add, resume_succ_of_ok _ hp hs, ih]
  | case4 m ins hp fuel pc fault m' hs => rw [Nat.succ_add, resume_succ_of_error _ hp hs]; rfl

theorem resume_of_ended {program : Program} {fuel more : Nat} {m : Machine} (hle : fuel ≤ more)
    (h : (resume program fuel m).Ended) : resume program more m = resume program fuel m := by
  obtain ⟨extra, rfl⟩ := Nat.exists_eq_add_of_le hle
  rw [resume_add]
  cases hr : resume program fuel m with
  | finished s => rfl
  | trapped trap s => rfl
  | running s =>
    rw [hr] at h
    exact h.elim

/-! ## The length of a run -/

/-- The run of a program ends with `p`. -/
def Ends (program : Program) (m : Machine) (p : Progress) : Prop :=
  p.Ended ∧ ∃ fuel, run program fuel m = p

/-- A run ends in one way only. -/
theorem Ends.unique {program : Program} {m : Machine} {p q : Progress} (h : Ends program m p)
    (h' : Ends program m q) : p = q := by
  obtain ⟨hp, fuel, rfl⟩ := h
  obtain ⟨hq, fuel', rfl⟩ := h'
  rcases Nat.le_total fuel fuel' with hle | hle
  · exact (resume_of_ended hle hp).symm
  · exact resume_of_ended hle hq

/-- The run of a program ends with `p` after exactly `n` dispatched instructions, one that traps
included: with `n` steps it is over, with fewer it is still going. -/
structure EndsAfter (program : Program) (m : Machine) (n : Nat) (p : Progress) : Prop where
  result : run program n m = p
  ended : p.Ended
  going : ∀ k < n, ¬ (run program k m).Ended

/-- A run is longer than the steps after which it is still going. -/
theorem EndsAfter.lt_of_running {program : Program} {m s : Machine} {k n : Nat} {p : Progress}
    (h : EndsAfter program m n p) (hs : run program k m = .running s) : k < n := by
  obtain ⟨rfl, hended, -⟩ := h
  refine Nat.lt_of_not_le fun hle => ?_
  have heq : run program k m = run program n m := resume_of_ended hle hended
  rw [← heq, hs] at hended
  exact hended

/-- A run that is over has a length. -/
theorem exists_endsAfter {program : Program} {m : Machine} {fuel : Nat}
    (h : (run program fuel m).Ended) :
    ∃ n, n ≤ fuel ∧ EndsAfter program m n (run program fuel m) := by
  induction fuel with
  | zero => exact ⟨0, Nat.le_refl 0, rfl, h, fun k hk => absurd hk (Nat.not_lt_zero k)⟩
  | succ fuel ih =>
    by_cases hf : (run program fuel m).Ended
    · have heq : run program (fuel + 1) m = run program fuel m :=
        resume_of_ended (Nat.le_succ fuel) hf
      obtain ⟨n, hn, he⟩ := ih hf
      rw [heq]
      exact ⟨n, Nat.le_succ_of_le hn, he⟩
    · refine ⟨fuel + 1, Nat.le_refl _, rfl, h, fun k hk hended => hf ?_⟩
      have heq : run program fuel m = run program k m := resume_of_ended (Nat.le_of_lt_succ hk) hended
      rw [heq]
      exact hended

end StackMachine.Machine
