-- SUMMARY: Steps that simulate steps make runs that simulate runs.
import StackMachine.Proofs.Reach

/-!
# Simulated runs

When the steps of one program simulate those of another, so do its runs: the two go side by side
through related machines until the first one ends, and end alike unless the fault that ends the first
is an excused one.
-/

namespace StackMachine.Machine

variable {excused : Fault → Prop} {R : Machine → Machine → Prop}

/-! ## Steps -/

/-- A step moves on and counts before it carries the instruction out, so these two are simulated as
well. -/
theorem Simulation.step {length length' : Nat} {t : Int32 → Int32} {ins : Instruction}
    (h : Simulation excused R length length' t ins) (hadvance : Simulates excused R advance advance)
    (hcount : Simulates excused R countStep countStep) :
    Simulates excused R (step length ins) (step length' (ins.retarget t)) :=
  hadvance.bind fun _ => hcount.bind fun _ => h.execute

theorem simulates_advance
    (h : ∀ m n, R m n → R { m with pc := m.pc + 1 } { n with pc := n.pc + 1 }) :
    Simulates excused R advance advance :=
  fun m n hR => .inr (.ok (h m n hR))

/-- Counting depends on the step limit and the steps counted so far. -/
theorem simulates_countStep
    (hread : ∀ m n, R m n → n.config.stepLimit = m.config.stepLimit ∧ n.steps = m.steps)
    (hwrite : ∀ m n steps, R m n → R { m with steps } { n with steps }) :
    Simulates excused R countStep countStep := by
  intro m n h
  obtain ⟨hlimit, hsteps⟩ := hread m n h
  right
  simp only [countStep, hlimit, hsteps]
  cases m.config.stepLimit with
  | none => exact .ok (hwrite m n _ h)
  | some limit =>
    by_cases hlt : m.steps < limit
    · simp only [hlt, if_true]
      exact .ok (hwrite m n _ h)
    · simp only [hlt, if_false]
      exact .error h

/-! ## Runs -/

/-- Wherever the first of two related machines stands at an instruction, the second stands at one with
the same opcode, and the steps are simulated. -/
def Tracks (excused : Fault → Prop) (R : Machine → Machine → Prop) (program program' : Program) :
    Prop :=
  ∀ m n ins, R m n → program[m.pc]? = some ins →
    ∃ ins', program'[n.pc]? = some ins' ∧ ins'.opcode = ins.opcode ∧
      Simulates excused R (Machine.step program.size ins) (Machine.step program'.size ins')

namespace Tracks

variable {program program' : Program} {k : Nat} {m n r s : Machine}

theorem reaches (h : Tracks excused R program program') (hreach : Reaches program k m s)
    (hR : R m n) : ∃ t, Reaches program' k n t ∧ R s t := by
  induction hreach generalizing n with
  | refl m => exact ⟨n, .refl n, hR⟩
  | step hp hs _ ih =>
    obtain ⟨ins', hp', -, hsim⟩ := h _ _ _ hR hp
    obtain ⟨n', hs', hR'⟩ := hsim.of_ok hR hs
    obtain ⟨t, hreach', ht⟩ := ih hR'
    exact ⟨t, .step hp' hs' hreach', ht⟩

/-- A fault that is not excused is met by both runs, at related machines. -/
theorem faults {ins : Instruction} {fault : Fault} (h : Tracks excused R program program')
    (hreach : Reaches program k m r) (hp : program[r.pc]? = some ins)
    (hs : Machine.step program.size ins r = .error fault s) (hR : R m n) (hfault : ¬ excused fault) :
    ∃ r' s' ins', Reaches program' k n r' ∧ R r r' ∧ program'[r'.pc]? = some ins' ∧
      ins'.opcode = ins.opcode ∧ Machine.step program'.size ins' r' = .error fault s' ∧ R s s' := by
  obtain ⟨r', hreach', hr⟩ := h.reaches hreach hR
  obtain ⟨ins', hp', hopcode, hsim⟩ := h _ _ _ hr hp
  obtain ⟨s', hs', hss⟩ := hsim.of_error hr hs hfault
  exact ⟨r', s', ins', hreach', hr, hp', hopcode, hs', hss⟩

end Tracks

/-! ## Runs that end alike -/

/-- Two runs that are over in the same way, with the same trap if there is one, and with related
machines. -/
inductive ProgressRel (R : Machine → Machine → Prop) : Progress → Progress → Prop where
  | finished {m n : Machine} (h : R m n) : ProgressRel R (.finished m) (.finished n)
  | trapped {trap : Trap} {m n : Machine} (h : R m n) :
      ProgressRel R (.trapped trap m) (.trapped trap n)

theorem ProgressRel.machine {p q : Progress} (h : ProgressRel R p q) : R p.machine q.machine := by
  cases h with
  | finished h => exact h
  | trapped h => exact h

/-- Where nothing is excused and the two runs are always at the same index of programs of the same
length, the second ends as the first does. -/
theorem Tracks.ends {program program' : Program} {m n : Machine} {p : Progress}
    (h : Tracks (fun _ => False) R program program') (hsize : program'.size = program.size)
    (hpc : ∀ m n, R m n → n.pc = m.pc) (hR : R m.start n.start) (hends : Ends program m p) :
    ∃ q, Ends program' n q ∧ ProgressRel R p q := by
  cases p with
  | finished s =>
    obtain ⟨k, hreach, hend⟩ := ends_finished_iff.1 hends
    obtain ⟨t, hreach', ht⟩ := h.reaches hreach hR
    have hend' : program'[t.pc]? = none := by
      rw [Array.getElem?_eq_none_iff] at hend ⊢
      rw [hpc s t ht, hsize]
      exact hend
    exact ⟨.finished t, ends_finished_iff.2 ⟨k, hreach', hend'⟩, .finished ht⟩
  | trapped trap s =>
    obtain ⟨k, r, ins, hreach, hp, hs, htrap, hopcode⟩ := ends_trapped_iff.1 hends
    obtain ⟨r', s', ins', hreach', hr, hp', hopcode', hs', hss⟩ := h.faults hreach hp hs hR not_false
    refine ⟨.trapped trap s', ends_trapped_iff.2 ⟨k, r', ins', hreach', hp', hs', ?_, ?_⟩,
      .trapped hss⟩
    · rw [htrap, hpc r r' hr]
    · rw [hopcode, hopcode']
  | running s => exact hends.1.elim

end StackMachine.Machine
