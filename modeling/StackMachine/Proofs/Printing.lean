-- SUMMARY: The transcript of a run, which every output shows as long as it accepts the lines.
import Mathlib.Data.Nat.Find
import StackMachine.Proofs.Reach

/-!
# Printed lines

What a run prints, apart from where its lines go. The values that a run prints make up its transcript,
which is what a buffer captures. Every other output follows the buffer: as long as it accepts the lines
of the transcript, the run does not notice the difference, and a sink that has too little room stops the
run at the first line that does not fit.
-/

namespace StackMachine

/-! ## Texts handed to an output -/

theorem Text.utf8_append (s t : String) : Text.utf8 (s ++ t) = Text.utf8 s ++ Text.utf8 t := by
  simp [Text.utf8]

theorem Text.size_utf8_append (s t : String) :
    (Text.utf8 (s ++ t)).size = (Text.utf8 s).size + (Text.utf8 t).size := by
  rw [Text.utf8_append, Array.size_append]

namespace Output

/-- The output takes a line after it has been given a text, where `view` says what a text makes of it. -/
def Accepts (view : String → Output) (text line : String) : Prop :=
  println line (view text) = .ok () (view (text ++ line ++ "\n"))

/-- A writer that was given a text, over a sink with room for so many bytes in all. The sink holds as
much of the text as it has room for. -/
def bounded (room : Nat) (failure : Option WriteError) (text : String) : Output :=
  .writer
    { room := some (room - (Text.utf8 text).size)
      failure
      received := (Text.utf8 text).take room }

/-- A writer whose sink takes everything. -/
def unbounded (failure : Option WriteError) (text : String) : Output :=
  .writer { failure, received := Text.utf8 text }

theorem bounded_empty (room : Nat) (failure : Option WriteError) :
    bounded room failure "" = .writer { room := some room, failure } := by
  have hempty : Text.utf8 "" = #[] := by simp [Text.utf8]
  simp [bounded, hempty]

theorem accepts_unbounded (failure : Option WriteError) (text line : String) :
    Accepts (unbounded failure) text line := by
  unfold Accepts unbounded println
  simp only [Sink.writeLine, Sink.write, String.append_assoc, Text.utf8_append]

/-- What a sink makes of another line depends on all the bytes that it has been given. -/
theorem println_bounded (room : Nat) (failure : Option WriteError) (text line : String) :
    println line (bounded room failure text) =
      if (Text.utf8 (text ++ line ++ "\n")).size ≤ room then
        .ok () (bounded room failure (text ++ line ++ "\n"))
      else
        .error (failure.getD .writeZero) (bounded room failure (text ++ line ++ "\n")) := by
  have hpos : 0 < (Text.utf8 (line ++ "\n")).size := by
    rw [Machine.size_utf8_line]
    exact Nat.succ_pos _
  rw [String.append_assoc]
  generalize hbytes : line ++ "\n" = bytes at hpos
  simp only [println, bounded, Sink.writeLine, Sink.write, Sink.refusal, hbytes, Text.utf8_append,
    Array.size_append]
  generalize Text.utf8 text = before at hpos ⊢
  generalize Text.utf8 bytes = added at hpos ⊢
  by_cases hfits : before.size + added.size ≤ room
  · have hroom : added.size ≤ room - before.size := by omega
    have hbefore : before.take room = before := Array.extract_eq_self_of_le (by omega)
    have hall : (before ++ added).take room = before ++ added :=
      Array.extract_eq_self_of_le (by rw [Array.size_append]; exact hfits)
    simp only [hroom, hfits, if_true, hbefore, hall, Nat.sub_sub]
  · have hroom : ¬ added.size ≤ room - before.size := by omega
    have hcut : (before ++ added).take room = before.take room ++ added.take (room - before.size) := by
      simp only [Array.take_eq_extract, Array.extract_append, Nat.zero_sub]
    have hzero : room - (before.size + added.size) = 0 := by omega
    simp only [hroom, hfits, if_false, hcut, hzero]

theorem accepts_bounded {room : Nat} {text line : String} (failure : Option WriteError)
    (h : (Text.utf8 (text ++ line ++ "\n")).size ≤ room) :
    Accepts (bounded room failure) text line := by
  unfold Accepts
  rw [println_bounded, if_pos h]

/-- Once the room is used up, nothing that follows leaves a trace. -/
theorem bounded_append {room : Nat} {text : String} (failure : Option WriteError) (more : String)
    (h : room ≤ (Text.utf8 text).size) :
    bounded room failure (text ++ more) = bounded room failure text := by
  simp only [bounded, Text.utf8_append, Array.size_append]
  generalize Text.utf8 text = before at h ⊢
  generalize Text.utf8 more = added
  have hroom : room - (before.size + added.size) = room - before.size := by omega
  have hcut : (before ++ added).take room = before.take room := by
    simp [Array.take_eq_extract, Array.extract_append, Nat.sub_eq_zero_of_le h]
  rw [hroom, hcut]

end Output

/-! ## Transcripts -/

/-- The lines of printed values, each followed by a newline. -/
def transcript : List Value → String
  | [] => ""
  | v :: values => v.render ++ "\n" ++ transcript values

theorem transcript_append (values more : List Value) :
    transcript (values ++ more) = transcript values ++ transcript more := by
  induction values with
  | nil => simp [transcript]
  | cons v values ih => simp only [List.cons_append, transcript, ih, String.append_assoc]

/-- The output takes the lines of the values one after the other, after it has been given a text. -/
def AcceptsAll (view : String → Output) : String → List Value → Prop
  | _, [] => True
  | text, v :: values =>
    Output.Accepts view text v.render ∧ AcceptsAll view (text ++ v.render ++ "\n") values

theorem acceptsAll_append {view : String → Output} {text : String} {values more : List Value} :
    AcceptsAll view text (values ++ more) ↔
      AcceptsAll view text values ∧ AcceptsAll view (text ++ transcript values) more := by
  induction values generalizing text with
  | nil => simp [AcceptsAll, transcript]
  | cons v values ih =>
    simp only [List.cons_append, AcceptsAll, transcript, ih, and_assoc, String.append_assoc]

theorem acceptsAll_of_accepts {view : String → Output}
    (h : ∀ text line, Output.Accepts view text line) (text : String) (values : List Value) :
    AcceptsAll view text values := by
  induction values generalizing text with
  | nil => trivial
  | cons v values ih => exact ⟨h text v.render, ih _⟩

/-- A sink takes all lines that it has room for. -/
theorem acceptsAll_bounded {room : Nat} {text : String} {values : List Value}
    (failure : Option WriteError) (h : (Text.utf8 (text ++ transcript values)).size ≤ room) :
    AcceptsAll (Output.bounded room failure) text values := by
  induction values generalizing text with
  | nil => trivial
  | cons v values ih =>
    have hall : (Text.utf8 (text ++ v.render ++ "\n" ++ transcript values)).size ≤ room := by
      simpa only [transcript, String.append_assoc] using h
    refine ⟨Output.accepts_bounded failure ?_, ih hall⟩
    rw [Text.size_utf8_append] at hall
    exact Nat.le_trans (Nat.le_add_right _ _) hall

namespace Machine

/-! ## Values that a run prints -/

/-- The value that an instruction prints, if it prints at all and there is a value. -/
def printed? (ins : Instruction) (m : Machine) : Option Value :=
  if ins.opcode = .print then m.stack.topDown.head? else none

/-- The values that at most `fuel` steps from the present state print, in order. -/
def printedFrom (program : Program) (fuel : Nat) (m : Machine) : List Value :=
  match program[m.pc]? with
  | none => []
  | some ins =>
    match fuel with
    | 0 => []
    | fuel + 1 =>
      match step program.size ins m with
      | .ok _ m' => (printed? ins m).toList ++ printedFrom program fuel m'
      | .error _ _ => []

/-- The values that at most `fuel` steps of a new run print. -/
def printed (program : Program) (fuel : Nat) (m : Machine) : List Value :=
  printedFrom program fuel m.start

section Equations

variable {program : Program} {m m' : Machine} {ins : Instruction}

theorem printedFrom_of_end (fuel : Nat) (h : program[m.pc]? = none) :
    printedFrom program fuel m = [] := by
  unfold printedFrom
  simp only [h]

theorem printedFrom_zero (program : Program) (m : Machine) : printedFrom program 0 m = [] := by
  unfold printedFrom
  split <;> rfl

theorem printedFrom_succ_of_ok (fuel : Nat) (h : program[m.pc]? = some ins)
    (hs : step program.size ins m = .ok () m') :
    printedFrom program (fuel + 1) m = (printed? ins m).toList ++ printedFrom program fuel m' := by
  rw [printedFrom]
  simp only [h, hs]

theorem printedFrom_succ_of_error {fault : Fault} (fuel : Nat) (h : program[m.pc]? = some ins)
    (hs : step program.size ins m = .error fault m') : printedFrom program (fuel + 1) m = [] := by
  rw [printedFrom]
  simp only [h, hs]

end Equations

/-- The values that at most `more` steps print from where a run is, if it is not over. -/
def Progress.printed (program : Program) (more : Nat) : Progress → List Value
  | running m => printedFrom program more m
  | finished _ | trapped _ _ => []

theorem printedFrom_add (program : Program) (fuel more : Nat) (m : Machine) :
    printedFrom program (fuel + more) m =
      printedFrom program fuel m ++ (resume program fuel m).printed program more := by
  fun_induction resume program fuel m with
  | case1 fuel m hp => simp [printedFrom_of_end _ hp, Progress.printed]
  | case2 m ins hp => simp [printedFrom_zero, Progress.printed]
  | case3 m ins hp fuel pc m' hs ih =>
    rw [Nat.succ_add, printedFrom_succ_of_ok _ hp hs, printedFrom_succ_of_ok _ hp hs, ih,
      List.append_assoc]
  | case4 m ins hp fuel pc fault m' hs =>
    simp [Nat.succ_add, printedFrom_succ_of_error _ hp hs, Progress.printed]

/-- A single step that prints something is a print that succeeds. -/
theorem exists_printed_of_printedFrom_one {program : Program} {m : Machine}
    (h : printedFrom program 1 m ≠ []) :
    ∃ ins m' v, program[m.pc]? = some ins ∧ step program.size ins m = .ok () m' ∧
      printed? ins m = some v ∧ printedFrom program 1 m = [v] := by
  cases hp : program[m.pc]? with
  | none => exact absurd (printedFrom_of_end 1 hp) h
  | some ins =>
    cases hs : step program.size ins m with
    | error fault m' => exact absurd (printedFrom_succ_of_error 0 hp hs) h
    | ok u m' =>
      have hone := printedFrom_succ_of_ok 0 hp hs
      rw [printedFrom_zero, List.append_nil] at hone
      cases hv : printed? ins m with
      | none =>
        rw [hv] at hone
        exact absurd hone h
      | some v =>
        rw [hv] at hone
        exact ⟨ins, m', v, rfl, hs, hv, hone⟩

/-! ## Steps with another output -/

/-- The machine with another output. -/
def withOutput (output : Output) (m : Machine) : Machine :=
  { m with output }

/-- The first machine has captured a text, and the second is the same machine with another output that
was given this text. -/
def Mirrors (view : String → Output) (text : String) (m n : Machine) : Prop :=
  m.output = .buffer text ∧ n = m.withOutput (view text)

variable {view : String → Output} {text : String} {length : Nat} {ins : Instruction}
  {m m' n : Machine}

/-- Only a print looks at the output. -/
theorem respects_mirrors (h : ins.opcode ≠ .print) : Respects (Mirrors view text) length ins where
  onStack action := by
    apply related_onStack
    · rintro m _ ⟨-, rfl⟩
      rfl
    · rintro m _ stack ⟨htext, rfl⟩
      exact ⟨htext, rfl⟩
  loadCell index _ _ := by
    apply related_loadCell
    rintro m _ ⟨-, rfl⟩
    rfl
  storeCell index v _ _ := by
    apply related_storeCell
    · rintro m _ ⟨-, rfl⟩
      rfl
    · rintro m _ memory ⟨htext, rfl⟩
      exact ⟨htext, rfl⟩
  jumpTo target _ := by
    apply related_jumpTo
    rintro m _ pc ⟨htext, rfl⟩
    exact ⟨htext, rfl⟩
  printLine line hop := absurd hop h

theorem execute_print_nil (hop : ins.opcode = .print) (htop : m.stack.topDown = []) :
    execute length ins m = .error .stackUnderflow m := by
  have h := takes_bind_empty (f := fun v => printLine v.render) Stack.takes_pop m
  rw [withTop_of_topDown htop] at h
  unfold execute
  rw [hop]
  exact h

theorem execute_print_cons {v : Value} {rest : List Value} (hop : ins.opcode = .print)
    (htop : m.stack.topDown = v :: rest) :
    execute length ins m = printLine v.render (m.withTop rest) := by
  have h := takes_bind_fits (f := fun v => printLine v.render) Stack.takes_pop m v rest
  simp only [id] at h
  rw [withTop_of_topDown htop] at h
  unfold execute
  rw [hop]
  exact h

theorem printLine_of_ok {line : String} {output : Output}
    (h : Output.println line m.output = .ok () output) :
    printLine line m = .ok () (m.withOutput output) := by
  simp only [printLine, h]
  rfl

theorem printLine_of_error {line : String} {cause : WriteError} {output : Output}
    (h : Output.println line m.output = .error cause output) :
    printLine line m = .error (.outputFailed cause) (m.withOutput output) := by
  simp only [printLine, h]
  rfl

/-- A buffer takes every line. -/
theorem println_withTop (h : m.output = .buffer text) (line : String) (rest : List Value) :
    Output.println line (m.withTop rest).output = .ok () (.buffer (text ++ line ++ "\n")) := by
  have hout : (m.withTop rest).output = .buffer text := h
  rw [hout]
  rfl

theorem Mirrors.execute_ok (h : Mirrors view text m n)
    (haccepts : AcceptsAll view text (printed? ins m).toList)
    (he : execute length ins m = .ok () m') :
    ∃ n', execute length ins n = .ok () n' ∧
      Mirrors view (text ++ transcript (printed? ins m).toList) m' n' := by
  by_cases hop : ins.opcode = .print
  · obtain ⟨htext, rfl⟩ := h
    cases htop : m.stack.topDown with
    | nil =>
      rw [execute_print_nil hop htop] at he
      cases he
    | cons v rest =>
      have hv : printed? ins m = some v := by simp [printed?, hop, htop]
      simp only [hv, Option.toList, AcceptsAll, transcript, String.append_empty, and_true]
        at haccepts ⊢
      rw [execute_print_cons hop htop, printLine_of_ok (println_withTop htext v.render rest)] at he
      cases he
      have htop' : (m.withOutput (view text)).stack.topDown = v :: rest := htop
      have hview : Output.println v.render ((m.withOutput (view text)).withTop rest).output =
          .ok () (view (text ++ v.render ++ "\n")) := haccepts
      rw [← String.append_assoc]
      refine ⟨_, ?_, rfl, rfl⟩
      rw [execute_print_cons hop htop', printLine_of_ok hview]
      rfl
  · obtain ⟨n', he', h'⟩ := (respects_mirrors hop).execute.of_ok h he
    have hnone : printed? ins m = none := by simp [printed?, hop]
    simp only [hnone, Option.toList, transcript, String.append_empty]
    exact ⟨n', he', h'⟩

/-- What faults with a buffer has not printed. -/
theorem Mirrors.execute_error {fault : Fault} (h : Mirrors view text m n)
    (he : execute length ins m = .error fault m') :
    ∃ n', execute length ins n = .error fault n' ∧ Mirrors view text m' n' := by
  by_cases hop : ins.opcode = .print
  · cases htop : m.stack.topDown with
    | nil =>
      rw [execute_print_nil hop htop] at he
      cases he
      obtain ⟨htext, rfl⟩ := h
      have htop' : (m.withOutput (view text)).stack.topDown = [] := htop
      exact ⟨_, execute_print_nil hop htop', htext, rfl⟩
    | cons v rest =>
      rw [execute_print_cons hop htop, printLine_of_ok (println_withTop h.1 v.render rest)] at he
      cases he
  · exact (respects_mirrors hop).execute.of_error h he

theorem Mirrors.dispatched (h : Mirrors view text m n) :
    Mirrors view text m.dispatched n.dispatched := by
  obtain ⟨htext, rfl⟩ := h
  exact ⟨htext, rfl⟩

theorem Mirrors.belowLimit (h : Mirrors view text m n) (hm : m.BelowLimit) : n.BelowLimit := by
  obtain ⟨-, rfl⟩ := h
  exact hm

theorem Mirrors.step_ok (h : Mirrors view text m n)
    (haccepts : AcceptsAll view text (printed? ins m).toList) (hs : step length ins m = .ok () m') :
    ∃ n', step length ins n = .ok () n' ∧
      Mirrors view (text ++ transcript (printed? ins m).toList) m' n' := by
  have hbelow := belowLimit_of_step_ok hs
  rw [step_of_belowLimit hbelow] at hs
  rw [step_of_belowLimit (h.belowLimit hbelow)]
  exact h.dispatched.execute_ok haccepts hs

theorem Mirrors.step_error {fault : Fault} (h : Mirrors view text m n)
    (hs : step length ins m = .error fault m') :
    ∃ n', step length ins n = .error fault n' ∧ Mirrors view text m' n' := by
  by_cases hbelow : m.BelowLimit
  · rw [step_of_belowLimit hbelow] at hs
    rw [step_of_belowLimit (h.belowLimit hbelow)]
    exact h.dispatched.execute_error hs
  · obtain ⟨limit, hl, hle⟩ := not_belowLimit_iff.1 hbelow
    rw [step_of_limit_le hl hle] at hs
    cases hs
    obtain ⟨htext, rfl⟩ := h
    exact ⟨_, step_of_limit_le hl hle, htext, rfl⟩

/-! ## Runs with another output -/

/-- A run with an output that accepts its lines goes as it does with a buffer. The buffer has captured
the transcript, which the other output was given. -/
theorem Mirrors.resume {program : Program} {fuel : Nat} (h : Mirrors view text m n)
    (haccepts : AcceptsAll view text (printedFrom program fuel m)) :
    (resume program fuel m).machine.output =
        .buffer (text ++ transcript (printedFrom program fuel m)) ∧
      resume program fuel n = (resume program fuel m).map
        (withOutput (view (text ++ transcript (printedFrom program fuel m)))) := by
  fun_induction Machine.resume program fuel m generalizing n text with
  | case1 fuel m hp =>
    obtain ⟨htext, rfl⟩ := h
    simp only [printedFrom_of_end fuel hp, transcript, String.append_empty]
    exact ⟨htext, resume_of_end fuel hp⟩
  | case2 m ins hp =>
    obtain ⟨htext, rfl⟩ := h
    simp only [printedFrom_zero, transcript, String.append_empty]
    exact ⟨htext, resume_zero hp⟩
  | case3 m ins hp fuel pc m' hs ih =>
    rw [printedFrom_succ_of_ok fuel hp hs] at haccepts ⊢
    obtain ⟨hfirst, hrest⟩ := acceptsAll_append.1 haccepts
    obtain ⟨n', hs', h'⟩ := h.step_ok hfirst hs
    have hp' : program[n.pc]? = some ins := by
      obtain ⟨-, rfl⟩ := h
      exact hp
    rw [resume_succ_of_ok fuel hp' hs', transcript_append, ← String.append_assoc]
    exact ih h' hrest
  | case4 m ins hp fuel pc fault m' =>
    rename_i hs
    obtain ⟨n', hs', htext, rfl⟩ := h.step_error hs
    have hn : n.pc = m.pc ∧ program[n.pc]? = some ins := by
      obtain ⟨-, rfl⟩ := h
      exact ⟨rfl, hp⟩
    simp only [printedFrom_succ_of_error fuel hp hs, transcript, String.append_empty]
    refine ⟨htext, ?_⟩
    rw [resume_succ_of_error fuel hn.2 hs', hn.1]
    rfl

theorem mirrors_start (view : String → Output) (m : Machine) :
    Mirrors view "" (m.withOutput (.buffer "")).start (m.withOutput (view "")).start :=
  ⟨rfl, rfl⟩

/-- What a buffer captures is the transcript. -/
theorem output_run_buffer (program : Program) (fuel : Nat) (m : Machine) :
    (run program fuel (m.withOutput (.buffer ""))).machine.output =
      .buffer (transcript (printed program fuel (m.withOutput (.buffer "")))) := by
  have haccepts : AcceptsAll .buffer "" (printed program fuel (m.withOutput (.buffer ""))) := by
    apply acceptsAll_of_accepts
    intro text line
    rfl
  have h := ((mirrors_start .buffer m).resume haccepts).1
  rw [String.empty_append] at h
  exact h

theorem run_withOutput_of_acceptsAll {program : Program} {fuel : Nat} {m : Machine}
    (h : AcceptsAll view "" (printed program fuel (m.withOutput (.buffer "")))) :
    run program fuel (m.withOutput (view "")) =
      (run program fuel (m.withOutput (.buffer ""))).map
        (withOutput (view (transcript (printed program fuel (m.withOutput (.buffer "")))))) := by
  have hrun := ((mirrors_start view m).resume h).2
  rw [String.empty_append] at hrun
  exact hrun

/-! ## A sink that has too little room -/

/-- A print that a buffer takes and a sink has no room for faults, and leaves all but the output as the
buffer has it. -/
theorem Mirrors.execute_refused {room : Nat} {failure : Option WriteError} {v : Value}
    (h : Mirrors (.bounded room failure) text m n) (hv : printed? ins m = some v)
    (he : execute length ins m = .ok () m')
    (hroom : room < (Text.utf8 (text ++ v.render ++ "\n")).size) :
    ins.opcode = .print ∧ m'.output = .buffer (text ++ v.render ++ "\n") ∧
      execute length ins n = .error (.outputFailed (failure.getD .writeZero))
        (m'.withOutput (.bounded room failure (text ++ v.render ++ "\n"))) := by
  obtain ⟨htext, rfl⟩ := h
  have hop : ins.opcode = .print := by
    by_contra hne
    simp [printed?, hne] at hv
  obtain ⟨rest, htop⟩ : ∃ rest, m.stack.topDown = v :: rest := by
    simp only [printed?, hop, if_true] at hv
    exact List.head?_eq_some_iff.1 hv
  rw [execute_print_cons hop htop, printLine_of_ok (println_withTop htext v.render rest)] at he
  cases he
  have htop' : (m.withOutput (.bounded room failure text)).stack.topDown = v :: rest := htop
  have hrefused : Output.println v.render
      ((m.withOutput (.bounded room failure text)).withTop rest).output =
      .error (failure.getD .writeZero) (.bounded room failure (text ++ v.render ++ "\n")) := by
    have hprint := Output.println_bounded room failure text v.render
    rw [if_neg (Nat.not_le_of_lt hroom)] at hprint
    exact hprint
  refine ⟨hop, rfl, ?_⟩
  rw [execute_print_cons hop htop', printLine_of_error hrefused]
  rfl

theorem Mirrors.step_refused {room : Nat} {failure : Option WriteError} {v : Value}
    (h : Mirrors (.bounded room failure) text m n) (hv : printed? ins m = some v)
    (hs : step length ins m = .ok () m')
    (hroom : room < (Text.utf8 (text ++ v.render ++ "\n")).size) :
    ins.opcode = .print ∧ m'.output = .buffer (text ++ v.render ++ "\n") ∧
      step length ins n = .error (.outputFailed (failure.getD .writeZero))
        (m'.withOutput (.bounded room failure (text ++ v.render ++ "\n"))) := by
  have hbelow := belowLimit_of_step_ok hs
  rw [step_of_belowLimit hbelow] at hs
  rw [step_of_belowLimit (h.belowLimit hbelow)]
  exact h.dispatched.execute_refused hv hs hroom

/-- When the transcript outgrows the room, there is a first step with which it does. -/
theorem exists_first_beyond {program : Program} {fuel room : Nat} {m : Machine}
    (h : room < (Text.utf8 (transcript (printed program fuel m))).size) :
    ∃ k, k + 1 ≤ fuel ∧ (∀ j ≤ k, (Text.utf8 (transcript (printed program j m))).size ≤ room) ∧
      room < (Text.utf8 (transcript (printed program (k + 1) m))).size := by
  have hex : ∃ j, room < (Text.utf8 (transcript (printed program j m))).size := ⟨fuel, h⟩
  have hzero : Nat.find hex ≠ 0 := by
    intro hfirst
    have hspec := Nat.find_spec hex
    rw [hfirst] at hspec
    simp [printed, printedFrom_zero, transcript, Text.utf8] at hspec
  obtain ⟨k, hk⟩ := Nat.exists_eq_succ_of_ne_zero hzero
  refine ⟨k, ?_, fun j hj => ?_, ?_⟩
  · rw [← Nat.succ_eq_add_one, ← hk]
    exact Nat.find_min' hex h
  · exact Nat.le_of_not_lt (Nat.find_min hex (by omega))
  · have hspec := Nat.find_spec hex
    rw [hk] at hspec
    exact hspec

/-- A step of a run that adds to what is printed is a print that succeeds. -/
theorem exists_printed_of_succ_ne {program : Program} {k : Nat} {m : Machine}
    (h : printed program (k + 1) m ≠ printed program k m) :
    ∃ r ins r' v, run program k m = .running r ∧ program[r.pc]? = some ins ∧
      step program.size ins r = .ok () r' ∧ printed? ins r = some v ∧
      printed program (k + 1) m = printed program k m ++ [v] := by
  have hadd : printed program (k + 1) m =
      printed program k m ++ (run program k m).printed program 1 :=
    printedFrom_add program k 1 m.start
  have hne : (run program k m).printed program 1 ≠ [] := by
    intro hnil
    rw [hnil, List.append_nil] at hadd
    exact h hadd
  cases hr : run program k m with
  | finished s =>
    rw [hr] at hne
    exact absurd rfl hne
  | trapped trap s =>
    rw [hr] at hne
    exact absurd rfl hne
  | running r =>
    rw [hr] at hne hadd
    obtain ⟨ins, r', v, hp, hs, hv, hone⟩ := exists_printed_of_printedFrom_one hne
    refine ⟨r, ins, r', v, rfl, hp, hs, hv, ?_⟩
    rw [hadd, Progress.printed, hone]

/-- The run with a sink that has too little room stops at the first print that does not fit. -/
theorem run_bounded_trapped {program : Program} {fuel room : Nat} {m : Machine}
    (failure : Option WriteError)
    (h : room < (Text.utf8 (transcript (printed program fuel (m.withOutput (.buffer ""))))).size) :
    ∃ k r ins r', run program k (m.withOutput (.buffer "")) = .running r ∧
      program[r.pc]? = some ins ∧ ins.opcode = .print ∧ step program.size ins r = .ok () r' ∧
      (∀ j ≤ k, (Text.utf8
        (run program j (m.withOutput (.buffer ""))).machine.output.captured).size ≤ room) ∧
      room < (Text.utf8 r'.output.captured).size ∧
      run program (k + 1) (m.withOutput (.bounded room failure "")) =
        .trapped { pc := r.pc, opcode := .print, fault := .outputFailed (failure.getD .writeZero) }
          (r'.withOutput (.bounded room failure
            (transcript (printed program fuel (m.withOutput (.buffer "")))))) := by
  obtain ⟨k, hk, hwithin, hbeyond⟩ := exists_first_beyond h
  have hne : printed program (k + 1) (m.withOutput (.buffer "")) ≠
      printed program k (m.withOutput (.buffer "")) := by
    intro heq
    rw [heq] at hbeyond
    exact absurd (hwithin k (Nat.le_refl k)) (Nat.not_le_of_lt hbeyond)
  obtain ⟨r, ins, r', v, hr, hp, hs, hv, hnext⟩ := exists_printed_of_succ_ne hne
  have htext : r.output = .buffer (transcript (printed program k (m.withOutput (.buffer "")))) := by
    have hout := output_run_buffer program k m
    rw [hr] at hout
    exact hout
  -- All lines before that print fit, so the two runs come to it side by side.
  have hfits : AcceptsAll (.bounded room failure) ""
      (printed program k (m.withOutput (.buffer ""))) := by
    apply acceptsAll_bounded
    rw [String.empty_append]
    exact hwithin k (Nat.le_refl k)
  have hside := run_withOutput_of_acceptsAll hfits
  rw [hr] at hside
  have hlast : transcript (printed program (k + 1) (m.withOutput (.buffer ""))) =
      transcript (printed program k (m.withOutput (.buffer ""))) ++ v.render ++ "\n" := by
    rw [hnext, transcript_append]
    simp [transcript, String.append_assoc]
  rw [hlast] at hbeyond
  obtain ⟨hop, hout, hrefused⟩ := Mirrors.step_refused ⟨htext, rfl⟩ hv hs hbeyond
  refine ⟨k, r, ins, r', hr, hp, hop, hs, ?_, ?_, ?_⟩
  · intro j hj
    rw [output_run_buffer]
    exact hwithin j hj
  · rw [hout]
    exact hbeyond
  · -- What the buffer captures after that print has no room in the sink.
    obtain ⟨extra, rfl⟩ := Nat.exists_eq_add_of_le hk
    have hall : printed program (k + 1 + extra) (m.withOutput (.buffer "")) =
        printed program (k + 1) (m.withOutput (.buffer "")) ++
          (run program (k + 1) (m.withOutput (.buffer ""))).printed program extra :=
      printedFrom_add program (k + 1) extra (m.withOutput (.buffer "")).start
    rw [hall, transcript_append, hlast,
      Output.bounded_append failure _ (Nat.le_of_lt hbeyond), run, resume_add]
    have hgoing : resume program k (m.withOutput (.bounded room failure "")).start =
        .running (r.withOutput (.bounded room failure
          (transcript (printed program k (m.withOutput (.buffer "")))))) := hside
    rw [hgoing, ← hop]
    exact resume_succ_of_error 0 hp hrefused

/-! ## The theorem -/

/-- Where lines go does not change what a run does. A run that ends with a buffer captures its
transcript. It ends in the same way and in the same state if its lines are dropped, shown or handed to
a writer, and what is shown or handed over is the transcript. A writer whose sink takes so many bytes
and no more changes nothing either if the transcript fits. If it does not, the run traps at the first
print that goes beyond the room: the sink holds as much of the transcript as it has room for, and the
rest is as the buffer's run has it just after that print. -/
theorem run_withOutput (program : Program) (m : Machine) (fuel : Nat) (p : Progress) (text : String)
    (hrun : run program fuel (m.withOutput (.buffer "")) = p) (hended : p.Ended)
    (htext : p.machine.output.captured = text) :
    text = transcript (printed program fuel (m.withOutput (.buffer ""))) ∧
    Ends program (m.withOutput .silent) (p.map (withOutput .silent)) ∧
    Ends program (m.withOutput (.stdout "")) (p.map (withOutput (.stdout text))) ∧
    (∀ failure, Ends program (m.withOutput (.writer { failure }))
      (p.map (withOutput (.writer { failure, received := Text.utf8 text })))) ∧
    ∀ (room : Nat) (failure : Option WriteError),
      ((Text.utf8 text).size ≤ room →
        Ends program (m.withOutput (.writer { room := some room, failure }))
          (p.map (withOutput (.writer
            { room := some (room - (Text.utf8 text).size), failure, received := Text.utf8 text })))) ∧
      (room < (Text.utf8 text).size →
        ∃ k r ins r', run program k (m.withOutput (.buffer "")) = .running r ∧
          program[r.pc]? = some ins ∧ ins.opcode = .print ∧ step program.size ins r = .ok () r' ∧
          (∀ j ≤ k, (Text.utf8
            (run program j (m.withOutput (.buffer ""))).machine.output.captured).size ≤ room) ∧
          room < (Text.utf8 r'.output.captured).size ∧
          Ends program (m.withOutput (.writer { room := some room, failure }))
            (.trapped
              { pc := r.pc, opcode := .print, fault := .outputFailed (failure.getD .writeZero) }
              (r'.withOutput (.writer
                { room := some 0, failure, received := (Text.utf8 text).take room })))) := by
  have hcaptured : text = transcript (printed program fuel (m.withOutput (.buffer ""))) := by
    rw [← htext, ← hrun, output_run_buffer]
    rfl
  have hends : ∀ view : String → Output,
      AcceptsAll view "" (printed program fuel (m.withOutput (.buffer ""))) →
      Ends program (m.withOutput (view "")) (p.map (withOutput (view text))) := by
    intro view haccepts
    refine ⟨hended.map, fuel, ?_⟩
    rw [run_withOutput_of_acceptsAll haccepts, hrun, ← hcaptured]
  refine ⟨hcaptured, ?_, ?_, ?_, ?_⟩
  · apply hends fun _ => .silent
    apply acceptsAll_of_accepts
    intro text line
    rfl
  · apply hends .stdout
    apply acceptsAll_of_accepts
    intro text line
    rfl
  · intro failure
    apply hends (.unbounded failure)
    apply acceptsAll_of_accepts
    exact Output.accepts_unbounded failure
  · intro room failure
    rw [← Output.bounded_empty]
    refine ⟨?_, ?_⟩
    · intro hfits
      have hview : Output.bounded room failure text = .writer
          { room := some (room - (Text.utf8 text).size), failure, received := Text.utf8 text } := by
        rw [Output.bounded, Array.take_eq_extract, Array.extract_eq_self_of_le hfits]
      rw [← hview]
      apply hends (.bounded room failure)
      apply acceptsAll_bounded
      rw [String.empty_append, ← hcaptured]
      exact hfits
    · intro hbeyond
      have hview : Output.bounded room failure text = .writer
          { room := some 0, failure, received := (Text.utf8 text).take room } := by
        rw [Output.bounded, Nat.sub_eq_zero_of_le (Nat.le_of_lt hbeyond)]
      rw [← hview]
      rw [hcaptured] at hbeyond ⊢
      obtain ⟨k, r, ins, r', hr, hp, hop, hs, hwithin, hafter, htrap⟩ :=
        run_bounded_trapped failure hbeyond
      exact ⟨k, r, ins, r', hr, hp, hop, hs, hwithin, hafter, trivial, k + 1, htrap⟩

/-- A sink with room for one byte keeps the first half of a character, and the run traps at the print. -/
theorem run_print_in_one_byte :
    ∃ s, Ends #[⟨.push, some (.text "é")⟩, ⟨.print, none⟩]
        ((new {} (.zeros 0) .silent).withOutput
          (.writer { room := some 1, failure := some .brokenPipe }))
        (.trapped { pc := 1, opcode := .print, fault := .outputFailed .brokenPipe } s) ∧
      s.output = .writer
        { room := some 0, failure := some .brokenPipe, received := #[0xC3] } := by
  have h := run_withOutput #[⟨.push, some (.text "é")⟩, ⟨.print, none⟩] (new {} (.zeros 0) .silent) 2
    _ "é\n" rfl trivial (by decide)
  obtain ⟨k, r, ins, r', -, hp, hop, -, -, -, hends⟩ := (h.2.2.2.2 1 (some .brokenPipe)).2 (by decide)
  have hpc : r.pc = 1 := by
    match hat : r.pc with
    | 0 =>
      rw [hat] at hp
      cases hp
      cases hop
    | 1 => rfl
    | i + 2 =>
      rw [hat] at hp
      cases hp
  have hreceived : (Text.utf8 "é\n").take 1 = #[0xC3] := by decide
  rw [hpc, hreceived] at hends
  exact ⟨_, hends, rfl⟩

end Machine

end StackMachine
