-- SUMMARY: Jobs carried on in parts show what they show when carried on at once.
import StackMachine.Command.Response
import StackMachine.Proofs.Printing
import StackMachine.Proofs.Tracing

/-!
# Jobs carried on in parts

A job is carried on by so many steps at a time, and what it has printed and logged so far is shown in
between. However the steps are divided, the same is shown in the end.
-/

namespace StackMachine

namespace Machine

variable {program : Program} {m n : Machine}

/-! ## Events of parts of a run -/

/-- The events of at most `more` steps from where a run is, if it is not over. -/
def Progress.events (program : Program) (more : Nat) : Progress → Array Event
  | running m => traceFrom program more #[] m
  | finished _ | trapped _ _ => #[]

theorem traceFrom_add (program : Program) (fuel more : Nat) (log : Array Event) (m : Machine) :
    traceFrom program (fuel + more) log m =
      traceFrom program fuel log m ++ (resume program fuel m).events program more := by
  fun_induction resume program fuel m generalizing log with
  | case1 fuel m hp =>
    rw [traceFrom_of_end _ log hp, traceFrom_of_end _ log hp, Progress.events, Array.append_empty]
  | case2 m ins hp => rw [Nat.zero_add, traceFrom_zero log hp, Progress.events, traceFrom_eq_append]
  | case3 m ins hp fuel pc m' hs ih =>
    rw [Nat.succ_add, traceFrom_succ_of_ok _ log hp hs, traceFrom_succ_of_ok _ log hp hs, ih]
  | case4 m ins hp fuel pc fault m' hs =>
    rw [Nat.succ_add, traceFrom_succ_of_error _ log hp hs, traceFrom_succ_of_error _ log hp hs,
      Progress.events, Array.append_empty]

/-- The events tell nothing of where lines go. -/
theorem Mirrors.traceFrom {view : String → Output} {text : String} {fuel : Nat}
    (h : Mirrors view text m n) (haccepts : AcceptsAll view text (printedFrom program fuel m))
    (log : Array Event) : traceFrom program fuel log n = traceFrom program fuel log m := by
  -- By induction on the run of `m`, which `n` follows step by step.
  fun_induction Machine.resume program fuel m generalizing n text log with
  | case1 fuel m hp =>
    obtain ⟨-, rfl⟩ := h
    rw [traceFrom_of_end fuel log hp]
    exact traceFrom_of_end fuel log hp
  | case2 m ins hp =>
    obtain ⟨-, rfl⟩ := h
    rw [traceFrom_zero log hp]
    exact traceFrom_zero log hp
  | case3 m ins hp fuel pc m' hs ih =>
    rw [printedFrom_succ_of_ok fuel hp hs] at haccepts
    obtain ⟨hfirst, hrest⟩ := acceptsAll_append.1 haccepts
    obtain ⟨n', hs', h'⟩ := h.step_ok hfirst hs
    obtain ⟨-, rfl⟩ := h
    have hp' : program[(m.withOutput (view text)).pc]? = some ins := hp
    rw [traceFrom_succ_of_ok fuel log hp hs, traceFrom_succ_of_ok fuel log hp' hs']
    exact ih h' hrest _
  | case4 m ins hp fuel pc fault m' =>
    rename_i hs
    obtain ⟨n', hs', -, rfl⟩ := h.step_error hs
    obtain ⟨-, rfl⟩ := h
    have hp' : program[(m.withOutput (view text)).pc]? = some ins := hp
    rw [traceFrom_succ_of_error fuel log hp hs, traceFrom_succ_of_error fuel log hp' hs']
    rfl

/-! ## The standard output -/

theorem acceptsAll_stdout (text : String) (values : List Value) :
    AcceptsAll (fun more => .stdout (text ++ more)) "" values := by
  apply acceptsAll_of_accepts
  intro more line
  simp only [Output.Accepts, Output.println, String.append_assoc]

theorem mirrors_stdout (text : String) (m : Machine) :
    Mirrors (fun more => .stdout (text ++ more)) "" (m.withOutput (.buffer ""))
      (m.withOutput (.stdout text)) := by
  refine ⟨rfl, ?_⟩
  simp only [String.append_empty]
  rfl

/-- With the standard output a run goes as it does with a buffer, and shows what the buffer captures
after what was shown before. -/
theorem resume_stdout (program : Program) (fuel : Nat) (text : String) (m : Machine) :
    resume program fuel (m.withOutput (.stdout text)) =
      (resume program fuel (m.withOutput (.buffer ""))).map
        fun s => s.withOutput (.stdout (text ++ s.output.captured)) := by
  obtain ⟨htext, hresume⟩ := (mirrors_stdout text m).resume (acceptsAll_stdout text
    (printedFrom program fuel (m.withOutput (.buffer ""))))
  rw [hresume, String.empty_append]
  rw [String.empty_append] at htext
  cases hrun : resume program fuel (m.withOutput (.buffer "")) with
  | finished s | trapped trap s | running s =>
    rw [hrun] at htext
    have hcaptured : s.output = .buffer _ := htext
    simp only [Progress.map, hcaptured, Output.captured]

theorem traceFrom_stdout (program : Program) (fuel : Nat) (log : Array Event) (text : String)
    (m : Machine) :
    traceFrom program fuel log (m.withOutput (.stdout text)) =
      traceFrom program fuel log (m.withOutput (.buffer "")) :=
  (mirrors_stdout text m).traceFrom (acceptsAll_stdout text _) log

end Machine

namespace Command

open Machine (Progress)

/-! ## Replies -/

/-- A reply with text before what it shows on its outputs. -/
def Reply.before (shown logged : String) : Reply → Reply
  | done r => done { r with stdout := shown ++ r.stdout, stderr := logged ++ r.stderr }
  | running job =>
    running
      { job with
        machine := job.machine.withOutput (.stdout (shown ++ job.machine.output.shown))
        lines := logged ++ job.lines }

theorem logLines_append (log : Option Log) (earlier : Nat) (records more : List Log.Record) :
    logLines log earlier (records ++ more) =
      logLines log earlier records ++ logLines log (earlier + records.length) more := by
  cases log with
  | none => rfl
  | some log => simp [logLines, Log.lines, Log.shown, List.zipIdx_append]

/-- The records of at most `fuel` steps of a run, in order. -/
def runRecords (program : Program) (memorySize : Nat) (config : Config) (fuel : Nat) :
    List Log.Record :=
  let machine := Machine.new config (.zeros memorySize) (.stdout "")
  loadedRecord program memorySize :: (machine.trace program fuel).toList.map Event.record ++
    match machine.run program fuel with
    | .finished s => [finishedRecord s]
    | .trapped _ _ | .running _ => []

namespace Job

/-- The records of at most `fuel` further steps, whether there is a log or not. -/
def stepRecords (job : Job) (fuel : Nat) : List Log.Record :=
  (job.machine.traceFrom job.program fuel #[]).toList.map Event.record

/-- Without a log the records do not matter, and with one they are those of the steps. -/
theorem logLines_furtherRecords (job : Job) (fuel earlier : Nat) :
    logLines job.log earlier (job.furtherRecords fuel) =
      logLines job.log earlier (job.stepRecords fuel) := by
  unfold furtherRecords
  cases job.log with
  | none => rfl
  | some log => rfl

theorem logLines_stepRecords_append (job : Job) (fuel earlier : Nat) (more : List Log.Record) :
    logLines job.log earlier (job.stepRecords fuel ++ more) =
      logLines job.log earlier (job.stepRecords fuel) ++
        logLines job.log (earlier + (job.furtherRecords fuel).length) more := by
  rw [logLines_append]
  unfold furtherRecords
  cases job.log with
  | none => rfl
  | some log => rfl

/-- The job after at most `fuel` further steps, which led to the given machine. -/
def moved (job : Job) (fuel : Nat) (machine : Machine) : Job :=
  { job with
    machine
    records := job.records + (job.furtherRecords fuel).length
    lines := job.lines ++ logLines job.log job.records (job.stepRecords fuel) }

theorem advance_eq (job : Job) (fuel : Nat) :
    job.advance fuel =
      match job.machine.resume job.program fuel with
      | .finished s =>
        .done
          { exit := exitOk
            stdout := s.output.shown
            stderr := job.lines ++
              logLines job.log job.records (job.stepRecords fuel ++ [finishedRecord s]) ++
              (if job.dumpMemory then dumpLines s.memory else "") }
      | .trapped trap s =>
        .done
          { exit := exitFailed
            stdout := s.output.shown
            stderr := job.lines ++ logLines job.log job.records (job.stepRecords fuel) ++
              (Failure.trapped trap).line }
      | .running s => .running (job.moved fuel s) := by
  unfold advance
  cases job.machine.resume job.program fuel with
  | finished s =>
    simp only [logLines_furtherRecords, logLines_stepRecords_append, String.append_assoc]
  | trapped trap s | running s => simp only [logLines_furtherRecords, moved]

/-- A new job answers as its run ends, and logs the records of the run before all else. -/
theorem advance_start (program : Program) (memorySize : Nat) (config : Config) (dumpMemory : Bool)
    (log : Option Log) (fuel : Nat) :
    (start program memorySize config dumpMemory log).advance fuel =
      match Machine.run program fuel (.new config (.zeros memorySize) (.stdout "")) with
      | .finished s =>
        .done
          { exit := exitOk
            stdout := s.output.shown
            stderr := logLines log 0 (runRecords program memorySize config fuel) ++
              (if dumpMemory then dumpLines s.memory else "") }
      | .trapped trap s =>
        .done
          { exit := exitFailed
            stdout := s.output.shown
            stderr := logLines log 0 (runRecords program memorySize config fuel) ++
              (Failure.trapped trap).line }
      | .running s =>
        .running
          { program, machine := s, dumpMemory, log
            records := 2 + ((start program memorySize config dumpMemory log).furtherRecords fuel).length
            lines := logLines log 0 (runRecords program memorySize config fuel) } := by
  have hlog (more : List Log.Record) :
      (start program memorySize config dumpMemory log).lines ++
          logLines log 2 ((start program memorySize config dumpMemory log).stepRecords fuel ++ more) =
        logLines log 0 (loadedRecord program memorySize ::
          (Machine.trace program fuel (.new config (.zeros memorySize) (.stdout ""))).toList.map
            Event.record ++ more) := by
    rw [Machine.toList_trace, List.map_cons]
    exact (logLines_append log 0 [_, _] _).symm
  have hlog' := hlog []
  have hrun : Machine.resume (start program memorySize config dumpMemory log).program fuel
      (start program memorySize config dumpMemory log).machine =
    Machine.run program fuel (.new config (.zeros memorySize) (.stdout "")) := rfl
  rw [List.append_nil] at hlog'
  rw [advance_eq, hrun]
  cases hr : Machine.run program fuel (.new config (.zeros memorySize) (.stdout "")) with
  | finished s =>
    simp only [runRecords, hr]
    rw [← hlog]
    rfl
  | trapped trap s | running s =>
    simp only [runRecords, hr]
    rw [← hlog']
    rfl

theorem stepRecords_add (job : Job) (fuel more : Nat) :
    job.stepRecords (fuel + more) = job.stepRecords fuel ++
      ((job.machine.resume job.program fuel).events job.program more).toList.map Event.record := by
  unfold stepRecords
  rw [Machine.traceFrom_add, Array.toList_append, List.map_append]

section Moved

variable {job : Job} {fuel : Nat} {s : Machine}

theorem stepRecords_add_of_running (more : Nat)
    (h : job.machine.resume job.program fuel = .running s) :
    job.stepRecords (fuel + more) = job.stepRecords fuel ++ (job.moved fuel s).stepRecords more := by
  rw [stepRecords_add, h]
  rfl

theorem furtherRecords_add (more : Nat) (h : job.machine.resume job.program fuel = .running s) :
    job.furtherRecords (fuel + more) =
      job.furtherRecords fuel ++ (job.moved fuel s).furtherRecords more := by
  have hsteps := stepRecords_add_of_running more h
  unfold furtherRecords moved
  cases job.log with
  | none => rfl
  | some log => exact hsteps

/-- The lines of further records go on where those of the first steps end. -/
theorem logLines_moved (job : Job) (fuel : Nat) (s : Machine) (later : List Log.Record) :
    job.lines ++ logLines job.log job.records (job.stepRecords fuel ++ later) =
      (job.moved fuel s).lines ++ logLines (job.moved fuel s).log (job.moved fuel s).records later := by
  rw [logLines_stepRecords_append, ← String.append_assoc]
  rfl

theorem moved_add (more : Nat) (s' : Machine) (h : job.machine.resume job.program fuel = .running s) :
    job.moved (fuel + more) s' = (job.moved fuel s).moved more s' := by
  rw [moved, furtherRecords_add more h, List.length_append, ← Nat.add_assoc,
    stepRecords_add_of_running more h, logLines_moved job fuel s]
  rfl

end Moved

/-- Taking some steps and then some more is taking them all. -/
theorem advance_add (job : Job) (fuel more : Nat) :
    job.advance (fuel + more) = (job.advance fuel).carryOn more := by
  have hsteps := job.stepRecords_add fuel more
  rw [advance_eq, advance_eq, Machine.resume_add, hsteps]
  cases hr : job.machine.resume job.program fuel with
  | finished s | trapped trap s =>
    simp only [Progress.resume, Progress.events, Reply.carryOn, List.map_nil, List.append_nil]
  | running s =>
    simp only [Progress.resume, Progress.events, Reply.carryOn, List.append_assoc, moved_add more _ hr,
      logLines_moved job fuel s]
    rw [advance_eq]
    rfl

/-- What a job has printed and logged comes before all that it prints and logs later, and changes nothing
else. -/
theorem advance_stdout (program : Program) (m : Machine) (dumpMemory : Bool) (log : Option Log)
    (records : Nat) (text lines : String) (fuel : Nat) :
    advance ⟨program, m.withOutput (.stdout text), dumpMemory, log, records, lines⟩ fuel =
      (advance ⟨program, m.withOutput (.stdout ""), dumpMemory, log, records, ""⟩ fuel).before
        text lines := by
  simp only [advance, furtherRecords, Machine.traceFrom_stdout, Machine.resume_stdout]
  cases Machine.resume program fuel (m.withOutput (.buffer "")) with
  | finished s | trapped trap s | running s =>
    simp only [Progress.map, Reply.before, Machine.withOutput, finishedRecord, Output.shown,
      String.empty_append, String.append_assoc]

theorem advance_eq_before {job : Job} {text : String} (h : job.machine.output = .stdout text)
    (fuel : Nat) :
    job.advance fuel = (job.drain.2.2.advance fuel).before job.drain.1 job.drain.2.1 := by
  obtain ⟨program, ⟨config, stack, memory, _, pc, steps⟩, dumpMemory, log, records, lines⟩ := job
  cases h
  exact advance_stdout program ⟨config, stack, memory, .silent, pc, steps⟩ dumpMemory log records text
    lines fuel

theorem exists_stdout_of_advance {job next : Job} {text : String} {fuel : Nat}
    (h : job.machine.output = .stdout text) (hnext : job.advance fuel = .running next) :
    ∃ text', next.machine.output = .stdout text' := by
  rw [advance_eq_before h] at hnext
  cases hdrained : job.drain.2.2.advance fuel with
  | done r =>
    rw [hdrained] at hnext
    cases hnext
  | running job' =>
    rw [hdrained] at hnext
    cases hnext
    exact ⟨_, rfl⟩

end Job

/-! ## Delivery -/

/-- All that a reply shows in the end: a job is carried on by some steps at a time, and what it has
printed and logged so far is shown before each time. -/
inductive Delivers : Reply → Response → Prop where
  | done (r : Response) : Delivers (.done r) r
  | carryOn {job : Job} {r : Response} (fuel : Nat) (h : Delivers (job.drain.2.2.advance fuel) r) :
      Delivers (.running job)
        { r with stdout := job.drain.1 ++ r.stdout, stderr := job.drain.2.1 ++ r.stderr }

/-- The job in a reply, if there is one, prints to the standard output. -/
def Reply.Prints : Reply → Prop
  | done _ => True
  | running job => ∃ text, job.machine.output = .stdout text

theorem exists_carryOn_of_delivers {reply : Reply} {r : Response} (hprints : reply.Prints)
    (h : Delivers reply r) : ∃ fuel, reply.carryOn fuel = .done r := by
  induction h with
  | done r => exact ⟨0, rfl⟩
  | @carryOn job r fuel _ ih =>
    obtain ⟨text, htext⟩ := hprints
    have hdrained : job.drain.2.2.machine.output = .stdout "" := rfl
    have hnext : (job.drain.2.2.advance fuel).Prints := by
      cases hadvance : job.drain.2.2.advance fuel with
      | done r => exact trivial
      | running next => exact Job.exists_stdout_of_advance hdrained hadvance
    obtain ⟨more, hmore⟩ := ih hnext
    -- What was shown in between stands before the rest, as it does when the job keeps it.
    refine ⟨fuel + more, ?_⟩
    rw [Reply.carryOn, Job.advance_eq_before htext, Job.advance_add, hmore]
    rfl

/-- However its steps are divided, a job shows what it answers to all of them at once. -/
theorem delivers_iff {reply : Reply} {r : Response} (hprints : reply.Prints) :
    Delivers reply r ↔ ∃ fuel, reply.carryOn fuel = .done r := by
  refine ⟨exists_carryOn_of_delivers hprints, ?_⟩
  rintro ⟨fuel, h⟩
  cases reply with
  | done r' =>
    cases h
    exact .done r
  | running job =>
    obtain ⟨text, htext⟩ := hprints
    rw [Reply.carryOn, Job.advance_eq_before htext] at h
    cases hdrained : job.drain.2.2.advance fuel with
    | done r' =>
      rw [hdrained] at h
      cases h
      exact .carryOn fuel (hdrained ▸ .done r')
    | running next =>
      rw [hdrained] at h
      cases h

/-! ## Tasks -/

theorem Reply.after_empty (reply : Reply) : reply.after "" = reply := by
  cases reply <;> simp only [after, String.empty_append]

theorem Reply.prints_after {reply : Reply} (text : String) (h : reply.Prints) :
    (reply.after text).Prints := by
  cases reply <;> exact h

/-- Every reply of a task prints to the standard output, whatever the files are. -/
def Task.Prints : Task → Prop
  | reply r => r.Prints
  | read _ next => ∀ contents, (next contents).Prints
  | write _ _ next => ∀ result, (next result).Prints

theorem Task.Prints.perform {σ : Type} {task : Task} (h : task.Prints) (text : String)
    (host : Host (StateM σ)) (files : σ) :
    (((task.after text).perform host).run files).1.Prints := by
  cases task with
  | reply r => exact Reply.prints_after text h
  | read path next => exact Reply.prints_after text (h _)
  | write path bytes next => exact Reply.prints_after text (h _)

theorem prints_task (log : Option Log) (command : Command) : (command.task log).Prints := by
  cases command with
  | run file memorySize config dumpMemory =>
    intro contents
    simp only [runFile]
    cases readProgram file contents with
    | error f => exact trivial
    | ok program => exact ⟨"", rfl⟩
  | disassemble file => exact fun contents => trivial
  | generate path sample =>
    simp only [task]
    split
    · exact trivial
    · exact fun result => trivial

section Host

variable {σ : Type} (files : σ) (setting : Setting (StateM σ)) (env : Environment)
  (words : List String)

theorem prints_start : ((setting.start env words).run files).1.Prints := by
  unfold Setting.start
  refine Task.Prints.perform ?_ _ _ _
  cases setting.parser env words with
  | answer response => exact trivial
  | command command => exact prints_task _ command

/-- What is shown of a command line in parts is what it answers. -/
theorem delivers_start_iff (r : Response) :
    Delivers ((setting.start env words).run files).1 r ↔
      ∃ fuel, ((setting.respond fuel env words).run files).1 = .done r := by
  simp only [Setting.run_respond]
  exact delivers_iff (prints_start files setting env words)

end Host

end Command

end StackMachine
