-- SUMMARY: A log changes nothing about a command but the lines that it adds, and which lines these are.
import Mathlib.Data.List.Forall2
import StackMachine.Command.Directory
import StackMachine.Proofs.Delivery
import StackMachine.Proofs.Filtering
import StackMachine.Proofs.Grammar

/-!
# Logs of commands

A command answers the same with a log as without one, but for the lines of the log, which come before all
else that it reports. This is so with any parser that does not look at the variable that asks for the log,
with any subscriber, whatever its lines look like, and on any host. Which lines there are follows from the
records of the command and from the rules that the subscriber keeps to.
-/

namespace StackMachine

/-! ## Records -/

/-- The record that tells of an event: the beginning and the end of a run are details, every instruction
is a trace, and a trap is a warning. -/
inductive Event.Tells : Event → Log.Record → Prop where
  | runStart (instructions stack : Nat) :
      Tells (.runStart instructions stack)
        { level := .debug, target := "svm_core::vm::interpreter", message := "run start"
          fields := [("instructions", instructions.repr), ("stack", stack.repr)] }
  | dispatch (pc : Nat) (ins : Instruction) (depth : Nat) :
      Tells (.dispatch pc ins depth)
        { level := .trace, target := "svm_core::vm::interpreter", message := "dispatch"
          fields := [("pc", pc.repr), ("instruction", ins.render), ("depth", depth.repr)] }
  | trap (t : Trap) :
      Tells (.trap t)
        { level := .warn, target := "svm_core::vm::interpreter", message := "trap"
          fields := [("pc", t.pc.repr), ("opcode", t.opcode.mnemonic), ("fault", t.fault.message)] }
  | runComplete (steps stack : Nat) :
      Tells (.runComplete steps stack)
        { level := .debug, target := "svm_core::vm::interpreter", message := "run complete"
          fields := [("steps", steps.repr), ("stack", stack.repr)] }

theorem Event.tells_record (e : Event) : Tells e e.record := by
  cases e with
  | runStart instructions stack => exact .runStart instructions stack
  | dispatch pc ins depth => exact .dispatch pc ins depth
  | trap t => exact .trap t
  | runComplete steps stack => exact .runComplete steps stack

namespace Command

/-- The records of running a file, whose contents, or the reason that there are none, are given. -/
def fileRecords (file : String) (memorySize : Nat) (config : Config) (fuel : Nat)
    (contents : Except FileError Bytecode.Bytes) : List Log.Record :=
  match readProgram file contents with
  | .error _ => []
  | .ok program => runRecords program memorySize config fuel

/-- The records of a command: only a run has any. -/
def records {σ : Type} (host : Host (StateM σ)) (files : σ) (fuel : Nat) : Parsed → List Log.Record
  | .command (.run file memorySize config _) =>
    fileRecords file memorySize config fuel ((host.read file).run files).1
  | .command (.generate _ _) | .command (.disassemble _) | .answer _ => []

theorem fileRecords_of_decode_ok {bytes : Bytecode.Bytes} {program : Program} {file : String}
    {memorySize : Nat} {config : Config} {fuel : Nat} (h : Bytecode.decode bytes = .ok program) :
    fileRecords file memorySize config fuel (.ok bytes) = runRecords program memorySize config fuel := by
  simp only [fileRecords, readProgram, h]

/-- Only a command that runs a program has records. -/
theorem exists_program_of_records_ne_nil {σ : Type} {host : Host (StateM σ)} {files : σ} {fuel : Nat}
    {parsed : Parsed} (h : records host files fuel parsed ≠ []) :
    ∃ file memorySize config dumpMemory bytes after program,
      parsed = .command (.run file memorySize config dumpMemory) ∧
      (host.read file).run files = (.ok bytes, after) ∧ Bytecode.decode bytes = .ok program := by
  cases parsed with
  | answer response => exact absurd rfl h
  | command command =>
    cases command with
    | generate path sample => exact absurd rfl h
    | disassemble file => exact absurd rfl h
    | run file memorySize config dumpMemory =>
      rcases hread : (host.read file).run files with ⟨contents, after⟩
      rw [records, hread] at h
      cases contents with
      | error e => exact absurd rfl h
      | ok bytes =>
        cases hdecode : Bytecode.decode bytes with
        | error e => simp [fileRecords, readProgram, hdecode] at h
        | ok program => exact ⟨_, _, _, _, _, _, _, rfl, hread, hdecode⟩

/-- What is logged of a run: that the program was loaded, then what its events are, and that it finished,
if it did. -/
inductive LogsRun (program : Program) (memorySize : Nat) (config : Config) (fuel : Nat) :
    List Log.Record → Prop where
  | finished {s : Machine} {events : List Log.Record}
      (hrun : Machine.run program fuel (.new config (.zeros memorySize) (.stdout "")) = .finished s)
      (hevents : List.Forall₂ Event.Tells
        (Machine.trace program fuel (.new config (.zeros memorySize) (.stdout ""))).toList events) :
      LogsRun program memorySize config fuel
        ({ level := .info, target := "svm", message := "loaded program"
           fields := [("instructions", program.size.repr), ("memory_size", memorySize.repr)] } ::
          events ++
          [{ level := .info, target := "svm", message := "program finished"
             fields := [("steps", s.steps.repr)] }])
  | unfinished {events : List Log.Record}
      (hrun : ∀ s, Machine.run program fuel (.new config (.zeros memorySize) (.stdout "")) ≠ .finished s)
      (hevents : List.Forall₂ Event.Tells
        (Machine.trace program fuel (.new config (.zeros memorySize) (.stdout ""))).toList events) :
      LogsRun program memorySize config fuel
        ({ level := .info, target := "svm", message := "loaded program"
           fields := [("instructions", program.size.repr), ("memory_size", memorySize.repr)] } :: events)

theorem logsRun_runRecords (program : Program) (memorySize : Nat) (config : Config) (fuel : Nat) :
    LogsRun program memorySize config fuel (runRecords program memorySize config fuel) := by
  have hevents (events : List Event) : List.Forall₂ Event.Tells events (events.map Event.record) := by
    rw [List.forall₂_map_right_iff]
    exact List.forall₂_same.2 fun e _ => e.tells_record
  unfold runRecords
  cases hrun : Machine.run program fuel (.new config (.zeros memorySize) (.stdout "")) with
  | finished s =>
    simp only [hrun]
    exact .finished hrun (hevents _)
  | trapped trap s | running s =>
    simp only [hrun, List.append_nil]
    exact .unfinished (by rw [hrun]; exact nofun) (hevents _)

/-! ## Replies with a log -/

/-- The second reply is the first after lines of a log. As long as a run goes on, its lines are not all
there. -/
inductive Reply.LoggedAs (lines : String) : Reply → Reply → Prop where
  | done (r : Response) : LoggedAs lines (.done r) (.done { r with stderr := lines ++ r.stderr })
  | running (job job' : Job) : LoggedAs lines (.running job) (.running job')

namespace Reply.LoggedAs

variable {lines : String} {reply : Reply}

theorem same (r : Response) : LoggedAs "" (.done r) (.done r) := by
  have h := @LoggedAs.done "" r
  rwa [String.empty_append] at h

theorem eq_done {r : Response} (h : LoggedAs lines (.done r) reply) :
    reply = .done { r with stderr := lines ++ r.stderr } := by
  cases h
  rfl

theorem exists_running {job : Job} (h : LoggedAs lines (.running job) reply) :
    ∃ job', reply = .running job' := by
  cases h
  exact ⟨_, rfl⟩

end Reply.LoggedAs

theorem loggedAs_runFile (log : Log) (file : String) (memorySize : Nat) (config : Config)
    (dumpMemory : Bool) (contents : Except FileError Bytecode.Bytes) (fuel : Nat) :
    Reply.LoggedAs (log.lines 0 (fileRecords file memorySize config fuel contents))
      ((runFile none file memorySize config dumpMemory contents).carryOn fuel)
      ((runFile (some log) file memorySize config dumpMemory contents).carryOn fuel) := by
  unfold runFile fileRecords
  cases readProgram file contents with
  | error f => exact .same _
  | ok program =>
    simp only [Reply.carryOn, Job.advance_start]
    cases Machine.run program fuel (.new config (.zeros memorySize) (.stdout "")) with
    | finished s | trapped trap s =>
      simp only [logLines, String.empty_append]
      exact .done _
    | running s => exact .running _ _

/-- What a command does with files and what it answers do not depend on the log. -/
theorem loggedAs_task {σ : Type} (host : Host (StateM σ)) (files : σ) (log : Log) (command : Command)
    (fuel : Nat) :
    (((command.task (some log)).perform host).run files).2 =
        (((command.task none).perform host).run files).2 ∧
      Reply.LoggedAs (log.lines 0 (records host files fuel (.command command)))
        ((((command.task none).perform host).run files).1.carryOn fuel)
        ((((command.task (some log)).perform host).run files).1.carryOn fuel) := by
  cases command with
  | run file memorySize config dumpMemory => exact ⟨rfl, loggedAs_runFile log _ _ _ _ _ _⟩
  | disassemble file => exact ⟨rfl, .same _⟩
  | generate path sample =>
    refine ⟨rfl, ?_⟩
    simp only [task]
    split <;> exact .same _

/-! ## Environments with a log -/

/-- Two environments that differ at most in what log they ask for. -/
def AgreeButLog (env base : Environment) : Prop :=
  ∀ name, name ≠ logVariable → env.lookup name = base.lookup name

/-- The parser does not look at the variable that asks for a log. -/
def Parser.IgnoresLog (parser : Parser) : Prop :=
  ∀ env base words, AgreeButLog env base → parser env words = parser base words

theorem limit?_congr {env base : Environment} {fallback : String}
    (h : env.lookup fallback = base.lookup fallback) (a : Arguments) (option : String) :
    limit? env a option fallback = limit? base a option fallback := by
  unfold limit?
  rw [h]

theorem parser_ignoresLog : Parser.IgnoresLog parser := by
  intro env base words h
  have hrun (words : List String) : parseRun? env words = parseRun? base words := by
    simp only [parseRun?, limit?_congr (h memorySizeVariable (by decide)),
      limit?_congr (h maxStackVariable (by decide)), limit?_congr (h stepLimitVariable (by decide))]
  have hparse : parse? env words = parse? base words := by
    unfold parse?
    split
    · exact hrun _
    · rfl
    · rfl
    · rfl
  unfold parser
  rw [hparse]

section Setting

variable {σ : Type} {setting : Setting (StateM σ)} {env base : Environment}

theorem Task.after_empty (task : Task) : task.after "" = task := by
  cases task <;> simp only [after, Reply.after_empty]

/-- Without notices a command line begins with what it asks for. -/
theorem run_start_of_notices_eq (h : logNotices setting.subscriber env = "") (words : List String)
    (files : σ) :
    (setting.start env words).run files =
      ((setting.taskOf env (setting.parser env words)).perform setting.host).run files := by
  rw [Setting.run_start, h, Task.after_empty]

theorem run_start_of_unset (h : base.lookup logVariable = none) (words : List String) (files : σ) :
    (setting.start base words).run files =
      ((Setting.taskOf setting base (setting.parser base words)).perform setting.host).run files :=
  run_start_of_notices_eq (by simp [logNotices, h]) words files

/-- With a log a command answers as without one, after the lines of the log, and does the same with
files. -/
theorem run_respond_logged {text : String} (hparser : setting.parser.IgnoresLog)
    (hbase : base.lookup logVariable = none) (hagree : AgreeButLog env base)
    (htext : env.lookup logVariable = some text) (hquiet : setting.subscriber.notices text = "")
    (fuel : Nat) (words : List String) (files : σ) :
    ((setting.respond fuel env words).run files).2 = ((setting.respond fuel base words).run files).2 ∧
      Reply.LoggedAs
        ((setting.subscriber.log text).lines 0
          (records setting.host files fuel (setting.parser base words)))
        ((setting.respond fuel base words).run files).1
        ((setting.respond fuel env words).run files).1 := by
  have hnotices : logNotices setting.subscriber env = "" := by simp [logNotices, htext, hquiet]
  rw [Setting.run_respond, Setting.run_respond, run_start_of_notices_eq hnotices,
    run_start_of_unset hbase, hparser env base words hagree]
  cases setting.parser base words with
  | answer response => exact ⟨rfl, .same _⟩
  | command command =>
    simp only [Setting.taskOf, openLog, htext, hbase, Option.map_some, Option.map_none]
    exact loggedAs_task setting.host files _ command fuel

end Setting

end Command

/-! ## Lines that are shown -/

namespace Log

variable {s : Subscriber} {text text' : String} {filter filter' : Filter}

theorem shown_trace (hrules : s.KeepsRules) (records : List Record) :
    (s.log "trace").shown 0 records = records.zipIdx := by
  refine List.filter_eq_self.2 fun numbered _ => ?_
  exact (hrules.shows_iff Filter.spells_everything _ _).2 (Filter.enables_everything _ _)

/-- The records that a log shows are those that its rules enable. -/
theorem shown_eq_filter (hrules : s.KeepsRules) (hspells : Filter.Spells text filter)
    {enabled : Record × Nat → Bool}
    (henabled : ∀ numbered, enabled numbered = true ↔
      filter.Enables numbered.1.level numbered.1.target) (records : List Record) :
    (s.log text).shown 0 records = ((s.log "trace").shown 0 records).filter enabled := by
  rw [shown_trace hrules]
  refine List.filter_congr fun numbered _ => ?_
  rw [Bool.eq_iff_iff, henabled]
  exact hrules.shows_iff hspells _ _

/-- A log that is more verbose about every target shows all that another shows, and more. -/
theorem shown_sublist (hrules : s.KeepsRules) (hspells : Filter.Spells text filter)
    (hspells' : Filter.Spells text' filter')
    (hle : ∀ target, filter.verbosity target ≤ filter'.verbosity target) (records : List Record) :
    ((s.log text).shown 0 records).Sublist ((s.log text').shown 0 records) := by
  refine List.monotone_filter_right _ fun numbered hshown => ?_
  have henables := (hrules.shows_iff hspells _ _).1 hshown
  exact (hrules.shows_iff hspells' _ _).2 (henables.mono (hle _))

end Log

namespace Command

/-! ## The theorem -/

/-- A log changes nothing but what is reported. Two environments may differ in the log that they ask for,
where the parser does not look. Then a command leaves the same files, and answers with the same exit code
and the same output, on any host. What it reports is the same after the lines of the log, if the
subscriber adds nothing to them. These are the lines of the records of the command that the log shows. A
run has the records that its events tell, and no other command has any. All of them are shown if all are
asked for, and by other rules those of them that the rules enable, in order. So a more verbose filter only
adds lines. -/
theorem log_only_adds_lines {σ : Type} (setting : Setting (StateM σ)) (base : Environment) (files : σ)
    (words : List String) (hbase : base.lookup logVariable = none)
    (hparser : setting.parser.IgnoresLog) (hrules : setting.subscriber.KeepsRules) :
    (∀ fuel env, AgreeButLog env base → env.lookup logVariable = none →
      (setting.respond fuel env words).run files = (setting.respond fuel base words).run files) ∧
    (∀ fuel env text, AgreeButLog env base → env.lookup logVariable = some text →
      setting.subscriber.notices text = "" →
        ((setting.respond fuel env words).run files).2 =
          ((setting.respond fuel base words).run files).2 ∧
        (∀ r, ((setting.respond fuel base words).run files).1 = .done r →
          ((setting.respond fuel env words).run files).1 =
            .done { r with
              stderr := String.join (((setting.subscriber.log text).shown 0
                (records setting.host files fuel (setting.parser base words))).map fun numbered =>
                  setting.subscriber.line numbered.2 numbered.1) ++ r.stderr }) ∧
        ∀ job, ((setting.respond fuel base words).run files).1 = .running job →
          ∃ job', ((setting.respond fuel env words).run files).1 = .running job') ∧
    (∀ env r, Delivers ((setting.start env words).run files).1 r ↔
      ∃ fuel, ((setting.respond fuel env words).run files).1 = .done r) ∧
    (∀ fuel file memorySize config dumpMemory bytes after program,
      setting.parser base words = .command (.run file memorySize config dumpMemory) →
      (setting.host.read file).run files = (.ok bytes, after) → Bytecode.decode bytes = .ok program →
        LogsRun program memorySize config fuel
          (records setting.host files fuel (setting.parser base words))) ∧
    (∀ fuel, records setting.host files fuel (setting.parser base words) ≠ [] →
      ∃ file memorySize config dumpMemory bytes after program,
        setting.parser base words = .command (.run file memorySize config dumpMemory) ∧
        (setting.host.read file).run files = (.ok bytes, after) ∧
        Bytecode.decode bytes = .ok program) ∧
    ∀ text filter, Log.Filter.Spells text filter →
      setting.subscriber.notices text = "" ∧
      ∀ records : List Log.Record,
        (setting.subscriber.log "trace").shown 0 records = records.zipIdx ∧
        (∀ enabled : Log.Record × Nat → Bool,
          (∀ numbered, enabled numbered = true ↔
            filter.Enables numbered.1.level numbered.1.target) →
          (setting.subscriber.log text).shown 0 records =
            ((setting.subscriber.log "trace").shown 0 records).filter enabled) ∧
        ∀ text' filter', Log.Filter.Spells text' filter' →
          (∀ target, filter.verbosity target ≤ filter'.verbosity target) →
            ((setting.subscriber.log text).shown 0 records).Sublist
              ((setting.subscriber.log text').shown 0 records) := by
  refine ⟨?_, ?_, fun env => delivers_start_iff files setting env words, ?_, ?_, ?_⟩
  · intro fuel env hagree hunset
    rw [Setting.run_respond, Setting.run_respond, run_start_of_unset hunset, run_start_of_unset hbase,
      hparser env base words hagree]
    cases setting.parser base words <;> simp only [Setting.taskOf, openLog, hunset, hbase]
  · intro fuel env text hagree htext hquiet
    obtain ⟨hfiles, hlogged⟩ := run_respond_logged hparser hbase hagree htext hquiet fuel words files
    refine ⟨hfiles, fun r hr => ?_, fun job hjob => ?_⟩
    · rw [hr] at hlogged
      exact hlogged.eq_done
    · rw [hjob] at hlogged
      exact hlogged.exists_running
  · intro fuel file memorySize config dumpMemory bytes after program hparse hread hdecode
    rw [hparse, records, hread, fileRecords_of_decode_ok hdecode]
    exact logsRun_runRecords program memorySize config fuel
  · exact fun fuel => exists_program_of_records_ne_nil
  · intro text filter hspells
    refine ⟨hrules.notices_eq hspells, fun records => ⟨Log.shown_trace hrules records, ?_, ?_⟩⟩
    · exact fun enabled henabled => Log.shown_eq_filter hrules hspells henabled records
    · exact fun text' filter' hspells' hle => Log.shown_sublist hrules hspells hspells' hle records

/-- A file without instructions, run with a log that shows what the command itself has to tell, with the
time before each line. -/
theorem run_empty_file_logged :
    (((Directory.setting fun n => "2026-01-31T08:00:00.00000" ++ n.repr ++ "Z ").respond 0
      [("NO_COLOR", "1"), ("RUST_LOG", "svm=info")] ["run", "p"]).run
      { files := [("p", [0x53, 0x56, 0x4D, 0x42, 1, 0, 0, 0, 0, 0, 0, 0])] }).1 =
      .done
        { exit := exitOk
          stderr :=
            "2026-01-31T08:00:00.000000Z  INFO svm: loaded program instructions=0 memory_size=256\n" ++
            "2026-01-31T08:00:00.000003Z  INFO svm: program finished steps=0\n" } := by
  have hname : Log.Directive.Names "info" 3 := .of_mem (by simp [Log.Directive.verbosityNames])
  have hrule : Log.Directive.Spells "svm=info" { target := some "svm", verbosity := 3 } :=
    @Log.Directive.Spells.pair "svm" "info" 3 (by decide) hname
  have hquiet := (Log.Filter.Spells.rule hrule).notices_eq
  have hagree : AgreeButLog [("NO_COLOR", "1"), ("RUST_LOG", "svm=info")] [("NO_COLOR", "1")] := by
    intro name hne
    have hother : (name == "RUST_LOG") = false := beq_eq_false_iff_ne.2 hne
    simp only [List.lookup_cons, List.lookup_nil, hother]
  have hread (bytes : Bytecode.Bytes) : (Directory.host.read "p").run { files := [("p", bytes)] } =
      (.ok bytes, { files := [("p", bytes)] }) := rfl
  have hdecode : Bytecode.decode [0x53, 0x56, 0x4D, 0x42, 1, 0, 0, 0, 0, 0, 0, 0] = .ok #[] :=
    Bytecode.decode_eq_ok_iff_isFile.2 ⟨0, 0, 0, [0, 0, 0, 0], [], ⟨rfl, rfl⟩, .nil, rfl⟩
  have hparse : parser [("NO_COLOR", "1")] ["run", "p"] = .command (.run "p" 256 {} false) :=
    parser_of_parse? (by decide)
  generalize hstamp : (fun n : Nat => "2026-01-31T08:00:00.00000" ++ n.repr ++ "Z ") = stamp
  have hplain : (((Directory.setting stamp).respond 0 [("NO_COLOR", "1")] ["run", "p"]).run
      { files := [("p", [0x53, 0x56, 0x4D, 0x42, 1, 0, 0, 0, 0, 0, 0, 0])] }).1 =
      .done { exit := exitOk } := by
    rw [Setting.run_respond, run_start_of_unset (by decide), Directory.parser_setting, hparse,
      Setting.taskOf, task, Task.run_perform_read]
    simp only [Directory.host_setting, hread, runFile, readProgram, hdecode, Reply.carryOn,
      Job.advance_start]
    rfl
  have hlog := ((log_only_adds_lines (Directory.setting stamp) _ _ _ (by decide) parser_ignoresLog
    (Log.Filter.keepsRules_subscriber stamp)).2.1 0 _ _ hagree rfl hquiet).2.1 _ hplain
  have hrecords : runRecords #[] 256 {} 0 =
      [loadedRecord #[] 256, (Event.runStart 0 0).record, (Event.runComplete 0 0).record,
        finishedRecord (.new {} (.zeros 256) (.stdout ""))] := rfl
  have hshows : ((Directory.setting stamp).subscriber.log "svm=info").shows =
      Log.Filter.shows [{ target := some "svm", verbosity := 3 }] :=
    congrArg Log.Filter.shows (Log.Filter.Spells.rule hrule).parse_eq
  have hshown : ((Directory.setting stamp).subscriber.log "svm=info").shown 0 (runRecords #[] 256 {} 0) =
      [(loadedRecord #[] 256, 0), (finishedRecord (.new {} (.zeros 256) (.stdout "")), 3)] := by
    rw [hrecords, Log.shown, hshows]
    rfl
  have hloaded : (loadedRecord #[] 256).line =
      " INFO svm: loaded program instructions=0 memory_size=256\n" := by decide +kernel
  have hdone : (finishedRecord (.new {} (.zeros 256) (.stdout ""))).line =
      " INFO svm: program finished steps=0\n" := by decide +kernel
  rw [hlog, Directory.parser_setting, hparse, records, Directory.host_setting, hread,
    fileRecords_of_decode_ok hdecode, hshown]
  simp only [List.map_cons, List.map_nil, Directory.setting, Log.Filter.subscriber, hloaded, hdone, ← hstamp]
  rfl

end Command

end StackMachine
