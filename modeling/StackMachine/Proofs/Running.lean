-- SUMMARY: Running a file answers as the machine runs the program in it, with limits from words or environment.
import Mathlib.Data.List.TakeWhile
import StackMachine.Proofs.Cause
import StackMachine.Proofs.Delivery
import StackMachine.Proofs.Disassembly
import StackMachine.Proofs.Writes

/-!
# Running a file

The command that runs the program in a file answers as the machine runs the program. It shows what a
buffer captures, fails as the run fails, and may show the memory in the end, which the lines shown and
its size determine. The limits of the run are those that the command line gives, or else the
environment.
-/

namespace StackMachine

/-! ## Memory shown in lines -/

namespace Memory

theorem mem_nonzero {memory : Memory} {i : Nat} {v : Int32} :
    (i, v) ∈ memory.nonzero ↔ memory.get? i = some v ∧ v ≠ 0 := by
  simp only [nonzero, get?, List.mem_filter, List.mem_mapIdx, decide_eq_true_eq]
  rw [Array.getElem?_eq_some_iff]
  constructor
  · rintro ⟨⟨j, hj, heq⟩, hv⟩
    cases heq
    exact ⟨⟨hj, rfl⟩, hv⟩
  · rintro ⟨⟨hi, rfl⟩, hv⟩
    exact ⟨⟨i, hi, rfl⟩, hv⟩

theorem pairwise_nonzero (memory : Memory) :
    memory.nonzero.Pairwise fun a b => a.1 < b.1 := by
  refine List.Pairwise.filter _ (List.pairwise_iff_getElem.2 fun i j hi hj hlt => ?_)
  simpa using hlt

/-- A cell that does not hold zero is the same in a memory with the same such cells. -/
theorem get?_eq_of_nonzero_eq {memory other : Memory} {i : Nat} {v : Int32}
    (h : memory.nonzero = other.nonzero) (hi : memory.get? i = some v) (hv : v ≠ 0) :
    other.get? i = some v := by
  have hmem := mem_nonzero.2 ⟨hi, hv⟩
  rw [h] at hmem
  exact (mem_nonzero.1 hmem).1

/-- The cells that do not hold zero determine the others. -/
theorem nonzero_inj {memory other : Memory} (hsize : memory.size = other.size)
    (h : memory.nonzero = other.nonzero) : memory = other := by
  obtain ⟨cells⟩ := memory
  obtain ⟨cells'⟩ := other
  congr 1
  refine Array.ext hsize fun i hi hi' => ?_
  have hcell : get? ⟨cells⟩ i = some cells[i] := Array.getElem?_eq_getElem hi
  have hcell' : get? ⟨cells'⟩ i = some cells'[i] := Array.getElem?_eq_getElem hi'
  -- A cell that only one memory shows would be shown by the other too.
  by_cases hv : cells[i] = 0
  · by_cases hw : cells'[i] = 0
    · rw [hv, hw]
    · rw [get?_eq_of_nonzero_eq h.symm hcell' hw] at hcell
      exact (Option.some.inj hcell).symm
  · rw [get?_eq_of_nonzero_eq h hcell hv] at hcell'
    exact Option.some.inj hcell'

end Memory

namespace Command

/-- The line that shows a cell, without its newline. -/
def cellLine (cell : Nat × Int32) : String :=
  "mem[" ++ cell.1.repr ++ "] = " ++ cell.2.toInt.repr

theorem dumpLines_eq (memory : Memory) :
    dumpLines memory = String.join (memory.nonzero.map fun cell => cellLine cell ++ "\n") := rfl

theorem toList_cellLine (cell : Nat × Int32) :
    (cellLine cell).toList =
      "mem[".toList ++ (cell.1.repr.toList ++ ']' :: (" = ".toList ++ cell.2.toInt.repr.toList)) := by
  simp [cellLine]

theorem oneLine_cellLine (cell : Nat × Int32) : Text.OneLine (cellLine cell) := by
  have hindex : Text.OneLine ("mem[" ++ cell.1.repr) := .append (by decide) (Text.oneLine_natRepr _)
  exact (hindex.append (by decide)).append (Text.oneLine_intRepr _)

theorem cellLine_inj {cell cell' : Nat × Int32} (h : cellLine cell = cellLine cell') :
    cell = cell' := by
  have hbracket (n : Nat) : ']' ∉ n.repr.toList := by
    intro hmem
    exact absurd (Text.isDigit_of_mem_repr hmem) (by decide)
  have hlists := congrArg String.toList h
  rw [toList_cellLine, toList_cellLine] at hlists
  obtain ⟨hindex, hvalue⟩ :=
    Text.append_mark_inj (hbracket _) (hbracket _) (List.append_cancel_left hlists)
  have hfst : cell.1 = cell'.1 := Text.natRepr_inj (String.toList_inj.1 hindex)
  have hsnd : cell.2 = cell'.2 := Int32.toInt_inj.1
    (Text.intRepr_inj (String.toList_inj.1 (List.append_cancel_left hvalue)))
  exact Prod.ext hfst hsnd

/-- The lines shown and the size determine the memory. -/
theorem dumpLines_inj {memory other : Memory} (hsize : memory.size = other.size)
    (h : dumpLines memory = dumpLines other) : memory = other := by
  have htoList (memory : Memory) : (dumpLines memory).toList =
      (memory.nonzero.map fun cell => (cellLine cell).toList).flatMap (· ++ ['\n']) := by
    simp [dumpLines_eq, String.toList_join, List.flatMap_map]
  have hnewline (memory : Memory) :
      ∀ line ∈ memory.nonzero.map fun cell => (cellLine cell).toList, '\n' ∉ line := by
    intro line hline
    obtain ⟨cell, -, rfl⟩ := List.mem_map.1 hline
    exact (oneLine_cellLine cell).not_mem (by decide)
  have hlists := congrArg String.toList h
  rw [htoList, htoList] at hlists
  have hlines := Text.lines_inj (hnewline memory) (hnewline other) hlists
  refine Memory.nonzero_inj hsize ?_
  exact (List.map_inj_right fun _ _ heq => cellLine_inj (String.toList_inj.1 heq)).1 hlines

/-! ## Limits on the command line -/

namespace Arguments

variable {shape : Shape} {name : String} {words : List String}

/-- No number looks like an option. -/
theorem isOption_repr (n : Nat) : isOption n.repr = false := by
  unfold isOption
  split
  · rename_i heq
    have hmem : '-' ∈ n.repr.toList := by simp [heq]
    exact absurd (Text.isDigit_of_mem_repr hmem) (by decide)
  · rfl

theorem splitOption?_of_not_mem (h : '=' ∉ name.toList) :
    splitOption? ("--" ++ name) = some (name, none) := by
  have hall : ∀ c ∈ name.toList, decide (c ≠ '=') = true := by
    intro c hc
    exact decide_eq_true fun heq => h (heq ▸ hc)
  have hword : ("--" ++ name).toList = '-' :: '-' :: name.toList := by simp
  simp only [splitOption?, hword, List.dropWhile_eq_nil_iff.2 hall, List.takeWhile_eq_self_iff.2 hall,
    String.ofList_toList]

section Option

variable (hname : name ≠ "") (hequals : '=' ∉ name.toList)

include hname hequals

theorem parse?_flag (hflag : name ∈ shape.flags) :
    parse? shape (("--" ++ name) :: words) = parse? shape words >>= addFlag? name := by
  have hword : "--" ++ name ≠ "--" := by simpa using hname
  have hoption : isOption ("--" ++ name) = true := by simp [isOption]
  rw [parse?.eq_3 _ _ _ hword]
  simp only [hoption, splitOption?_of_not_mem hequals, hflag, if_true]

theorem parse?_valued {value : String} (hflag : name ∉ shape.flags) (hvalued : name ∈ shape.valued)
    (hvalue : isOption value = false) :
    parse? shape (("--" ++ name) :: value :: words) =
      parse? shape words >>= addOption? name value := by
  have hword : "--" ++ name ≠ "--" := by simpa using hname
  have hoption : isOption ("--" ++ name) = true := by simp [isOption]
  rw [parse?.eq_3 _ _ _ hword]
  simp only [hoption, splitOption?_of_not_mem hequals, hflag, hvalued, hvalue, if_true, if_false,
    Bool.false_eq_true]

end Option

end Arguments

/-- Limits of a run, each of which may be given or not. -/
structure Limits where
  memorySize : Option Nat
  maxStack : Option Nat
  stepLimit : Option Nat

/-- The words that give a limit. -/
def limitWords (name : String) (limit : Option Nat) : List String :=
  match limit with
  | none => []
  | some n => ["--" ++ name, n.repr]

namespace Limits

/-- The words of a command line that runs a file with these limits. -/
def words (limits : Limits) (file : String) (dumpMemory : Bool) : List String :=
  "run" :: (limitWords "memory-size" limits.memorySize ++
    (limitWords "max-stack" limits.maxStack ++
      (limitWords "step-limit" limits.stepLimit ++
        ((if dumpMemory then ["--dump-memory"] else []) ++ ["--", file]))))

/-- The variables of an environment give these limits. -/
def SetIn (limits : Limits) (env : Environment) : Prop :=
  env.lookup memorySizeVariable = limits.memorySize.map Nat.repr ∧
    env.lookup maxStackVariable = limits.maxStack.map Nat.repr ∧
    env.lookup stepLimitVariable = limits.stepLimit.map Nat.repr

/-- No limit is too large to be read. -/
def Readable (limits : Limits) : Prop :=
  ∀ n, limits.memorySize = some n ∨ limits.maxStack = some n ∨ limits.stepLimit = some n →
    n < Text.numberBound

/-- These limits, and where one is not given that of others. -/
def orElse (limits others : Limits) : Limits where
  memorySize := limits.memorySize.or others.memorySize
  maxStack := limits.maxStack.or others.maxStack
  stepLimit := limits.stepLimit.or others.stepLimit

end Limits

namespace Arguments

variable {shape : Shape} {name : String} {words : List String}

/-- The option that gives a limit. -/
def limitOption (name : String) (limit : Option Nat) : List (String × String) :=
  (limit.map fun n => (name, n.repr)).toList

theorem parse?_limitWords {a : Arguments} (limit : Option Nat) (hname : name ≠ "")
    (hequals : '=' ∉ name.toList) (hflag : name ∉ shape.flags) (hvalued : name ∈ shape.valued)
    (h : parse? shape words = some a)
    (hnew : name ∉ a.options.map Prod.fst) :
    parse? shape (limitWords name limit ++ words) =
      some { a with options := limitOption name limit ++ a.options } := by
  cases limit with
  | none => exact h
  | some n =>
    have hparse : parse? shape (("--" ++ name) :: n.repr :: words) = _ :=
      parse?_valued hname hequals hflag hvalued (isOption_repr n)
    rw [limitWords, List.cons_append, List.cons_append, List.nil_append, hparse, h]
    simp only [Option.bind_eq_bind, Option.bind_some, addOption?, hnew, if_false]
    rfl

end Arguments

/-- The arguments that the words of a command line with these limits give. -/
def Limits.arguments (limits : Limits) (file : String) (dumpMemory : Bool) : Arguments where
  positional := [file]
  options := Arguments.limitOption "memory-size" limits.memorySize ++
    (Arguments.limitOption "max-stack" limits.maxStack ++
      (Arguments.limitOption "step-limit" limits.stepLimit ++ []))
  flags := if dumpMemory then ["dump-memory"] else []

theorem option?_arguments (limits : Limits) (file : String) (dumpMemory : Bool) :
    (limits.arguments file dumpMemory).option? "memory-size" = limits.memorySize.map Nat.repr ∧
    (limits.arguments file dumpMemory).option? "max-stack" = limits.maxStack.map Nat.repr ∧
    (limits.arguments file dumpMemory).option? "step-limit" = limits.stepLimit.map Nat.repr := by
  obtain ⟨memorySize, maxStack, stepLimit⟩ := limits
  refine ⟨?_, ?_, ?_⟩ <;> cases memorySize <;> cases maxStack <;> cases stepLimit <;>
    simp [Arguments.option?, Limits.arguments, Arguments.limitOption, List.lookup_cons]

theorem parse?_limits (limits : Limits) (file : String) (dumpMemory : Bool) :
    Arguments.parse? runShape (limits.words file dumpMemory).tail =
      some (limits.arguments file dumpMemory) := by
  -- The words are read from the last to the first.
  have hend : Arguments.parse? runShape ["--", file] = some { positional := [file] } := by
    rw [Arguments.parse?]
  have hflag : Arguments.parse? runShape
      ((if dumpMemory then ["--dump-memory"] else []) ++ ["--", file]) =
      some { positional := [file], flags := if dumpMemory then ["dump-memory"] else [] } := by
    cases dumpMemory with
    | false => exact hend
    | true =>
      have hparse : Arguments.parse? runShape (("--" ++ "dump-memory") :: ["--", file]) = _ :=
        Arguments.parse?_flag (by decide) (by decide) (by simp [runShape])
      rw [hend] at hparse
      exact hparse
  have hstep : Arguments.parse? runShape (limitWords "step-limit" limits.stepLimit ++ _) = _ :=
    Arguments.parse?_limitWords limits.stepLimit (by decide) (by decide) (by simp [runShape])
      (by simp [runShape]) hflag (by simp)
  have hstack : Arguments.parse? runShape (limitWords "max-stack" limits.maxStack ++ _) = _ :=
    Arguments.parse?_limitWords limits.maxStack (by decide) (by decide) (by simp [runShape])
      (by simp [runShape]) hstep (by cases limits.stepLimit <;> simp [Arguments.limitOption])
  have hmemory : Arguments.parse? runShape (limitWords "memory-size" limits.memorySize ++ _) = _ :=
    Arguments.parse?_limitWords limits.memorySize (by decide) (by decide) (by simp [runShape])
      (by simp [runShape]) hstack (by
        cases limits.stepLimit <;> cases limits.maxStack <;> simp [Arguments.limitOption])
  exact hmemory

/-- A limit is that of the option, or else that of the variable. -/
theorem limit?_eq {env : Environment} {a : Arguments} {option fallback : String}
    {given other : Option Nat} (hgiven : a.option? option = given.map Nat.repr)
    (hother : env.lookup fallback = other.map Nat.repr)
    (hread : ∀ n, given.or other = some n → n < Text.numberBound) :
    limit? env a option fallback = some (given.or other) := by
  have htext : (a.option? option).or (env.lookup fallback) = (given.or other).map Nat.repr := by
    rw [hgiven, hother]
    cases given <;> rfl
  unfold limit?
  rw [htext]
  cases hlimit : given.or other with
  | none => rfl
  | some n => simp only [Option.map_some, Text.number?_repr (hread n hlimit)]

theorem Limits.Readable.orElse {limits others : Limits} (h : limits.Readable) (h' : others.Readable) :
    (limits.orElse others).Readable := by
  have hor {a b : Option Nat} {n : Nat} (hn : a.or b = some n) : a = some n ∨ b = some n := by
    rcases Option.or_eq_some_iff.1 hn with ha | ⟨-, hb⟩
    · exact .inl ha
    · exact .inr hb
  rintro n (hn | hn | hn)
  · exact (hor hn).elim (fun ha => h n (.inl ha)) fun hb => h' n (.inl hb)
  · exact (hor hn).elim (fun ha => h n (.inr (.inl ha))) fun hb => h' n (.inr (.inl hb))
  · exact (hor hn).elim (fun ha => h n (.inr (.inr ha))) fun hb => h' n (.inr (.inr hb))

/-- A command line that gives limits runs the file with these limits. Those that it does not give come
from the environment, and without them there are defaults. -/
theorem parse?_words {env : Environment} {given others : Limits} {file : String}
    (hread : given.Readable) (hread' : others.Readable) (henv : others.SetIn env) (hfile : file ≠ "")
    (dumpMemory : Bool) :
    parse? env (given.words file dumpMemory) =
      some (.run file ((given.orElse others).memorySize.getD 256)
        { maxStack := (given.orElse others).maxStack.getD 1024
          stepLimit := (given.orElse others).stepLimit } dumpMemory) := by
  obtain ⟨hmemory, hstack, hstep⟩ := option?_arguments given file dumpMemory
  obtain ⟨hmemory', hstack', hstep'⟩ := henv
  have hboth := hread.orElse hread'
  have hlimits := And.intro (limit?_eq hmemory hmemory' fun n hn => hboth n (.inl hn))
    (And.intro (limit?_eq hstack hstack' fun n hn => hboth n (.inr (.inl hn)))
      (limit?_eq hstep hstep' fun n hn => hboth n (.inr (.inr hn))))
  have hpath : onlyPath? (given.arguments file dumpMemory) = some file := by
    simp only [onlyPath?, Limits.arguments, hfile, if_false]
  have hflag : decide ("dump-memory" ∈ (given.arguments file dumpMemory).flags) = dumpMemory := by
    cases dumpMemory <;> simp [Limits.arguments]
  have hargs := parse?_limits given file dumpMemory
  have hrun : parse? env (given.words file dumpMemory) =
      parseRun? env (given.words file dumpMemory).tail := rfl
  rw [hrun, parseRun?]
  simp only [hargs, hpath, hlimits, hflag, Option.bind_eq_bind, Option.bind_some]
  rfl

/-! ## Responses -/

theorem line_decode (file : String) (e : Bytecode.DecodeError) :
    (Failure.decode file e).line =
      "error: invalid bytecode in " ++ file ++ ": " ++ e.message ++ "\n" := by
  apply String.toList_inj.1
  simp [Failure.line, Failure.causes]

theorem line_trapped (trap : Trap) :
    (Failure.trapped trap).line =
      "error: runtime error: " ++ trap.message ++ ": " ++ trap.fault.message ++ "\n" := by
  apply String.toList_inj.1
  simp [Failure.line, Failure.causes]

/-! ## Reports of traps -/

/-- A fault whose message is the machine's own: the kinds that it names are kinds of values. -/
def NamesKinds (fault : Fault) : Prop :=
  ∀ expected found, fault = .typeMismatch expected found →
    ∃ tag tag' : Tag, expected = tag.name ∧ found = tag'.name

theorem namesKinds_of_step_error {length : Nat} {ins : Instruction} {m m' : Machine} {fault : Fault}
    (h : Machine.step length ins m = .error fault m') : NamesKinds fault := by
  rintro expected found rfl
  rcases Machine.cause_of_step_error h with hcause | ⟨limit, hlimit⟩
  · generalize hfault : Fault.typeMismatch expected found = fault at hcause
    cases hcause with
    | wrongOperand | wrongValue =>
      cases hfault
      exact ⟨_, _, rfl, rfl⟩
    | _ => cases hfault
  · cases hlimit

theorem oneLine_tagName (tag : Tag) : Text.OneLine tag.name := by
  cases tag <;> decide

theorem oneLine_causeMessage (cause : WriteError) : Text.OneLine cause.message := by
  cases cause <;> decide +kernel

theorem oneLine_faultMessage {fault : Fault} (h : NamesKinds fault) : Text.OneLine fault.message := by
  have hnat := Text.oneLine_natRepr
  have hint := Text.oneLine_intRepr
  cases fault with
  | stackUnderflow | divisionByZero | missingOperand => decide
  | stackOverflow limit | stepLimitExceeded limit =>
    exact .append (.append (by decide) (hnat limit)) (by decide)
  | typeMismatch expected found =>
    obtain ⟨tag, tag', rfl, rfl⟩ := h _ _ rfl
    exact .append (.append (.append (by decide) (oneLine_tagName tag)) (by decide)) (oneLine_tagName tag')
  | outOfBounds index size =>
    exact .append (.append (.append (by decide) (hint index)) (by decide)) (hnat size)
  | invalidJump target length =>
    exact .append (.append (.append (.append (by decide) (hint target)) (by decide)) (hnat length))
      (by decide)
  | outputFailed cause => exact .append (by decide) (oneLine_causeMessage cause)

/-- The line that reports a trap of a run is one line. -/
theorem oneLine_report {program : Program} {fuel : Nat} {m s : Machine} {trap : Trap}
    (h : Machine.run program fuel m = .trapped trap s) :
    Text.OneLine ("error: runtime error: " ++ trap.message ++ ": " ++ trap.fault.message) := by
  obtain ⟨_, _, _, -, -, hs, -, -⟩ := Machine.exists_resume_eq_trapped_iff.1 ⟨fuel, h⟩
  have hfault := oneLine_faultMessage (namesKinds_of_step_error hs)
  have hplace : Text.OneLine ("trap at pc " ++ trap.pc.repr ++ " (" ++ trap.opcode.mnemonic) :=
    .append (.append (.append (by decide) (Text.oneLine_natRepr _)) (by decide))
      trap.opcode.oneLine_mnemonic
  have htrap : Text.OneLine trap.message := (hplace.append (by decide)).append hfault
  exact .append (.append (.append (by decide) htrap) (by decide)) hfault

section Run

open Machine (new)

variable {σ : Type} {setting : Setting (StateM σ)} {env : Environment} {files after : σ}
  {words : List String} {file : String} {bytes : Bytecode.Bytes} {memorySize : Nat} {config : Config}
  {dumpMemory : Bool} {program : Program}

theorem run_start_run (hlog : env.lookup logVariable = none)
    (hparse : setting.parser env words = .command (.run file memorySize config dumpMemory))
    (hread : (setting.host.read file).run files = (.ok bytes, after)) :
    (setting.start env words).run files =
      (runFile none file memorySize config dumpMemory (.ok bytes), after) := by
  rw [Setting.run_start, hparse, Setting.taskOf, task, Task.after, Task.run_perform_read, hread]
  simp only [openLog, logNotices, hlog, Option.map_none, Option.getD_none, Reply.after_empty]

theorem run_respond_of_decode_error {e : Bytecode.DecodeError} (hlog : env.lookup logVariable = none)
    (hparse : setting.parser env words = .command (.run file memorySize config dumpMemory))
    (hread : (setting.host.read file).run files = (.ok bytes, after))
    (hdecode : Bytecode.decode bytes = .error e) (fuel : Nat) :
    (setting.respond fuel env words).run files = (.done (.failed (.decode file e)), after) := by
  rw [Setting.run_respond, run_start_run hlog hparse hread]
  simp only [runFile, readProgram, hdecode, Reply.carryOn]

theorem run_respond_of_decode_ok (hlog : env.lookup logVariable = none)
    (hparse : setting.parser env words = .command (.run file memorySize config dumpMemory))
    (hread : (setting.host.read file).run files = (.ok bytes, after))
    (hdecode : Bytecode.decode bytes = .ok program) (fuel : Nat) :
    (setting.respond fuel env words).run files =
      ((Job.start program memorySize config dumpMemory none).advance fuel, after) := by
  rw [Setting.run_respond, run_start_run hlog hparse hread]
  simp only [runFile, readProgram, hdecode, Reply.carryOn]

/-- A job without a log answers as the machine runs with a buffer. -/
theorem advance_start_buffer (program : Program) (memorySize : Nat) (config : Config)
    (dumpMemory : Bool) (fuel : Nat) :
    (Job.start program memorySize config dumpMemory none).advance fuel =
      match Machine.run program fuel (new config (.zeros memorySize) (.buffer "")) with
      | .finished s =>
        .done
          { exit := 0
            stdout := s.output.captured
            stderr := if dumpMemory then dumpLines s.memory else "" }
      | .trapped trap s =>
        .done { exit := 1, stdout := s.output.captured, stderr := (Failure.trapped trap).line }
      | .running s =>
        .running
          { program, machine := s.withOutput (.stdout s.output.captured), dumpMemory
            log := none, records := 2, lines := "" } := by
  have hrun : Machine.run program fuel (new config (.zeros memorySize) (.stdout "")) =
      (Machine.run program fuel (new config (.zeros memorySize) (.buffer ""))).map
        fun s => s.withOutput (.stdout ("" ++ s.output.captured)) :=
    Machine.resume_stdout program fuel "" (new config (.zeros memorySize) .silent).start
  rw [Job.advance_start, hrun]
  cases Machine.run program fuel (new config (.zeros memorySize) (.buffer "")) with
  | finished s | trapped trap s | running s =>
    simp only [Machine.Progress.map, logLines, String.empty_append]
    rfl

theorem size_memory_run (program : Program) (fuel : Nat) (config : Config) (memorySize : Nat)
    (output : Output) :
    (Machine.run program fuel (new config (.zeros memorySize) output)).machine.memory.size =
      memorySize := by
  refine Machine.machine_resume_invariant (I := fun m => m.memory.size = memorySize) ?_ ?_ fuel ?_
  · intro m m' ins hm _ hs
    rw [(Machine.effect_of_step_ok hs).size_memory]
    exact hm
  · intro m m' ins fault hm _ hs
    rw [Machine.memory_of_step_error hs]
    exact hm
  · exact Array.size_replicate

/-- Running a file answers as the machine runs the program in it, with any parser that reads the command
line so and on any host that has the file. The command line gives the limits of the run, and where it does
not, the environment does or the defaults hold. A file that holds no program is reported. Otherwise the
command shows what a buffer captures. It succeeds if the run finishes, and then shows nothing else but, if
asked to, the cells that do not hold zero, in order. With the size these lines determine the memory. It
fails with the trap on a single line if the run traps, and goes on as long as the run. All this is so
however the steps of the run are divided. -/
theorem run_file_agrees {σ : Type} (setting : Setting (StateM σ)) (env : Environment)
    (files after : σ) (file : String) (bytes : Bytecode.Bytes) (hlog : env.lookup logVariable = none)
    (hread : (setting.host.read file).run files = (.ok bytes, after)) :
    (∀ (given others : Limits) (dumpMemory : Bool), given.Readable → others.Readable →
      others.SetIn env → file ≠ "" →
        parser env (given.words file dumpMemory) =
          .command (.run file ((given.memorySize.or others.memorySize).getD 256)
            { maxStack := (given.maxStack.or others.maxStack).getD 1024
              stepLimit := given.stepLimit.or others.stepLimit } dumpMemory)) ∧
    ∀ words memorySize config dumpMemory,
      setting.parser env words = .command (.run file memorySize config dumpMemory) →
      (∀ r, Delivers ((setting.start env words).run files).1 r ↔
        ∃ fuel, ((setting.respond fuel env words).run files).1 = .done r) ∧
      (∀ e, Bytecode.decode bytes = .error e → ∀ fuel,
        (setting.respond fuel env words).run files =
          (.done
            { exit := 1
              stdout := ""
              stderr := "error: invalid bytecode in " ++ file ++ ": " ++ e.message ++ "\n" },
            after)) ∧
      ∀ program, Bytecode.decode bytes = .ok program → ∀ fuel,
        (∀ s, Machine.run program fuel (new config (.zeros memorySize) (.buffer "")) = .finished s →
          s.memory.size = memorySize ∧
          ∃ cells : List (Nat × Int32),
            (cells.Pairwise fun a b => a.1 < b.1) ∧
            (∀ i v, (i, v) ∈ cells ↔ s.memory.get? i = some v ∧ v ≠ 0) ∧
            dumpLines s.memory = String.join (cells.map fun cell =>
              "mem[" ++ cell.1.repr ++ "] = " ++ cell.2.toInt.repr ++ "\n") ∧
            (∀ other : Memory, other.size = memorySize → dumpLines other = dumpLines s.memory →
              other = s.memory) ∧
            (setting.respond fuel env words).run files =
              (.done
                { exit := 0
                  stdout := s.output.captured
                  stderr := if dumpMemory then dumpLines s.memory else "" },
                after)) ∧
        (∀ trap s, Machine.run program fuel (new config (.zeros memorySize) (.buffer "")) =
            .trapped trap s →
          '\n' ∉ ("error: runtime error: " ++ trap.message ++ ": " ++ trap.fault.message).toList ∧
          (setting.respond fuel env words).run files =
            (.done
              { exit := 1
                stdout := s.output.captured
                stderr := "error: runtime error: " ++ trap.message ++ ": " ++ trap.fault.message ++
                  "\n" },
              after)) ∧
        ∀ s, Machine.run program fuel (new config (.zeros memorySize) (.buffer "")) = .running s →
          ∃ job, (setting.respond fuel env words).run files = (.running job, after) := by
  refine ⟨fun given others dumpMemory hgiven hothers henv hfile =>
    parser_of_parse? (parse?_words hgiven hothers henv hfile dumpMemory), ?_⟩
  intro words memorySize config dumpMemory hparse
  refine ⟨delivers_start_iff files setting env words, ?_, ?_⟩
  · intro e hdecode fuel
    rw [run_respond_of_decode_error hlog hparse hread hdecode, Response.failed, line_decode]
    rfl
  intro program hdecode fuel
  have hrespond := run_respond_of_decode_ok hlog hparse hread hdecode fuel
  rw [advance_start_buffer] at hrespond
  refine ⟨?_, ?_, ?_⟩
  · intro s hs
    have hsize : s.memory.size = memorySize := by
      have hmemory := size_memory_run program fuel config memorySize (.buffer "")
      rw [hs] at hmemory
      exact hmemory
    rw [hs] at hrespond
    exact ⟨hsize, s.memory.nonzero, s.memory.pairwise_nonzero, fun i v => Memory.mem_nonzero, rfl,
      fun other hother => dumpLines_inj (hother.trans hsize.symm), hrespond⟩
  · intro trap s hs
    simp only [hs, line_trapped] at hrespond
    exact ⟨(oneLine_report hs).not_mem (by decide), hrespond⟩
  · intro s hs
    rw [hs] at hrespond
    exact ⟨_, hrespond⟩

/-- A file whose program prints a text and stores five into the second of three cells. -/
theorem run_file_with_dump :
    (((Directory.setting fun _ => "").respond 4 []
      ["run", "--memory-size", "3", "--dump-memory", "--", "p"]).run
      { files := [("p", [0x53, 0x56, 0x4D, 0x42, 1, 0, 0, 0, 0, 0, 0, 4,
        0x01, 2, 0, 0, 0, 1, 0x61, 0x70, 0, 0x01, 1, 0, 0, 0, 5, 0x51, 1, 0, 0, 0, 1])] }).1 =
      .done { exit := 0, stdout := "a\n", stderr := "mem[1] = 5\n" } := by
  have hread (bytes : Bytecode.Bytes) : (Directory.host.read "p").run { files := [("p", bytes)] } =
      (.ok bytes, { files := [("p", bytes)] }) := rfl
  have hdecode : Bytecode.decode [0x53, 0x56, 0x4D, 0x42, 1, 0, 0, 0, 0, 0, 0, 4,
      0x01, 2, 0, 0, 0, 1, 0x61, 0x70, 0, 0x01, 1, 0, 0, 0, 5, 0x51, 1, 0, 0, 0, 1] =
        .ok #[⟨.push, some (.text "a")⟩, ⟨.print, none⟩, ⟨.push, some (.integer 5)⟩,
          ⟨.store, some (.integer 1)⟩] := by
    have htext : Bytecode.textBytes "a" = [0x61] := by decide
    have hword : Bytecode.IsWord (Bytecode.textBytes "a").length [0, 0, 0, 1] :=
      ⟨rfl, by rw [htext]; decide⟩
    have hpush : Bytecode.IsInstruction ⟨.push, some (.text "a")⟩ [0x01, 2, 0, 0, 0, 1, 0x61] :=
      ⟨_, .text hword, by rw [htext]; rfl⟩
    have hprint : Bytecode.IsInstruction ⟨.print, none⟩ [0x70, 0] := ⟨_, .none, rfl⟩
    have hfive : Bytecode.IsInstruction ⟨.push, some (.integer 5)⟩ [0x01, 1, 0, 0, 0, 5] :=
      ⟨_, .integer ⟨rfl, by decide⟩, rfl⟩
    have hstore : Bytecode.IsInstruction ⟨.store, some (.integer 1)⟩ [0x51, 1, 0, 0, 0, 1] :=
      ⟨_, .integer ⟨rfl, by decide⟩, rfl⟩
    exact Bytecode.decode_eq_ok_iff_isFile.2 ⟨0, 0, 0, [0, 0, 0, 4], _, ⟨rfl, rfl⟩,
      .cons hpush (.cons hprint (.cons hfive (.cons hstore .nil))), rfl⟩
  obtain ⟨hwords, hrun⟩ :=
    run_file_agrees (Directory.setting fun _ => "") [] _ _ "p" _ rfl (hread _)
  have hparse := hwords ⟨some 3, none, none⟩ ⟨none, none, none⟩ true (by
    rintro n (hn | hn | hn)
    · cases hn
      decide
    · cases hn
    · cases hn) (by rintro n (hn | hn | hn) <;> cases hn) ⟨rfl, rfl, rfl⟩ (by decide)
  have hline : Limits.words ⟨some 3, none, none⟩ "p" true =
      ["run", "--memory-size", "3", "--dump-memory", "--", "p"] := rfl
  rw [hline, ← Directory.parser_setting fun _ => ""] at hparse
  have hfinished : Machine.run #[⟨.push, some (.text "a")⟩, ⟨.print, none⟩,
      ⟨.push, some (.integer 5)⟩, ⟨.store, some (.integer 1)⟩] 4
      (new {} (.zeros 3) (.buffer "")) = .finished _ := rfl
  obtain ⟨-, cells, -, -, -, -, hrespond⟩ := ((hrun _ _ _ _ hparse).2.2 _ hdecode 4).1 _ hfinished
  exact congrArg Prod.fst hrespond

end Run

end Command

end StackMachine
