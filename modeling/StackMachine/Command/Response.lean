-- SUMMARY: Carrying out commands: jobs, the files that they need, and the one dispatch that every host goes through.
import StackMachine.Bytecode.Decode
import StackMachine.Bytecode.Encode
import StackMachine.Command.Basic
import StackMachine.Command.Host
import StackMachine.Event
import StackMachine.Listing

/-!
# Carrying out a command

What a command answers: an exit code and the text of its two outputs. A run may take any number of
steps, so it is a job that is carried on by a given number of steps at a time.

A command is a task for its host: it may ask for a file to be read or written, and goes on with the
result. What a command does is the same whatever parser reads its words, whatever subscriber shows its
log and whatever host has its files. These three are the setting of a command.
-/

namespace StackMachine.Command

open Bytecode (Bytes)

-- ---------------------------------------------------------------------------
-- Failures
-- ---------------------------------------------------------------------------

/-- Why a command failed. -/
inductive Failure where
  | read (path : String) (e : FileError)
  | write (path : String) (e : FileError)
  | decode (path : String) (e : Bytecode.DecodeError)
  | encode (e : Bytecode.LengthOverflow)
  | trapped (trap : Trap)
  deriving DecidableEq, Repr

/-- The causes of a failure, the outermost first. -/
def Failure.causes : Failure → List String
  | read path e => ["failed to read " ++ path, e.message]
  | write path e => ["failed to write " ++ path, e.message]
  | decode path e => ["invalid bytecode in " ++ path, e.message]
  | encode e => ["failed to encode sample", e.message]
  | trapped trap => ["runtime error", trap.message, trap.fault.message]

/-- The line that reports a failure. -/
def Failure.line (f : Failure) : String :=
  "error: " ++ ": ".intercalate f.causes ++ "\n"

/-- The response to a failure before anything was printed. -/
def Response.failed (f : Failure) : Response :=
  { exit := exitFailed, stderr := f.line }

-- ---------------------------------------------------------------------------
-- Files with programs
-- ---------------------------------------------------------------------------

/-- The program in a file whose contents, or the reason that there are none, are given. -/
def readProgram (path : String) (contents : Except FileError Bytes) : Except Failure Program :=
  match contents with
  | .error e => .error (.read path e)
  | .ok bytes =>
    match Bytecode.decode bytes with
    | .error e => .error (.decode path e)
    | .ok program => .ok program

/-- List the program in a file. -/
def disassembleFile (path : String) (contents : Except FileError Bytes) : Response :=
  match readProgram path contents with
  | .error f => .failed f
  | .ok program => { exit := exitOk, stdout := program.listing }

/-- Report on a sample that was written, or not. -/
def reportSample (path : String) (sample : Sample) : Except FileError Unit → Response
  | .error e => .failed (.write path e)
  | .ok _ =>
    { exit := exitOk, stdout := "wrote " ++ sample.name ++ " sample to " ++ path ++ "\n" }

-- ---------------------------------------------------------------------------
-- Logging
-- ---------------------------------------------------------------------------

/-- The lines of records, if there is a log, with the number of records before them. -/
def logLines (log : Option Log) (earlier : Nat) (records : List Log.Record) : String :=
  match log with
  | none => ""
  | some log => log.lines earlier records

/-- The part of a log that the records of the command itself belong to. -/
def logTarget : String := "svm"

def loadedRecord (program : Program) (memorySize : Nat) : Log.Record :=
  { level := .info, target := logTarget, message := "loaded program"
    fields := [("instructions", program.size.repr), ("memory_size", memorySize.repr)] }

def finishedRecord (m : Machine) : Log.Record :=
  { level := .info, target := logTarget, message := "program finished"
    fields := [("steps", m.steps.repr)] }

-- ---------------------------------------------------------------------------
-- Jobs
-- ---------------------------------------------------------------------------

/-- A run under way. -/
structure Job where
  program : Program
  machine : Machine
  dumpMemory : Bool
  /-- The log of the run, if it was asked for. -/
  log : Option Log
  /-- The number of records in the log so far. -/
  records : Nat
  /-- The lines of the log so far. -/
  lines : String

/-- A command that has been carried out, or a run under way. -/
inductive Reply where
  | done (response : Response)
  | running (job : Job)

/-- One line for each cell that does not hold zero. -/
def dumpLines (memory : Memory) : String :=
  String.join (memory.nonzero.map fun cell =>
    "mem[" ++ cell.1.repr ++ "] = " ++ cell.2.toInt.repr ++ "\n")

namespace Job

/-- A run that is about to begin. -/
def start (program : Program) (memorySize : Nat) (config : Config) (dumpMemory : Bool)
    (log : Option Log) : Job :=
  let machine := (Machine.new config (Memory.zeros memorySize) (.stdout "")).start
  let begun := Event.runStart program.size machine.stack.size
  { program, machine, dumpMemory, log, records := 2
    lines := logLines log 0 [loadedRecord program memorySize, begun.record] }

/-- The records of at most `fuel` further steps. Without a log there is no use for them. -/
def furtherRecords (job : Job) (fuel : Nat) : List Log.Record :=
  match job.log with
  | none => []
  | some _ => (job.machine.traceFrom job.program fuel #[]).toList.map Event.record

/-- Take at most `fuel` further steps. -/
def advance (job : Job) (fuel : Nat) : Reply :=
  let further := job.furtherRecords fuel
  let records := job.records + further.length
  let lines := job.lines ++ logLines job.log job.records further
  match job.machine.resume job.program fuel with
  | .running machine => .running { job with machine, records, lines }
  | .trapped trap machine =>
    .done
      { exit := exitFailed
        stdout := machine.output.shown
        stderr := lines ++ (Failure.trapped trap).line }
  | .finished machine =>
    .done
      { exit := exitOk
        stdout := machine.output.shown
        stderr := lines ++ logLines job.log records [finishedRecord machine] ++
          (if job.dumpMemory then dumpLines machine.memory else "") }

/-- What has been printed and logged so far, and the job without it. -/
def drain (job : Job) : String × String × Job :=
  (job.machine.output.shown, job.lines,
    { job with machine := { job.machine with output := .stdout "" }, lines := "" })

end Job

/-- A reply after at most `fuel` further steps. -/
def Reply.carryOn (fuel : Nat) : Reply → Reply
  | done response => done response
  | running job => job.advance fuel

/-- A reply with text before all else on its second output. -/
def Reply.after (text : String) : Reply → Reply
  | done response => done { response with stderr := text ++ response.stderr }
  | running job => running { job with lines := text ++ job.lines }

/-- Begin to run the program in a file. -/
def runFile (log : Option Log) (file : String) (memorySize : Nat) (config : Config)
    (dumpMemory : Bool) (contents : Except FileError Bytes) : Reply :=
  match readProgram file contents with
  | .error f => .done (.failed f)
  | .ok program => .running (Job.start program memorySize config dumpMemory log)

-- ---------------------------------------------------------------------------
-- Tasks
-- ---------------------------------------------------------------------------

/-- What a command needs of its host: nothing, or a file that is read or written before it replies. -/
inductive Task where
  | reply (reply : Reply)
  | read (path : String) (next : Except FileError Bytes → Reply)
  | write (path : String) (bytes : Bytes) (next : Except FileError Unit → Reply)

namespace Task

/-- A task whose reply has text before all else on its second output. -/
def after (text : String) : Task → Task
  | reply r => reply (r.after text)
  | read path next => read path fun contents => (next contents).after text
  | write path bytes next => write path bytes fun result => (next result).after text

/-- Let a host do its part. -/
def perform {m : Type → Type} [Monad m] (host : Host m) : Task → m Reply
  | reply r => return r
  | read path next => return next (← host.read path)
  | write path bytes next => return next (← host.write path bytes)

theorem run_perform_read {σ : Type} (host : Host (StateM σ)) (files : σ) (path : String)
    (next : Except FileError Bytes → Reply) :
    ((read path next).perform host).run files =
      (next ((host.read path).run files).1, ((host.read path).run files).2) := rfl

end Task

/-- The task of a command. -/
def task (log : Option Log) : Command → Task
  | .run file memorySize config dumpMemory =>
    .read file (runFile log file memorySize config dumpMemory)
  | .disassemble file => .read file fun contents => .done (disassembleFile file contents)
  | .generate path sample =>
    match Bytecode.encode sample.program with
    | .error e => .reply (.done (.failed (.encode e)))
    | .ok bytes => .write path bytes fun result => .done (reportSample path sample result)

-- ---------------------------------------------------------------------------
-- Settings
-- ---------------------------------------------------------------------------

/-- What a command line is carried out with. -/
structure Setting (m : Type → Type) where
  parser : Parser
  subscriber : Log.Subscriber
  host : Host m

/-- The log that an environment asks for, if any. -/
def openLog (subscriber : Log.Subscriber) (env : Environment) : Option Log :=
  (env.lookup logVariable).map subscriber.log

/-- What the subscriber says about the log that an environment asks for, before anything else. -/
def logNotices (subscriber : Log.Subscriber) (env : Environment) : String :=
  ((env.lookup logVariable).map subscriber.notices).getD ""

namespace Setting

variable {m : Type → Type} (setting : Setting m)

/-- The task of a command line that has been read. -/
def taskOf (env : Environment) : Parsed → Task
  | .answer response => .reply (.done response)
  | .command command => command.task (openLog setting.subscriber env)

/-- Begin to carry out a command line. -/
def start [Monad m] (env : Environment) (words : List String) : m Reply :=
  ((setting.taskOf env (setting.parser env words)).after (logNotices setting.subscriber env)).perform
    setting.host

/-- Carry out a command line, taking at most `fuel` steps of a run. -/
def respond [Monad m] (fuel : Nat) (env : Environment) (words : List String) : m Reply :=
  return (← setting.start env words).carryOn fuel

-- On a host with a state, the reply and the state that the host is left in.

theorem run_start {σ : Type} (setting : Setting (StateM σ)) (env : Environment) (words : List String)
    (files : σ) :
    (setting.start env words).run files =
      (((setting.taskOf env (setting.parser env words)).after
        (logNotices setting.subscriber env)).perform setting.host).run files := rfl

theorem run_respond {σ : Type} (setting : Setting (StateM σ)) (fuel : Nat) (env : Environment)
    (words : List String) (files : σ) :
    (setting.respond fuel env words).run files =
      (((setting.start env words).run files).1.carryOn fuel,
        ((setting.start env words).run files).2) := rfl

end Setting

end StackMachine.Command
