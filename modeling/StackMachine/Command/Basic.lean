-- SUMMARY: Commands, their responses, and what it is to read a command line.
import StackMachine.Command.Sample
import StackMachine.Machine

/-!
# Commands

What a command line asks for and what a command answers. How the words of a command line are read is
left to a parser. A parser may also answer by itself, for instance with its help.
-/

namespace StackMachine

inductive Command where
  /-- Run the program in a file on a memory of zeros, and perhaps show the memory afterwards. -/
  | run (file : String) (memorySize : Nat) (config : Config) (dumpMemory : Bool)
  /-- Write a sample program to a file. -/
  | generate (path : String) (sample : Command.Sample)
  /-- List the program in a file. -/
  | disassemble (file : String)
  deriving DecidableEq, Repr

namespace Command

-- ---------------------------------------------------------------------------
-- Responses
-- ---------------------------------------------------------------------------

structure Response where
  exit : Nat
  stdout : String := ""
  stderr : String := ""
  deriving DecidableEq, Inhabited, Repr

/-- The exit code of a command that succeeded. -/
def exitOk : Nat := 0

/-- The exit code of a command that failed. -/
def exitFailed : Nat := 1

/-- The exit code for a command line that is not valid. -/
def exitUsage : Nat := 2

-- ---------------------------------------------------------------------------
-- Command lines
-- ---------------------------------------------------------------------------

/-- The variables of the environment, with their values. -/
abbrev Environment := List (String × String)

/-- The variable that asks for a log. -/
def logVariable : String := "RUST_LOG"

/-- What a command line comes to: a command, or a response of the parser itself. -/
inductive Parsed where
  | command (command : Command)
  | answer (response : Response)
  deriving DecidableEq, Repr

/-- Reads a command line in an environment. -/
abbrev Parser := Environment → List String → Parsed

end Command

end StackMachine
