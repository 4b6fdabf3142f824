-- SUMMARY: The parser of command lines: commands with their options, limits from the environment, help and version.
import StackMachine.Command.Arguments
import StackMachine.Command.Basic
import StackMachine.Text.Decimal

/-!
# Command lines

The parser of the command. Limits of a run come from an option or, when it is absent, from a variable of
the environment. A command line that names no command may ask for the version or for help. The parser
says how these end, and for the version also what is shown, but has no texts of help and complaints.
-/

namespace StackMachine.Command

-- ---------------------------------------------------------------------------
-- Options and variables
-- ---------------------------------------------------------------------------

def memorySizeVariable : String := "SVM_MEMORY_SIZE"

def maxStackVariable : String := "SVM_MAX_STACK"

def stepLimitVariable : String := "SVM_STEP_LIMIT"

/-- The variables that are looked at, for limits or for a log. -/
def consulted : List String :=
  [logVariable, memorySizeVariable, maxStackVariable, stepLimitVariable]

/-- The options and flags of the command that runs a file. -/
def runShape : Shape :=
  { valued := ["memory-size", "max-stack", "step-limit"], flags := ["dump-memory"] }

/-- Those of the command that writes a sample. -/
def generateShape : Shape :=
  { valued := ["sample"] }

/-- Those of the command that lists a file: it has none. -/
def disassembleShape : Shape := {}

/-- The one word of a command line that is given by position: a path, which is not empty. -/
def onlyPath? (a : Arguments) : Option String :=
  match a.positional with
  | [path] => if path = "" then none else some path
  | _ => none

/-- A limit from its option, or else from its variable. A value that is no number makes the whole
command line invalid, and the outer option says so. -/
def limit? (env : Environment) (a : Arguments) (option fallback : String) : Option (Option Nat) :=
  match (a.option? option).or (env.lookup fallback) with
  | none => some none
  | some text => (Text.number? text).map some

-- ---------------------------------------------------------------------------
-- Commands
-- ---------------------------------------------------------------------------

def parseRun? (env : Environment) (words : List String) : Option Command := do
  let a ← Arguments.parse? runShape words
  let file ← onlyPath? a
  let memorySize ← limit? env a "memory-size" memorySizeVariable
  let maxStack ← limit? env a "max-stack" maxStackVariable
  let stepLimit ← limit? env a "step-limit" stepLimitVariable
  let defaults : Config := {}
  return .run file (memorySize.getD Memory.defaultSize)
    { maxStack := maxStack.getD defaults.maxStack, stepLimit } ("dump-memory" ∈ a.flags)

def parseGenerate? (words : List String) : Option Command := do
  let a ← Arguments.parse? generateShape words
  let path ← onlyPath? a
  match a.option? "sample" with
  | none => return .generate path .arithmetic
  | some word => return .generate path (← Sample.ofWord? word)

def parseDisassemble? (words : List String) : Option Command := do
  let a ← Arguments.parse? disassembleShape words
  return .disassemble (← onlyPath? a)

/-- The command that a command line asks for, if it is a valid one. -/
def parse? (env : Environment) : List String → Option Command
  | "run" :: words => parseRun? env words
  | "generate" :: words => parseGenerate? words
  | "disasm" :: words => parseDisassemble? words
  | _ => none

-- ---------------------------------------------------------------------------
-- Version and help
-- ---------------------------------------------------------------------------

/-- The name and version of the command. -/
def versionLine : String := "svm 0.1.0"

/-- Whether a word is an option, by its name or by its letter. Short options may be written together
after one dash, and the first of them decides. -/
def isShortOr (letter : Char) (name word : String) : Bool :=
  match word.toList with
  | '-' :: c :: _ => c = letter || word = "--" ++ name
  | _ => false

def asksVersion (word : String) : Bool :=
  isShortOr 'V' "version" word

def asksHelp (word : String) : Bool :=
  isShortOr 'h' "help" word

/-- Whether the words after the name of a command ask for help about it. Words before that must be such
as the command knows. -/
def asksHelpAmong (shape : Shape) (words : List String) : Bool :=
  let options := words.takeWhile (· ≠ "--")
  options.any asksHelp && (Arguments.parse? shape (options.takeWhile (!asksHelp ·))).isSome

/-- Whether a command line asks for help. -/
def wantsHelp : List String → Bool
  | "run" :: words => asksHelpAmong runShape words
  | "generate" :: words => asksHelpAmong generateShape words
  | "disasm" :: words => asksHelpAmong disassembleShape words
  | ["help"] => true
  | ["help", word] => word ∈ ["run", "generate", "disasm", "help"]
  | word :: _ => asksHelp word
  | [] => false

/-- Whether a command line asks for the version. -/
def wantsVersion : List String → Bool
  | word :: _ => asksVersion word
  | [] => false

/-- The response to a command line that asks for no command. -/
def answerTo (words : List String) : Response :=
  if wantsVersion words then { exit := exitOk, stdout := versionLine ++ "\n" }
  else if wantsHelp words then { exit := exitOk }
  else { exit := exitUsage }

/-- The parser of the command. -/
def parser : Parser := fun env words =>
  match parse? env words with
  | some command => .command command
  | none => .answer (answerTo words)

theorem parser_of_parse? {env : Environment} {words : List String} {command : Command}
    (h : parse? env words = some command) : parser env words = .command command := by
  simp only [parser, h]

end StackMachine.Command
