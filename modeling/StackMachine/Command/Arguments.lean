-- SUMMARY: Options, flags and positional words of a command.

/-!
# Arguments of a command

The words after the name of a command: options with a value, flags, and everything else by position.
An option's value follows it as the next word or after an equals sign. The word `--` ends the options.
-/

namespace StackMachine.Command

/-- The options and flags that a command knows, without their dashes. -/
structure Shape where
  valued : List String := []
  flags : List String := []

/-- The words of a command line, sorted by kind. -/
structure Arguments where
  positional : List String := []
  options : List (String × String) := []
  flags : List String := []
  deriving DecidableEq, Repr

namespace Arguments

/-- Whether a word looks like an option: a dash alone does not. -/
def isOption (word : String) : Bool :=
  match word.toList with
  | '-' :: _ :: _ => true
  | _ => false

/-- The name of a long option and the value that an equals sign attaches to it. -/
def splitOption? (word : String) : Option (String × Option String) :=
  match word.toList with
  | '-' :: '-' :: text =>
    let name := String.ofList (text.takeWhile (· ≠ '='))
    match text.dropWhile (· ≠ '=') with
    | [] => some (name, none)
    | _ :: value => some (name, some (String.ofList value))
  | _ => none

def addPositional (word : String) (a : Arguments) : Arguments :=
  { a with positional := word :: a.positional }

/-- An option may be given once. -/
def addOption? (name value : String) (a : Arguments) : Option Arguments :=
  if name ∈ a.options.map Prod.fst then none
  else some { a with options := (name, value) :: a.options }

/-- A flag may be given once. -/
def addFlag? (name : String) (a : Arguments) : Option Arguments :=
  if name ∈ a.flags then none else some { a with flags := name :: a.flags }

/-- Sort the words of a command line, or give up on a word that the command does not know. -/
def parse? (shape : Shape) : List String → Option Arguments
  | [] => some {}
  | "--" :: words => some { positional := words }
  | word :: words =>
    if isOption word then
      match splitOption? word with
      | none => none
      | some (name, some value) =>
        if name ∈ shape.valued then parse? shape words >>= addOption? name value else none
      | some (name, none) =>
        if name ∈ shape.flags then parse? shape words >>= addFlag? name
        else if name ∈ shape.valued then
          match words with
          | [] => none
          | value :: words =>
            if isOption value then none else parse? shape words >>= addOption? name value
        else none
    else (parse? shape words).map (addPositional word)

/-- The value of an option. -/
def option? (a : Arguments) (name : String) : Option String :=
  a.options.lookup name

end Arguments

end StackMachine.Command
