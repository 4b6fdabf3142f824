-- SUMMARY: A subscriber that goes by rules about targets and shows plain lines.
import StackMachine.Log
import StackMachine.Text.Decimal

/-!
# Filters

A subscriber that is asked for a log by rules. A rule allows the records of some targets up to a level,
and the most specific rule about a target decides. The line of a record is plain text after whatever is
put before it, such as the time.
-/

namespace StackMachine.Log

-- ---------------------------------------------------------------------------
-- Lines
-- ---------------------------------------------------------------------------

/-- The width of the column that holds the level. -/
def levelWidth : Nat := 5

/-- The line of a record: the level to the right of its column, the target, the message and the
fields. -/
def Record.line (r : Record) : String :=
  let level := r.level.name
  let shown := r.fields.map fun field => " " ++ field.1 ++ "=" ++ field.2
  "".pushn ' ' (levelWidth - level.length) ++ level ++ " " ++ r.target ++ ": " ++ r.message ++
    String.join shown ++ "\n"

-- ---------------------------------------------------------------------------
-- Rules
-- ---------------------------------------------------------------------------

/-- A rule of a filter: the verbosity for the targets that start with `target`, or for all. -/
structure Directive where
  target : Option String
  verbosity : Nat
  deriving DecidableEq, Repr

namespace Directive

/-- Whether the rule is about a target. -/
def covers (d : Directive) (target : String) : Bool :=
  d.target.all fun start => start.toList.isPrefixOf target.toList

/-- A rule for a longer target is more specific, and one for all targets is the least. -/
def specificity (d : Directive) : Nat :=
  match d.target with
  | none => 0
  | some target => target.length + 1

/-- The verbosity of a rule that names none. -/
def everything : Nat := 5

/-- The verbosity that a word names, in any case, or by its number. -/
def verbosity? (word : String) : Option Nat :=
  match Text.number? word with
  | some number => if number ≤ everything then some number else none
  | none =>
    match word.toLower with
    | "off" => some 0
    | "error" => some 1
    | "warn" => some 2
    | "info" => some 3
    | "debug" => some 4
    | "trace" => some 5
    | _ => none

/-- Why a text is not a rule. -/
inductive ParseError where
  | malformed
  | unknownLevel
  deriving DecidableEq, Repr

def ParseError.message : ParseError → String
  | malformed => "invalid filter directive"
  | unknownLevel =>
    "error parsing level filter: expected one of \"off\", \"error\", \"warn\", \"info\", " ++
      "\"debug\", \"trace\", or a number 0-5"

/-- Whether a rule may start with a character: a letter, a digit or one of four signs. Beyond ASCII
every character counts as a letter. A bracket belongs to a rule about spans: as there are none, it is
read as a rule about a target that no record has. -/
def isStart (c : Char) : Bool :=
  c.isAlphanum || c = '-' || c = ':' || c = '_' || c = '[' || 127 < c.toNat

/-- A rule without an equals sign: a level for all targets, or a target that is shown in full. -/
def ofWord (word : String) : Directive :=
  match verbosity? word with
  | some verbosity => { target := none, verbosity }
  | none => { target := some word, verbosity := everything }

/-- A rule with an equals sign: the level of a target, which is shown in full if there is none. -/
def ofPair (target level : String) : Except ParseError Directive :=
  if level = "" then .ok { target := some target, verbosity := everything }
  else match verbosity? level with
  | some verbosity => .ok { target := some target, verbosity }
  | none => .error .unknownLevel

/-- A rule is a word, or `target=level` without a blank before it. A text of blanks is none. -/
def parse (text : String) : Except ParseError Directive :=
  let chars := text.toList
  match chars.dropWhile Char.isWhitespace with
  | [] => .error .malformed
  | c :: _ =>
    if !isStart c then .error .malformed
    else match chars.dropWhile (· ≠ '=') with
    | [] => .ok (ofWord text)
    | _ :: level =>
      if chars.head? ≠ some c then .error .unknownLevel
      else ofPair (String.ofList (chars.takeWhile (· ≠ '='))) (String.ofList level)

end Directive

-- ---------------------------------------------------------------------------
-- Filters
-- ---------------------------------------------------------------------------

/-- The rules of a filter, in the order given. -/
abbrev Filter := List Directive

namespace Filter

/-- The filter that shows errors only. -/
def errorsOnly : Filter := [{ target := none, verbosity := 1 }]

/-- The parts of a text that commas divide, without the empty ones. -/
def parts (text : String) : List String :=
  ((text.toList.splitOn ',').map String.ofList).filter (· ≠ "")

/-- The rules that commas divide. A part that is not a rule is passed over, and without any rule
errors are shown. -/
def parse (text : String) : Filter :=
  match (parts text).filterMap fun part => (Directive.parse part).toOption with
  | [] => errorsOnly
  | rules => rules

/-- The line that reports a part, if it is passed over. -/
def notice (part : String) : String :=
  match Directive.parse part with
  | .ok _ => ""
  | .error e => "ignoring `" ++ part ++ "`: " ++ e.message ++ "\n"

/-- One line for each part that is passed over. -/
def notices (text : String) : String :=
  String.join ((parts text).map notice)

/-- The rule that decides about a target: the most specific, and of equals the last. -/
def governing? (filter : Filter) (target : String) : Option Directive :=
  filter.foldl
    (fun best d =>
      if d.covers target && best.all (·.specificity ≤ d.specificity) then some d else best)
    none

/-- The verbosity of a target. One that no rule is about is not shown at all. -/
def verbosity (filter : Filter) (target : String) : Nat :=
  match filter.governing? target with
  | some d => d.verbosity
  | none => 0

/-- Whether a filter shows the records of a level and a target. -/
def shows (filter : Filter) (level : Level) (target : String) : Bool :=
  level.verbosity ≤ filter.verbosity target

/-- The subscriber that goes by the rules in a text, with what is to stand before each line. -/
def subscriber (stamp : Nat → String) : Subscriber where
  Rules := Filter
  rules := parse
  enables := shows
  line earlier record := stamp earlier ++ record.line
  notices := notices

end Filter

end StackMachine.Log
