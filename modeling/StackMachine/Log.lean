-- SUMMARY: Records of what happens, and what shows them as the lines of a log.

/-!
# Logs

A record says what happened, how much it matters and which part of the system it comes from. Which
records are shown, and how their lines look, is the business of a subscriber. Nothing else depends on it.
-/

namespace StackMachine

-- ---------------------------------------------------------------------------
-- Records
-- ---------------------------------------------------------------------------

/-- How much a record matters. -/
inductive Level where
  | error
  | warn
  | info
  | debug
  | trace
  deriving DecidableEq, Repr

namespace Level

def name : Level → String
  | error => "ERROR"
  | warn => "WARN"
  | info => "INFO"
  | debug => "DEBUG"
  | trace => "TRACE"

/-- The verbosity from which on records of this level are shown. -/
def verbosity : Level → Nat
  | error => 1
  | warn => 2
  | info => 3
  | debug => 4
  | trace => 5

end Level

structure Log.Record where
  level : Level
  target : String
  message : String
  fields : List (String × String)
  deriving DecidableEq, Repr

-- ---------------------------------------------------------------------------
-- Logs and subscribers
-- ---------------------------------------------------------------------------

/-- A log that was asked for: which records it shows, by their level and target, and what it shows of
them. The line of a record may tell the time, so it may differ from one record to the next: it is given
the number of records before it. -/
structure Log where
  shows : Level → String → Bool
  line : Nat → Log.Record → String

namespace Log

/-- The records that are shown, each with the number of records before it. Of them all, so many were
earlier. -/
def shown (log : Log) (earlier : Nat) (records : List Record) : List (Record × Nat) :=
  (records.zipIdx earlier).filter fun numbered => log.shows numbered.1.level numbered.1.target

/-- The lines of the records that are shown. -/
def lines (log : Log) (earlier : Nat) (records : List Record) : String :=
  String.join ((log.shown earlier records).map fun numbered => log.line numbered.2 numbered.1)

/-- What keeps the logs of a system. A log is asked for by a text, which is read once. About the text the
subscriber may have something to say before any record. -/
structure Subscriber where
  /-- What the texts are read as. -/
  Rules : Type
  rules : (text : String) → Rules
  enables : Rules → Level → (target : String) → Bool
  line : Nat → Record → String
  notices : (text : String) → String

/-- The log that a text asks for. -/
def Subscriber.log (s : Subscriber) (text : String) : Log :=
  { shows := s.enables (s.rules text), line := s.line }

end Log

end StackMachine
