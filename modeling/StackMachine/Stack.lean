-- SUMMARY: The operand stack, its bound and its faults.
import StackMachine.Fault
import StackMachine.Value

/-!
# The operand stack

A stack of values with a bound on its size. Operations either succeed or fault, and a fault keeps
the stack that it left behind: a value of the wrong kind has been taken off when the fault is
reported.
-/

namespace StackMachine

/-- Values from bottom to top, at most `limit` of them. -/
structure Stack where
  values : Array Value
  limit : Nat
  deriving DecidableEq, Repr

namespace Stack

/-- The empty stack with a given bound. -/
def empty (limit : Nat) : Stack :=
  { values := #[], limit }

def size (s : Stack) : Nat :=
  s.values.size

def isEmpty (s : Stack) : Bool :=
  s.values.isEmpty

/-- An operation on the stack that may fault. -/
abbrev Action := EStateM Fault Stack

def push (v : Value) : Action Unit := fun s =>
  if s.size < s.limit then .ok () { s with values := s.values.push v }
  else .error (.stackOverflow s.limit) s

def pop : Action Value := fun s =>
  match s.values.back? with
  | some v => .ok v { s with values := s.values.pop }
  | none => .error .stackUnderflow s

/-- The fault for a value that is not of the required kind. -/
def mismatch (expected : Tag) (found : Value) : Fault :=
  .typeMismatch expected.name found.tag.name

def popInteger : Action Int32 := do
  match ← pop with
  | .integer n => pure n
  | v => throw (mismatch .integer v)

def popBoolean : Action Bool := do
  match ← pop with
  | .boolean b => pure b
  | v => throw (mismatch .boolean v)

def inspect (s : Stack) : String :=
  Inspect.record "Stack"
    [("values", Inspect.list (s.values.toList.map Value.inspect)), ("max_size", s.limit.repr)]

end Stack

end StackMachine
