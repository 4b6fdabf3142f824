-- SUMMARY: The shapes of texts that show the structure of a value.

/-!
# Inspection texts

The shapes in which a value shows its structure on one line: a record with its fields, a
constructor around a payload, a list, an optional part.
-/

namespace StackMachine.Inspect

/-- A name and its fields in braces: `Trap { pc: 4, opcode: Add }`. -/
def record (name : String) (fields : List (String × String)) : String :=
  let shown := fields.map fun field => field.1 ++ ": " ++ field.2
  name ++ " \x7b " ++ ", ".intercalate shown ++ " \x7d"

/-- A name around one payload: `Integer(5)`. -/
def wrapped (name payload : String) : String :=
  name ++ "(" ++ payload ++ ")"

/-- Items in square brackets: `[1, 0]`. -/
def list (items : List String) : String :=
  "[" ++ ", ".intercalate items ++ "]"

/-- An optional part: `Some(9)` or `None`. -/
def option : Option String → String
  | some payload => wrapped "Some" payload
  | none => "None"

end StackMachine.Inspect
