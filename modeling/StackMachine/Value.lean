-- SUMMARY: Values, their kinds and the texts that show them.
import StackMachine.Text.Inspection
import StackMachine.Text.Quoted

/-!
# Values

What the stack holds and what an instruction may carry: 32-bit integers, texts and booleans. A value
knows its tag, the text that printing shows, the text that listings show and the text that
inspections show.
-/

namespace StackMachine

/-- The kind of a value. -/
inductive Tag where
  | integer
  | text
  | boolean
  deriving DecidableEq, Repr

/-- The name under which a kind appears in messages. -/
def Tag.name : Tag → String
  | .integer => "Integer"
  | .text => "Text"
  | .boolean => "Boolean"

inductive Value where
  | integer (n : Int32)
  | text (s : String)
  | boolean (b : Bool)
  deriving DecidableEq, Repr

namespace Value

def tag : Value → Tag
  | .integer _ => .integer
  | .text _ => .text
  | .boolean _ => .boolean

/-- The text that printing the value shows: a text is shown bare. -/
def render : Value → String
  | .integer n => n.toInt.repr
  | .text s => s
  | .boolean true => "true"
  | .boolean false => "false"

/-- The text of the value as an operand in a listing: a text is quoted, so that it stays on its
line and cannot be taken for another operand. -/
def renderOperand : Value → String
  | .text s => Text.quote s
  | v => v.render

/-- The value with its kind: `Integer(5)`, `Text("x")`, `Boolean(true)`. -/
def inspect (v : Value) : String :=
  Inspect.wrapped v.tag.name v.renderOperand

end Value

end StackMachine
