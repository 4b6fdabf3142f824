-- SUMMARY: The operators on 32-bit words and on booleans.
import StackMachine.Fault

/-!
# Meaning of the operators

Integers are 32-bit words in two's complement: sums, differences, products and quotients wrap
around. Division truncates toward zero, while the remainder takes the sign of the divisor.
-/

namespace StackMachine

-- ---------------------------------------------------------------------------
-- Division and remainder
-- ---------------------------------------------------------------------------

/-- The quotient truncated toward zero. The one quotient that does not fit wraps around. -/
def divide (a b : Int32) : Except Fault Int32 :=
  if b = 0 then .error .divisionByZero else .ok (a / b)

/-- The remainder of division rounded to the floor: zero, or of the sign of the divisor. -/
def modulo (a b : Int32) : Except Fault Int32 :=
  if b = 0 then .error .divisionByZero
  else
    let r := a % b
    .ok (if r ≠ 0 ∧ (r < 0 ↔ ¬ b < 0) then r + b else r)

-- ---------------------------------------------------------------------------
-- Operators
-- ---------------------------------------------------------------------------

def ArithOp.eval (op : ArithOp) (a b : Int32) : Except Fault Int32 :=
  match op with
  | .add => .ok (a + b)
  | .sub => .ok (a - b)
  | .mul => .ok (a * b)
  | .div => divide a b
  | .mod => modulo a b

def LogicOp.eval (op : LogicOp) (a b : Bool) : Bool :=
  match op with
  | .bitAnd | .and => a && b
  | .bitOr | .or => a || b
  | .bitXor => a ^^ b

def CompareOp.eval (op : CompareOp) (a b : Int32) : Bool :=
  match op with
  | .greater => b < a
  | .less => a < b

/-- The function on the reals that an operator names. -/
def RealOp.function : RealOp → Float → Float
  | .log2 => Float.log2
  | .log10 => Float.log10
  | .ln => Float.log
  | .sqrt => Float.sqrt
  | .sin => Float.sin
  | .cos => Float.cos
  | .tan => Float.tan

/-- The function's value in double precision, truncated toward zero. A value beyond the range of
integers gives the nearest end of the range, and an undefined one gives zero. -/
def RealOp.eval (op : RealOp) (a : Int32) : Int32 :=
  (op.function a.toFloat).toInt32

end StackMachine
