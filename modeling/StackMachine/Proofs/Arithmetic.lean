-- SUMMARY: The operators on words and booleans against integers and truth values.
import StackMachine.Arithmetic

/-!
# Operators against integers and truth values

What the operators on words are on the integers. A word stands for an integer, and an operator gives
the word that the exact result wraps around to. Only a division by zero has no result. The operators
on booleans are told apart by when what they say is true.
-/

namespace StackMachine

/-! ## Division -/

namespace ArithOp

/-- Whether the operator divides by its right operand. -/
def divides : ArithOp → Bool
  | div | mod => true
  | add | sub | mul => false

theorem divides_iff {op : ArithOp} : op.divides = true ↔ op = .div ∨ op = .mod := by
  cases op <;> simp [divides]

/-- The operator on the integers. Division is truncated toward zero, and the remainder is that of
division rounded to the floor. -/
def onIntegers : ArithOp → Int → Int → Int
  | add, a, b => a + b
  | sub, a, b => a - b
  | mul, a, b => a * b
  | div, a, b => a.tdiv b
  | mod, a, b => a.fmod b

theorem eval_zero {op : ArithOp} (h : op.divides = true) (a : Int32) :
    op.eval a 0 = .error .divisionByZero := by
  cases op with
  | div => rfl
  | mod => rfl
  | add | sub | mul => cases h

end ArithOp

theorem divide_of_ne_zero (a : Int32) {b : Int32} (h : b ≠ 0) :
    divide a b = .ok (.ofInt (a.toInt.tdiv b.toInt)) := by
  have hdiv : a / b = .ofInt (a.toInt.tdiv b.toInt) := Int32.toInt_inj.1 (by simp)
  rw [divide, if_neg h, hdiv]

/-- A truncated remainder has the sign of the dividend. -/
theorem tmod_neg_iff {a b : Int} (h : a.tmod b ≠ 0) : a.tmod b < 0 ↔ a < 0 := by
  constructor
  · intro hneg
    refine Int.lt_of_not_ge fun ha => ?_
    have := Int.tmod_nonneg b ha
    omega
  · intro ha
    have hneg : (-a).tmod b = -a.tmod b := Int.neg_tmod a b
    have := Int.tmod_nonneg b (a := -a) (by omega)
    omega

/-- The correction turns the truncated remainder into the floored one. -/
theorem fmod_eq_corrected (a b : Int) :
    a.fmod b =
      if a.tmod b ≠ 0 ∧ (a.tmod b < 0 ↔ ¬ b < 0) then a.tmod b + b else a.tmod b := by
  rw [Int.fmod_eq_tmod]
  by_cases hdvd : b ∣ a
  · have hzero : a.tmod b = 0 := Int.tmod_eq_zero_of_dvd hdvd
    simp [hdvd, hzero]
  · have hne : a.tmod b ≠ 0 := fun hzero => hdvd (Int.dvd_of_tmod_eq_zero hzero)
    simp only [hdvd, if_false, hne, tmod_neg_iff hne, ne_eq, not_false_eq_true, true_and]
    split <;> split <;> split <;> omega

theorem modulo_of_ne_zero (a : Int32) {b : Int32} (h : b ≠ 0) :
    modulo a b = .ok (.ofInt (a.toInt.fmod b.toInt)) := by
  have hr : a % b ≠ 0 ↔ a.toInt.tmod b.toInt ≠ 0 := by
    rw [← Int32.toInt_mod, Ne, Ne, ← Int32.toInt_inj, Int32.toInt_zero]
  rw [modulo, if_neg h, fmod_eq_corrected]
  simp only [hr, Int32.lt_iff_toInt_lt, Int32.toInt_mod, Int32.toInt_zero]
  split
  · rw [Int32.ofInt_add, ← Int32.toInt_mod, Int32.ofInt_toInt, Int32.ofInt_toInt]
  · rw [← Int32.toInt_mod, Int32.ofInt_toInt]

/-! ## Operators -/

/-- An operator gives the word of its result on the integers. -/
theorem ArithOp.eval_eq {op : ArithOp} {b : Int32} (h : op.divides = true → b ≠ 0) (a : Int32) :
    op.eval a b = .ok (.ofInt (op.onIntegers a.toInt b.toInt)) := by
  cases op with
  | add => simp [eval, onIntegers]
  | sub => simp [eval, onIntegers]
  | mul => simp [eval, onIntegers]
  | div => exact divide_of_ne_zero a (h rfl)
  | mod => exact modulo_of_ne_zero a (h rfl)

/-- The comparison of integers. -/
def CompareOp.onIntegers : CompareOp → Int → Int → Bool
  | greater, a, b => b < a
  | less, a, b => a < b

/-- Words are compared with their signs. -/
theorem CompareOp.eval_eq (op : CompareOp) (a b : Int32) :
    op.eval a b = op.onIntegers a.toInt b.toInt := by
  cases op with
  | greater => simp [eval, onIntegers, Int32.lt_iff_toInt_lt]
  | less => simp [eval, onIntegers, Int32.lt_iff_toInt_lt]

/-- When an operator gives true: for a conjunction if both operands are true, for a disjunction if one
of them is, and for an exclusive one if they differ. -/
def LogicOp.onTruths : LogicOp → Bool → Bool → Bool
  | bitAnd, p, q | and, p, q => decide (p = true ∧ q = true)
  | bitOr, p, q | or, p, q => decide (p = true ∨ q = true)
  | bitXor, p, q => decide (p ≠ q)

theorem LogicOp.eval_eq (op : LogicOp) (p q : Bool) : op.eval p q = op.onTruths p q := by
  cases op with
  | bitAnd | and => cases p <;> cases q <;> rfl
  | bitOr | or => cases p <;> cases q <;> rfl
  | bitXor => cases p <;> cases q <;> rfl

end StackMachine
