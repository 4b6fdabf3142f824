-- SUMMARY: Reading natural numbers in decimal.

/-!
# Numbers in decimal

How a natural number is read from a text, as options and log levels spell it.
-/

namespace StackMachine.Text

/-- The number that decimal digits spell. -/
def ofDigits (digits : List Char) : Nat :=
  digits.foldl (fun n c => 10 * n + (c.toNat - '0'.toNat)) 0

/-- The number that every number in a text stays below. -/
def numberBound : Nat := 0x10000000000000000

/-- A number in decimal, with an optional plus sign. Zeros may stand before it. -/
def number? (text : String) : Option Nat :=
  let digits := match text.toList with
    | '+' :: digits => digits
    | digits => digits
  if digits ≠ [] ∧ digits.all Char.isDigit ∧ ofDigits digits < numberBound then
    some (ofDigits digits)
  else none

end StackMachine.Text
