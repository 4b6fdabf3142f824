-- SUMMARY: Texts between quotes, on one line and with escapes.
import StackMachine.Text.DefaultIgnorable
import StackMachine.Text.GraphemeExtend
import StackMachine.Text.Unprintable

/-!
# Quoted text

The form in which listings and inspections show a text: between double quotes and on one line, with
every character that is invisible, ambiguous or would end the quotation written as an escape.
-/

namespace StackMachine.Text

/-- Whether a character attaches to the one before it and cannot be read on its own. -/
def attaches (c : Char) : Bool :=
  graphemeExtend.contains c && !extendingLetters.contains c

/-- Whether quoted text shows a character as itself, quotes and backslashes aside. -/
def isPlain (c : Char) : Bool :=
  if c.toNat < 0x7f then 0x20 ≤ c.toNat
  else !attaches c && !unprintable.contains c && !defaultIgnorable.contains c

/-- A code point in lower-case hexadecimal, between braces and without leading zeros. -/
def hexEscape (c : Char) : List Char :=
  '\\' :: 'u' :: '\x7b' :: Nat.toDigits 16 c.toNat ++ ['\x7d']

/-- The characters that stand for `c` inside quotes. -/
def escape (c : Char) : List Char :=
  if c = '\x00' then ['\\', '0']
  else if c = '\t' then ['\\', 't']
  else if c = '\r' then ['\\', 'r']
  else if c = '\n' then ['\\', 'n']
  else if c = '"' then ['\\', '"']
  else if c = '\\' then ['\\', '\\']
  else if isPlain c then [c]
  else hexEscape c

/-- A text between double quotes, each character escaped as needed. -/
def quote (s : String) : String :=
  String.ofList ('"' :: s.toList.flatMap escape ++ ['"'])

end StackMachine.Text
