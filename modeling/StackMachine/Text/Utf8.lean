-- SUMMARY: Texts as bytes and back.

/-!
# Texts as bytes

A text leaves the machine, through a sink or in a program file, as its bytes in UTF-8.
-/

namespace StackMachine.Text

/-- The bytes of a text. -/
def utf8 (s : String) : Array UInt8 :=
  s.toUTF8.data

/-- The text with the given bytes, if they are well-formed. -/
def ofUtf8? (bytes : Array UInt8) : Option String :=
  String.fromUTF8? ⟨bytes⟩

theorem ofUtf8?_utf8 (s : String) : ofUtf8? (utf8 s) = some s := by
  have valid : s.toByteArray.IsValidUTF8 := s.isValidUTF8
  simp only [ofUtf8?, utf8, String.toUTF8_eq_toByteArray, String.fromUTF8?, dif_pos valid]
  rfl

end StackMachine.Text
