-- SUMMARY: Files cut short are too short, and files continued have trailing bytes.
import StackMachine.Proofs.Malformed

/-!
# Files cut short and files continued

A reader goes from left to right and looks at no more bytes than it needs. So bytes behind do not change
what it finds, unless it found too few. Hence a file that is cut anywhere, be it inside a number or
inside a character, is too short and has no other flaw, and a file that is continued has trailing bytes
and no other flaw.
-/

namespace StackMachine.Bytecode

/-! ## Flaws that stay -/

/-- Bytes behind an operand with a flaw do not mend it, unless it was too short. -/
theorem OperandFlaw.append {bytes : Bytes} {e : DecodeError} (h : OperandFlaw bytes e)
    (he : e ≠ .tooShort) (more : Bytes) : OperandFlaw (bytes ++ more) e := by
  cases h with
  | tag ht => exact .tag ht
  | @utf8 word text rest hw ht =>
    rw [List.cons_append, List.append_assoc, List.append_assoc]
    exact .utf8 hw ht
  | missing | integer | textLength | text | boolean => exact absurd rfl he

theorem Flaw.append {bytes : Bytes} {e : DecodeError} (h : Flaw bytes e) (he : e ≠ .tooShort)
    (more : Bytes) : Flaw (bytes ++ more) e := by
  cases h with
  | missing => exact absurd rfl he
  | opcode hb => exact .opcode hb
  | operand ho => exact .operand (ho.append he more)

theorem Begins.append {instructions : List Instruction} {rest bytes : Bytes}
    (h : Begins instructions rest bytes) (more : Bytes) :
    Begins instructions (rest ++ more) (bytes ++ more) := by
  obtain ⟨front, hbody, rfl⟩ := h
  exact ⟨front, hbody, List.append_assoc ..⟩

/-! ## Stable readers -/

section Readers

variable {α : Type} {form : α → Bytes → Prop} {flaw : Bytes → DecodeError → Prop} {read : Reader α}

/-- What is found when more bytes stand behind: the same, with more left over. -/
def continued (more : Bytes) : Except DecodeError (α × Bytes) → Except DecodeError (α × Bytes)
  | .ok (a, rest) => .ok (a, rest ++ more)
  | .error e => .error e

/-- More bytes do not change what a reader finds, unless it ran short. -/
def Stable (read : Reader α) : Prop :=
  ∀ bytes more, read bytes = .error .tooShort ∨ read (bytes ++ more) = continued more (read bytes)

/-- What an exact reader takes off the front does not depend on what follows, so that only its flaws
matter. -/
theorem Exact.stable (h : Exact form read) (hrefuses : Refuses flaw read)
    (hflaw : ∀ bytes e more, flaw bytes e → e ≠ .tooShort → flaw (bytes ++ more) e) :
    Stable read := by
  intro bytes more
  cases hr : read bytes with
  | ok pair =>
    obtain ⟨a, rest⟩ := pair
    obtain ⟨front, hf, rfl⟩ := (h _ _ _).1 hr
    exact .inr ((h _ _ _).2 ⟨front, hf, List.append_assoc ..⟩)
  | error e =>
    by_cases he : e = .tooShort
    · exact .inl (by rw [he])
    · exact .inr ((hrefuses _ _).2 (hflaw _ _ more ((hrefuses _ _).1 hr) he))

theorem Stable.of_ok {bytes rest : Bytes} {a : α} (h : Stable read)
    (hr : read bytes = .ok (a, rest)) (more : Bytes) :
    read (bytes ++ more) = .ok (a, rest ++ more) := by
  rcases h bytes more with hshort | hsame
  · rw [hr] at hshort
    cases hshort
  · rw [hsame, hr]
    rfl

/-- A reader that succeeds on more bytes found the same before, or ran short. -/
theorem Stable.of_append_ok {bytes more rest : Bytes} {a : α} (h : Stable read)
    (hr : read (bytes ++ more) = .ok (a, rest)) :
    read bytes = .error .tooShort ∨
      ∃ before, read bytes = .ok (a, before) ∧ rest = before ++ more := by
  rcases h bytes more with hshort | hsame
  · exact .inl hshort
  · rw [hr] at hsame
    cases hb : read bytes with
    | error e =>
      rw [hb] at hsame
      cases hsame
    | ok pair =>
      rw [hb] at hsame
      cases hsame
      exact .inr ⟨_, rfl, rfl⟩

end Readers

theorem stable_readInstructions (count : Nat) (program : Program) :
    Stable (readInstructions count program) := by
  refine (exact_readInstructions count program).stable (refuses_readInstructions count program) ?_
  rintro bytes e more ⟨instructions, rest, hbegins, hlt, hflaw⟩ he
  exact ⟨instructions, rest ++ more, hbegins.append more, hlt, hflaw.append he more⟩

theorem stable_readHeader : Stable readHeader := by
  intro bytes more
  by_cases hshort : bytes.length < 12
  · exact .inl (readHeader_of_short hshort)
  · obtain ⟨m₀, m₁, m₂, m₃, major, minor, patch, reserved, a, b, c, d, body, rfl⟩ :=
      exists_header hshort
    right
    simp only [readHeader, List.cons_append]
    split
    · rfl
    · split <;> rfl

/-! ## The decoder -/

theorem decode_append {file : Bytes} {program : Program} (h : decode file = .ok program)
    {extra : Bytes} (hextra : extra ≠ []) :
    decode (file ++ extra) = .error (.trailingBytes extra.length) := by
  obtain ⟨count, body, hh, hcount, hr⟩ := decode_eq_ok_iff.1 h
  have hcount' : ¬ (body ++ extra).length / minInstructionSize < count := by
    simp only [minInstructionSize, List.length_append] at hcount ⊢
    omega
  have hempty : extra.isEmpty = false := List.isEmpty_eq_false_iff.2 hextra
  rw [decode_eq, stable_readHeader.of_ok hh extra]
  simp only [hcount', if_false, (stable_readInstructions count #[]).of_ok hr extra, List.nil_append,
    hempty, Bool.false_eq_true]

theorem decode_of_append {cut rest : Bytes} {program : Program}
    (h : decode (cut ++ rest) = .ok program) (hrest : rest ≠ []) : decode cut = .error .tooShort := by
  obtain ⟨count, _, hh, -, hr⟩ := decode_eq_ok_iff.1 h
  rw [decode_eq]
  -- The cut is in the header, or the header is whole and the cut is in the instructions.
  rcases stable_readHeader.of_append_ok hh with hshort | ⟨body, hh', rfl⟩
  · rw [hshort]
  · rw [hh']
    by_cases hcount : body.length / minInstructionSize < count
    · simp only [hcount, if_true]
    · simp only [hcount, if_false]
      rcases (stable_readInstructions count #[]).of_append_ok hr with hshort | ⟨before, -, heq⟩
      · rw [hshort]
      · exact absurd (List.append_eq_nil_iff.1 heq.symm).2 hrest

/-- A file that holds a program is none any more when it is cut short or continued. Any strict beginning
of it is refused as too short, wherever it ends, and the file with anything behind it is refused for as
many trailing bytes. So no file that holds a program begins another. -/
theorem decode_detects_cut_and_continuation (file : Bytes) (program : Program)
    (h : decode file = .ok program) :
    (∀ cut, cut <+: file → cut ≠ file → decode cut = .error .tooShort) ∧
    (∀ extra, extra ≠ [] → decode (file ++ extra) = .error (.trailingBytes extra.length)) ∧
    ∀ other program', decode other = .ok program' → file <+: other → other = file := by
  refine ⟨?_, fun extra hextra => decode_append h hextra, ?_⟩
  · rintro cut ⟨rest, rfl⟩ hne
    refine decode_of_append h fun hrest => hne ?_
    rw [hrest, List.append_nil]
  · rintro _ program' hother ⟨extra, rfl⟩
    by_cases hextra : extra = []
    · rw [hextra, List.append_nil]
    · rw [decode_append h hextra] at hother
      cases hother

/-- A file that pushes a text of one character in two bytes, cut between them and continued by a byte. -/
theorem decode_cut_in_character :
    decode [0x53, 0x56, 0x4D, 0x42, 1, 0, 0, 0, 0, 0, 0, 1, 0x01, 0x02, 0, 0, 0, 2, 0xC3, 0xA9] =
        .ok #[⟨.push, some (.text "é")⟩] ∧
      decode [0x53, 0x56, 0x4D, 0x42, 1, 0, 0, 0, 0, 0, 0, 1, 0x01, 0x02, 0, 0, 0, 2, 0xC3] =
        .error .tooShort ∧
      decode [0x53, 0x56, 0x4D, 0x42, 1, 0, 0, 0, 0, 0, 0, 1, 0x01, 0x02, 0, 0, 0, 2, 0xC3, 0xA9, 0] =
        .error (.trailingBytes 1) := by
  have h : decode [0x53, 0x56, 0x4D, 0x42, 1, 0, 0, 0, 0, 0, 0, 1, 0x01, 0x02, 0, 0, 0, 2, 0xC3, 0xA9] =
      .ok #[⟨.push, some (.text "é")⟩] := by
    have htext : textBytes "é" = [0xC3, 0xA9] := by decide
    have hword : IsWord (textBytes "é").length [0, 0, 0, 2] := ⟨rfl, by rw [htext]; decide⟩
    have hpush : IsInstruction ⟨.push, some (.text "é")⟩ [0x01, 0x02, 0, 0, 0, 2, 0xC3, 0xA9] :=
      ⟨_, .text hword, by rw [htext]; rfl⟩
    exact decode_eq_ok_iff_isFile.2 ⟨0, 0, 0, [0, 0, 0, 1], _, ⟨rfl, rfl⟩, .cons hpush .nil, rfl⟩
  obtain ⟨hcut, hcontinued, -⟩ := decode_detects_cut_and_continuation _ _ h
  exact ⟨h, hcut _ ⟨[0xA9], rfl⟩ (by decide), hcontinued [0] (by decide)⟩

end StackMachine.Bytecode
