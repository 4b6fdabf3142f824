-- SUMMARY: The decoder refuses a file for the first thing wrong with it.
import StackMachine.Proofs.Grammar

/-!
# Files that are refused

What is wrong with a file that the decoder refuses, said without a reader. After the header and the
count, the bytes are as many well-formed instructions as there are, followed by a rest, and what is
wrong with the rest decides the error.

The main statement is that the decoder refuses a file for the first thing wrong, from left to right. It
is assembled from one statement per reader: beside being `Exact`, each reader `Refuses` precisely the
bytes with certain flaws, and names the flaw.
-/

namespace StackMachine.Bytecode

/-! ## Flaws -/

/-- What keeps bytes from beginning with an operand, and the error for it. -/
inductive OperandFlaw : Bytes → DecodeError → Prop where
  | missing : OperandFlaw [] .tooShort
  | tag {t : UInt8} {rest : Bytes} (ht : 3 < t) : OperandFlaw (t :: rest) (.invalidTag t)
  | integer {rest : Bytes} (hl : rest.length < 4) : OperandFlaw (0x01 :: rest) .tooShort
  | textLength {rest : Bytes} (hl : rest.length < 4) : OperandFlaw (0x02 :: rest) .tooShort
  | text {n : Nat} {word rest : Bytes} (hw : IsWord n word) (hl : rest.length < n) :
      OperandFlaw (0x02 :: (word ++ rest)) .tooShort
  | utf8 {word text rest : Bytes} (hw : IsWord text.length word) (ht : ∀ s, text ≠ textBytes s) :
      OperandFlaw (0x02 :: (word ++ (text ++ rest))) .invalidUtf8
  | boolean : OperandFlaw [0x03] .tooShort

/-- What keeps bytes from beginning with an instruction, and the error for it. -/
inductive Flaw : Bytes → DecodeError → Prop where
  | missing : Flaw [] .tooShort
  | opcode {b : UInt8} {rest : Bytes} (hb : ∀ op : Opcode, op.byte ≠ b) :
      Flaw (b :: rest) (.invalidOpcode b)
  | operand {op : Opcode} {rest : Bytes} {e : DecodeError} (ho : OperandFlaw rest e) :
      Flaw (op.byte :: rest) e

/-- Bytes begin with well-formed instructions, and go on with `rest`. -/
def Begins (instructions : List Instruction) (rest bytes : Bytes) : Prop :=
  ∃ front, IsBody instructions front ∧ bytes = front ++ rest

/-- Bytes begin with these instructions, at most `count` of them, and with no more of them up to this
number. -/
structure LongestParse (count : Nat) (bytes : Bytes) (instructions : List Instruction)
    (rest : Bytes) : Prop where
  begins : Begins instructions rest bytes
  length_le : instructions.length ≤ count
  longest : ∀ instructions' rest', Begins instructions' rest' bytes → instructions'.length ≤ count →
    instructions'.length ≤ instructions.length

/-- The error for the first thing wrong with a file, from left to right: its length, its magic, its
major version, a count that is too large for it, the first instruction that is not well-formed, or bytes
that are left over. -/
def FirstFlaw (file : Bytes) (e : DecodeError) : Prop :=
  if file.length < 12 then e = .tooShort
  else if file.take 4 ≠ [0x53, 0x56, 0x4D, 0x42] then e = .invalidMagic
  else if file.getD 4 0 ≠ 1 then e = .invalidVersion (file.getD 4 0)
  else if (file.length - 12) / 2 < bigEndian ((file.drop 8).take 4) then e = .tooShort
  else ∃ instructions rest,
    LongestParse (bigEndian ((file.drop 8).take 4)) (file.drop 12) instructions rest ∧
      if instructions.length = bigEndian ((file.drop 8).take 4) then
        0 < rest.length ∧ e = .trailingBytes rest.length
      else Flaw rest e

/-! ## Readers that refuse -/

/-- A reader refuses precisely the bytes with a flaw, with the error for it. -/
def Refuses {α : Type} (flaw : Bytes → DecodeError → Prop) (read : Reader α) : Prop :=
  ∀ bytes e, read bytes = .error e ↔ flaw bytes e

namespace Refuses

variable {α β : Type} {flaw : Bytes → DecodeError → Prop} {form : α → Bytes → Prop} {read : Reader α}

theorem congr {flaw' : Bytes → DecodeError → Prop} (h : Refuses flaw read)
    (heq : ∀ bytes e, flaw bytes e ↔ flaw' bytes e) : Refuses flaw' read := by
  intro bytes e
  rw [h bytes e, heq]

theorem pure (a : α) : Refuses (fun _ _ => False) (fun bytes => .ok (a, bytes)) := by
  intro bytes e
  simp

theorem fail (e : DecodeError) : Refuses (fun _ e' => e' = e) (fun _ => .error e : Reader α) := by
  intro bytes e'
  rw [Except.error.injEq, eq_comm]

theorem orFail (value : Option α) (e : DecodeError) :
    Refuses (fun _ e' => value = none ∧ e' = e) (Reader.orFail value e) := by
  intro bytes e'
  cases value with
  | some a => simp [Reader.orFail]
  | none => simp [Reader.orFail, eq_comm]

/-- A sequence refuses what its first reader refuses, and what its second refuses of the rest. -/
theorem bind {flaw' : α → Bytes → DecodeError → Prop} {next : α → Reader β} (h : Refuses flaw read)
    (hexact : Exact form read) (hn : ∀ a, Refuses (flaw' a) (next a)) :
    Refuses (fun bytes e => flaw bytes e ∨
        ∃ a front rest, form a front ∧ bytes = front ++ rest ∧ flaw' a rest e)
      (fun bytes => do
        let (a, rest) ← read bytes
        next a rest) := by
  intro bytes e
  constructor
  · intro hb
    cases hr : read bytes with
    | error e' =>
      simp only [hr] at hb
      cases hb
      exact .inl ((h _ _).1 hr)
    | ok pair =>
      obtain ⟨a, rest⟩ := pair
      simp only [hr] at hb
      obtain ⟨front, hf, heq⟩ := (hexact _ _ _).1 hr
      exact .inr ⟨a, front, rest, hf, heq, (hn a _ _).1 hb⟩
  · intro hflaw
    rcases hflaw with hfirst | ⟨a, front, rest, hf, heq, hsecond⟩
    · simp only [(h _ _).2 hfirst]
      rfl
    · simp only [(hexact _ _ _).2 ⟨front, hf, heq⟩]
      exact (hn a _ _).2 hsecond

/-- Converting what was read refuses nothing. -/
theorem map (h : Refuses flaw read) (f : α → β) :
    Refuses flaw (fun bytes => do
      let (a, rest) ← read bytes
      return (f a, rest)) := by
  intro bytes e
  rw [← h bytes e]
  cases hr : read bytes with
  | error e' =>
    simp only [hr]
    constructor
    · intro hb
      cases hb
      rfl
    · intro hb
      cases hb
      rfl
  | ok pair =>
    simp only [hr]
    constructor
    · intro hb
      cases hb
    · intro hb
      cases hb

theorem ite {c : Prop} [Decidable c] {flaw' : Bytes → DecodeError → Prop} {read' : Reader α}
    (h : Refuses flaw read) (h' : Refuses flaw' read') :
    Refuses (fun bytes e => if c then flaw bytes e else flaw' bytes e)
      (fun bytes => if c then read bytes else read' bytes) := by
  by_cases hc : c
  · simpa only [hc, if_true] using h
  · simpa only [hc, if_false] using h'

end Refuses

/-! ## The readers of the decoder -/

theorem refuses_readByte : Refuses (fun bytes e => bytes = [] ∧ e = .tooShort) readByte := by
  intro bytes e
  cases bytes with
  | nil => simp [readByte, eq_comm]
  | cons b bytes => simp [readByte]

theorem refuses_readWord : Refuses (fun bytes e => bytes.length < 4 ∧ e = .tooShort) readWord := by
  intro bytes e
  match bytes with
  | [] | [_] | [_, _] | [_, _, _] => simp [readWord, eq_comm]
  | a :: b :: c :: d :: rest =>
    constructor
    · intro h
      cases h
    · intro h
      have hl : rest.length + 4 < 4 := h.1
      omega

theorem refuses_readBytes (n : Nat) :
    Refuses (fun bytes e => bytes.length < n ∧ e = .tooShort) (readBytes n) := by
  intro bytes e
  simp only [readBytes, List.length_take]
  by_cases hl : bytes.length < n
  · have hmin : ¬ min n bytes.length = n := by omega
    simp [hmin, hl, eq_comm]
  · have hmin : min n bytes.length = n := by omega
    simp [hmin, hl]

theorem ofByte?_eq_none_iff {b : UInt8} : Opcode.ofByte? b = none ↔ ∀ op : Opcode, op.byte ≠ b := by
  constructor
  · intro h op hb
    rw [← hb, Opcode.ofByte?_byte] at h
    cases h
  · intro h
    cases hop : Opcode.ofByte? b with
    | none => rfl
    | some op => exact absurd (Opcode.byte_of_ofByte? hop) (h op)

theorem refuses_readOpcode :
    Refuses (fun bytes e => (bytes = [] ∧ e = .tooShort) ∨
      ∃ b rest, bytes = b :: rest ∧ (∀ op : Opcode, op.byte ≠ b) ∧ e = .invalidOpcode b)
      readOpcode := by
  rw [readOpcode_eq]
  refine (refuses_readByte.bind exact_readByte fun b => Refuses.orFail (Opcode.ofByte? b) _).congr
    fun bytes e => or_congr_right ?_
  constructor
  · rintro ⟨b, front, rest, rfl, rfl, hb, rfl⟩
    exact ⟨b, rest, rfl, ofByte?_eq_none_iff.1 hb, rfl⟩
  · rintro ⟨b, rest, rfl, hb, rfl⟩
    exact ⟨b, [b], rest, rfl, rfl, ofByte?_eq_none_iff.2 hb, rfl⟩

theorem refuses_readInteger :
    Refuses (fun bytes e => bytes.length < 4 ∧ e = .tooShort) readInteger :=
  refuses_readWord.map fun n => (UInt32.ofNat n).toInt32

theorem refuses_readBoolean : Refuses (fun bytes e => bytes = [] ∧ e = .tooShort) readBoolean :=
  refuses_readByte.map fun payload => decide (payload ≠ 0)

theorem ofUtf8?_eq_none_iff {bytes : Bytes} :
    Text.ofUtf8? bytes.toArray = none ↔ ∀ s, bytes ≠ textBytes s := by
  rw [Option.eq_none_iff_forall_ne_some]
  exact forall_congr' fun s => not_congr ofUtf8?_eq_some

theorem refuses_readText :
    Refuses (fun bytes e => (bytes.length < 4 ∧ e = .tooShort) ∨
      (∃ n word rest, IsWord n word ∧ bytes = word ++ rest ∧ rest.length < n ∧ e = .tooShort) ∨
      ∃ word text rest, IsWord text.length word ∧ bytes = word ++ (text ++ rest) ∧
        (∀ s, text ≠ textBytes s) ∧ e = .invalidUtf8) readText := by
  rw [readText_eq]
  refine (refuses_readWord.bind exact_readWord fun length =>
    (refuses_readBytes length).bind (exact_readBytes length) fun text =>
      Refuses.orFail (Text.ofUtf8? text.toArray) _).congr fun bytes e => or_congr_right ?_
  constructor
  · rintro ⟨n, word, rest, hw, rfl, ⟨hl, rfl⟩ | ⟨text, _, rest, ⟨rfl, rfl⟩, rfl, ht, rfl⟩⟩
    · exact .inl ⟨n, word, rest, hw, rfl, hl, rfl⟩
    · exact .inr ⟨word, _, rest, hw, rfl, ofUtf8?_eq_none_iff.1 ht, rfl⟩
  · rintro (⟨n, word, rest, hw, rfl, hl, rfl⟩ | ⟨word, text, rest, hw, rfl, ht, rfl⟩)
    · exact ⟨n, word, rest, hw, rfl, .inl ⟨hl, rfl⟩⟩
    · exact ⟨_, word, _, hw, rfl,
        .inr ⟨text, text, rest, ⟨rfl, rfl⟩, rfl, ofUtf8?_eq_none_iff.2 ht, rfl⟩⟩

theorem not_tag_iff {t : UInt8} :
    3 < t ↔ t ≠ tagNone ∧ t ≠ tagInteger ∧ t ≠ tagText ∧ t ≠ tagBoolean := by
  simp only [tagNone, tagInteger, tagText, tagBoolean, ne_eq, ← UInt8.toNat_inj,
    UInt8.lt_iff_toNat_lt]
  change 3 < t.toNat ↔ ¬ t.toNat = 0 ∧ ¬ t.toNat = 1 ∧ ¬ t.toNat = 2 ∧ ¬ t.toNat = 3
  omega

theorem refuses_readOperand : Refuses OperandFlaw readOperand := by
  refine (refuses_readByte.bind exact_readByte fun tag =>
    Refuses.ite (c := tag = tagNone) (Refuses.pure none) <|
    Refuses.ite (c := tag = tagInteger)
      (refuses_readInteger.map fun n => some (Value.integer n)) <|
    Refuses.ite (c := tag = tagText) (refuses_readText.map fun s => some (Value.text s)) <|
    Refuses.ite (c := tag = tagBoolean)
      (refuses_readBoolean.map fun b => some (Value.boolean b)) <|
    Refuses.fail (.invalidTag tag)).congr fun bytes e => ?_
  constructor
  · rintro (⟨rfl, rfl⟩ | ⟨tag, _, rest, rfl, rfl, h⟩)
    · exact .missing
    split at h
    · exact h.elim
    split at h
    · rename_i ht
      obtain ⟨hl, rfl⟩ := h
      rw [ht]
      exact .integer hl
    split at h
    · rename_i ht
      rw [ht]
      rcases h with ⟨hl, rfl⟩ | ⟨n, word, rest, hw, rfl, hl, rfl⟩ | ⟨word, text, rest, hw, rfl, hs, rfl⟩
      · exact .textLength hl
      · exact @OperandFlaw.text n word rest hw hl
      · exact @OperandFlaw.utf8 word text rest hw hs
    split at h
    · rename_i ht
      obtain ⟨rfl, rfl⟩ := h
      rw [ht]
      exact .boolean
    · rename_i hnone hinteger htext hboolean
      rw [h]
      exact .tag (not_tag_iff.2 ⟨hnone, hinteger, htext, hboolean⟩)
  · intro h
    cases h with
    | missing => exact .inl ⟨rfl, rfl⟩
    | @tag t rest ht =>
      obtain ⟨hnone, hinteger, htext, hboolean⟩ := not_tag_iff.1 ht
      refine .inr ⟨t, [t], rest, rfl, rfl, ?_⟩
      rw [if_neg hnone, if_neg hinteger, if_neg htext, if_neg hboolean]
    | integer hl => exact .inr ⟨tagInteger, _, _, rfl, rfl, hl, rfl⟩
    | textLength hl => exact .inr ⟨tagText, _, _, rfl, rfl, .inl ⟨hl, rfl⟩⟩
    | text hw hl => exact .inr ⟨tagText, _, _, rfl, rfl, .inr (.inl ⟨_, _, _, hw, rfl, hl, rfl⟩)⟩
    | utf8 hw ht => exact .inr ⟨tagText, _, _, rfl, rfl, .inr (.inr ⟨_, _, _, hw, rfl, ht, rfl⟩)⟩
    | boolean => exact .inr ⟨tagBoolean, _, _, rfl, rfl, rfl, rfl⟩

theorem refuses_readInstruction : Refuses Flaw readInstruction := by
  refine (refuses_readOpcode.bind exact_readOpcode fun opcode =>
    refuses_readOperand.map fun operand => ({ opcode, operand } : Instruction)).congr
    fun bytes e => ?_
  constructor
  · rintro ((⟨rfl, rfl⟩ | ⟨b, rest, rfl, hb, rfl⟩) | ⟨op, _, rest, rfl, rfl, ho⟩)
    · exact .missing
    · exact .opcode hb
    · exact .operand ho
  · intro h
    cases h with
    | missing => exact .inl (.inl ⟨rfl, rfl⟩)
    | opcode hb => exact .inl (.inr ⟨_, _, rfl, hb, rfl⟩)
    | operand ho => exact .inr ⟨_, _, _, rfl, rfl, ho⟩

theorem refuses_readInstructions (count : Nat) (program : Program) :
    Refuses (fun bytes e => ∃ instructions rest,
      Begins instructions rest bytes ∧ instructions.length < count ∧ Flaw rest e)
      (readInstructions count program) := by
  induction count generalizing program with
  | zero =>
    refine (Refuses.pure program).congr fun bytes e => ?_
    simp
  | succ count ih =>
    rw [readInstructions_succ]
    refine (refuses_readInstruction.bind exact_readInstruction fun ins => ih (program.push ins)).congr
      fun bytes e => ?_
    constructor
    · rintro (hflaw | ⟨ins, front, _, hi, rfl, instructions, rest, ⟨back, hb, rfl⟩, hlt, hflaw⟩)
      · exact ⟨[], bytes, ⟨[], .nil, rfl⟩, Nat.succ_pos _, hflaw⟩
      · exact ⟨ins :: instructions, rest, ⟨_, .cons hi hb, (List.append_assoc ..).symm⟩,
          Nat.succ_lt_succ hlt, hflaw⟩
    · rintro ⟨instructions, rest, ⟨_, hb, rfl⟩, hlt, hflaw⟩
      cases hb with
      | nil => exact .inl hflaw
      | cons hi hr =>
        exact .inr ⟨_, _, _, hi, List.append_assoc .., _, _, ⟨_, hr, rfl⟩, Nat.lt_of_succ_lt_succ hlt,
          hflaw⟩

/-! ## The longest parse -/

/-- Instructions that bytes begin with are what a reader takes off the front. -/
theorem begins_iff_readInstructions {instructions : List Instruction} {rest bytes : Bytes} :
    Begins instructions rest bytes ↔
      readInstructions instructions.length #[] bytes = .ok (instructions.toArray, rest) := by
  rw [exact_readInstructions instructions.length #[] bytes instructions.toArray rest]
  constructor
  · intro h
    obtain ⟨front, hb, rfl⟩ := h
    exact ⟨front, ⟨instructions, hb, rfl, by simp⟩, rfl⟩
  · intro h
    obtain ⟨front, ⟨instructions', hb, hl, heq⟩, rfl⟩ := h
    obtain rfl : instructions = instructions' := by simpa using heq
    exact ⟨front, hb, rfl⟩

/-- Equally many instructions leave the same rest. -/
theorem Begins.unique {instructions instructions' : List Instruction} {rest rest' bytes : Bytes}
    (h : Begins instructions rest bytes) (h' : Begins instructions' rest' bytes)
    (hl : instructions'.length = instructions.length) : instructions' = instructions ∧ rest' = rest := by
  have hread := begins_iff_readInstructions.1 h
  have hread' := begins_iff_readInstructions.1 h'
  rw [hl, hread] at hread'
  cases hread'
  exact ⟨rfl, rfl⟩

/-- Of instructions that bytes begin with, some may be left to the rest. -/
theorem Begins.split {first second : List Instruction} {rest bytes : Bytes}
    (h : Begins (first ++ second) rest bytes) :
    ∃ middle, Begins first middle bytes ∧ Begins second rest middle := by
  induction first generalizing bytes with
  | nil => exact ⟨bytes, ⟨[], .nil, rfl⟩, h⟩
  | cons ins first ih =>
    obtain ⟨_, hbody, rfl⟩ := h
    cases hbody with
    | @cons _ _ front back hi hr =>
      obtain ⟨middle, ⟨front', hfirst, heq⟩, hsecond⟩ := ih ⟨back, hr, rfl⟩
      refine ⟨middle, ⟨front ++ front', .cons hi hfirst, ?_⟩, hsecond⟩
      rw [List.append_assoc, List.append_assoc, heq]

/-- Bytes with a flaw do not begin with an instruction. -/
theorem Flaw.not_begins {bytes rest : Bytes} {e : DecodeError} {ins : Instruction}
    {instructions : List Instruction} (h : Flaw bytes e) :
    ¬ Begins (ins :: instructions) rest bytes := by
  intro hbegins
  obtain ⟨_, hbody, rfl⟩ := hbegins
  cases hbody with
  | @cons _ _ front back hi hr =>
    have hok : readInstruction (front ++ back ++ rest) = .ok (ins, back ++ rest) :=
      (exact_readInstruction _ _ _).2 ⟨front, hi, List.append_assoc ..⟩
    rw [(refuses_readInstruction _ _).2 h] at hok
    cases hok

/-- A parse that stops at a flaw cannot be longer. -/
theorem Begins.longestParse_of_flaw {count : Nat} {bytes rest : Bytes} {e : DecodeError}
    {instructions : List Instruction} (h : Begins instructions rest bytes)
    (hlt : instructions.length < count) (hflaw : Flaw rest e) :
    LongestParse count bytes instructions rest where
  begins := h
  length_le := Nat.le_of_lt hlt
  longest instructions' rest' h' _ := by
    refine Nat.le_of_not_lt fun hlonger => ?_
    -- The longer parse begins with the shorter one, and its next instruction is where the flaw is.
    have hsplit : Begins (instructions'.take instructions.length ++
        instructions'.drop instructions.length) rest' bytes := by
      rw [List.take_append_drop]
      exact h'
    obtain ⟨middle, hfirst, hsecond⟩ := hsplit.split
    obtain ⟨-, rfl⟩ := h.unique hfirst (by rw [List.length_take]; omega)
    cases hdrop : instructions'.drop instructions.length with
    | nil =>
      have hle := List.drop_eq_nil_iff.1 hdrop
      omega
    | cons ins others =>
      rw [hdrop] at hsecond
      exact hflaw.not_begins hsecond

theorem LongestParse.unique {count : Nat} {bytes rest rest' : Bytes}
    {instructions instructions' : List Instruction} (h : LongestParse count bytes instructions rest)
    (h' : LongestParse count bytes instructions' rest') :
    instructions' = instructions ∧ rest' = rest := by
  have hle := h.longest _ _ h'.begins h'.length_le
  have hge := h'.longest _ _ h.begins h.length_le
  exact h.begins.unique h'.begins (Nat.le_antisymm hle hge)

/-- Reading gives the longest parse, and fails if that has too few instructions. -/
theorem longestParse_of_readInstructions (count : Nat) (bytes : Bytes) :
    (∃ program rest, readInstructions count #[] bytes = .ok (program, rest) ∧
      program.size = count ∧ LongestParse count bytes program.toList rest) ∨
    ∃ e instructions rest, readInstructions count #[] bytes = .error e ∧
      instructions.length < count ∧ LongestParse count bytes instructions rest ∧ Flaw rest e := by
  cases hread : readInstructions count #[] bytes with
  | ok pair =>
    obtain ⟨program, rest⟩ := pair
    obtain ⟨front, ⟨instructions, hb, hl, hprogram⟩, rfl⟩ :=
      (exact_readInstructions count #[] bytes program rest).1 hread
    obtain rfl : program = instructions.toArray := by simpa using hprogram
    refine .inl ⟨_, rest, rfl, by simpa using hl, ⟨front, hb, rfl⟩, Nat.le_of_eq hl, ?_⟩
    intro instructions' rest' _ hle
    exact Nat.le_trans hle (Nat.le_of_eq hl.symm)
  | error e =>
    obtain ⟨instructions, rest, hbegins, hlt, hflaw⟩ :=
      (refuses_readInstructions count #[] bytes e).1 hread
    exact .inr ⟨e, instructions, rest, rfl, hlt, hbegins.longestParse_of_flaw hlt hflaw, hflaw⟩

theorem exists_longestParse (count : Nat) (bytes : Bytes) :
    ∃ instructions rest, LongestParse count bytes instructions rest := by
  rcases longestParse_of_readInstructions count bytes with
    ⟨program, rest, -, -, h⟩ | ⟨-, instructions, rest, -, -, h, -⟩
  · exact ⟨_, rest, h⟩
  · exact ⟨instructions, rest, h⟩

/-! ## The decoder -/

theorem readHeader_of_short {file : Bytes} (h : file.length < 12) :
    readHeader file = .error .tooShort := by
  unfold readHeader
  split
  · simp only [List.length_cons] at h
    omega
  · rfl

theorem exists_header {file : Bytes} (h : ¬ file.length < 12) :
    ∃ m₀ m₁ m₂ m₃ major minor patch reserved a b c d body, file =
      m₀ :: m₁ :: m₂ :: m₃ :: major :: minor :: patch :: reserved :: a :: b :: c :: d :: body := by
  match file with
  | m₀ :: m₁ :: m₂ :: m₃ :: major :: minor :: patch :: reserved :: a :: b :: c :: d :: body =>
    exact ⟨m₀, m₁, m₂, m₃, major, minor, patch, reserved, a, b, c, d, body, rfl⟩
  | [] | [_] | [_, _] | [_, _, _] | [_, _, _, _] | [_, _, _, _, _] | [_, _, _, _, _, _]
  | [_, _, _, _, _, _, _] | [_, _, _, _, _, _, _, _] | [_, _, _, _, _, _, _, _, _]
  | [_, _, _, _, _, _, _, _, _, _] | [_, _, _, _, _, _, _, _, _, _, _] =>
    simp at h

/-- What is wrong after the header: an instruction that is not well-formed, or bytes left over. -/
theorem readInstructions_then_end_eq_error_iff (count : Nat) (body : Bytes) (e : DecodeError) :
    (match readInstructions count #[] body with
      | .error e => .error e
      | .ok (program, rest) =>
        if rest.isEmpty then .ok program else .error (.trailingBytes rest.length)) =
          (.error e : Except DecodeError Program) ↔
      ∃ instructions rest, LongestParse count body instructions rest ∧
        if instructions.length = count then 0 < rest.length ∧ e = .trailingBytes rest.length
        else Flaw rest e := by
  rcases longestParse_of_readInstructions count body with
    ⟨program, rest, hread, hsize, hparse⟩ | ⟨e', instructions, rest, hread, hlt, hparse, hflaw⟩
  · have hlength : program.toList.length = count := by simpa using hsize
    rw [hread]
    constructor
    · intro h
      refine ⟨_, rest, hparse, ?_⟩
      rw [if_pos hlength]
      cases rest with
      | nil => cases h
      | cons b rest =>
        cases h
        exact ⟨Nat.succ_pos _, rfl⟩
    · intro h
      obtain ⟨instructions', rest', hparse', h⟩ := h
      obtain ⟨rfl, rfl⟩ := hparse.unique hparse'
      rw [if_pos hlength] at h
      obtain ⟨hpos, rfl⟩ := h
      cases rest' with
      | nil => cases hpos
      | cons b rest => rfl
  · have hne : instructions.length ≠ count := Nat.ne_of_lt hlt
    rw [hread]
    constructor
    · intro h
      cases h
      refine ⟨instructions, rest, hparse, ?_⟩
      rw [if_neg hne]
      exact hflaw
    · intro h
      obtain ⟨instructions', rest', hparse', h⟩ := h
      obtain ⟨rfl, rfl⟩ := hparse.unique hparse'
      rw [if_neg hne] at h
      -- A rest has one flaw only, since a reader names it.
      have he := (refuses_readInstruction _ _).2 h
      rw [(refuses_readInstruction _ _).2 hflaw] at he
      cases he
      rfl

theorem decode_eq_error_iff (file : Bytes) (e : DecodeError) :
    decode file = .error e ↔ FirstFlaw file e := by
  rw [decode_eq]
  unfold FirstFlaw
  by_cases hshort : file.length < 12
  · rw [readHeader_of_short hshort, if_pos hshort, Except.error.injEq, eq_comm]
  · obtain ⟨m₀, m₁, m₂, m₃, major, minor, patch, reserved, a, b, c, d, body, rfl⟩ :=
      exists_header hshort
    have hsize : body.length + 12 - 12 = body.length := Nat.add_sub_cancel ..
    rw [if_neg hshort]
    simp only [readHeader, List.length_cons, List.take_succ_cons, List.take_zero,
      List.drop_succ_cons, List.drop_zero, List.getD_cons_succ, List.getD_cons_zero, hsize,
      bigEndian_four]
    by_cases hmagic : [m₀, m₁, m₂, m₃] ≠ magic
    · have hmagic' : [m₀, m₁, m₂, m₃] ≠ [0x53, 0x56, 0x4D, 0x42] := hmagic
      rw [if_pos hmagic, if_pos hmagic', Except.error.injEq, eq_comm]
    · have hmagic' : ¬ [m₀, m₁, m₂, m₃] ≠ [0x53, 0x56, 0x4D, 0x42] := hmagic
      rw [if_neg hmagic, if_neg hmagic']
      by_cases hmajor : major ≠ majorVersion
      · have hmajor' : major ≠ 1 := hmajor
        rw [if_pos hmajor, if_pos hmajor', Except.error.injEq, eq_comm]
      · have hmajor' : ¬ major ≠ 1 := hmajor
        rw [if_neg hmajor, if_neg hmajor']
        by_cases hcount : body.length / 2 < wordOfBytes a b c d
        · simp only [minInstructionSize, hcount, if_true, Except.error.injEq, eq_comm]
        · simp only [minInstructionSize, hcount, if_false]
          exact readInstructions_then_end_eq_error_iff (wordOfBytes a b c d) body e

/-- The decoder refuses a file precisely for the first thing wrong with it, reading from left to right.
The longest parse, which says where that is, always exists and is the only one. -/
theorem decode_refuses_first_flaw (file : Bytes) (e : DecodeError) :
    (decode file = .error e ↔ FirstFlaw file e) ∧
    ∀ count body, ∃ instructions rest, LongestParse count body instructions rest ∧
      ∀ instructions' rest', LongestParse count body instructions' rest' →
        instructions' = instructions ∧ rest' = rest := by
  refine ⟨decode_eq_error_iff file e, ?_⟩
  intro count body
  obtain ⟨instructions, rest, h⟩ := exists_longestParse count body
  exact ⟨instructions, rest, h, fun _ _ h' => h.unique h'⟩

end StackMachine.Bytecode
