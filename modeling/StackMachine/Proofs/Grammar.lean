-- SUMMARY: The decoder accepts exactly the files of a grammar.
import StackMachine.Bytecode.Decode

/-!
# The grammar of program files

What a program file looks like, said without a reader: numbers are spelled by bytes, an operand
follows its tag, and a file is its header, its count and its instructions with nothing in between.

The main statement is that the decoder accepts exactly the files of this grammar. It is assembled from
one statement per reader: each reader is `Exact`, that is, it takes off the front of its input
precisely the bytes of the form it reads, whatever follows them.
-/

namespace StackMachine.Bytecode

/-! ## Forms -/

/-- The number that bytes spell in base 256, the most significant byte first. -/
def bigEndian (bytes : Bytes) : Nat :=
  bytes.foldl (fun n b => n * 256 + b.toNat) 0

/-- Four bytes that spell `n`. -/
def IsWord (n : Nat) (bytes : Bytes) : Prop :=
  bytes.length = 4 ∧ bigEndian bytes = n

/-- The residue that stands for an integer in 32 bits: itself if it is not negative, and `2 ^ 32` more
if it is. -/
def twosComplement (n : Int32) : Nat :=
  (n.toInt % 0x100000000).toNat

/-- The UTF-8 bytes of a text, character by character. -/
def textBytes (s : String) : Bytes :=
  s.toList.flatMap String.utf8EncodeChar

/-- The bytes of an operand: a tag and, except for an absent operand, a payload. -/
inductive IsOperand : Option Value → Bytes → Prop where
  | none : IsOperand none [0x00]
  | integer {n : Int32} {word : Bytes} (hw : IsWord (twosComplement n) word) :
      IsOperand (some (.integer n)) (0x01 :: word)
  | text {s : String} {word : Bytes} (hw : IsWord (textBytes s).length word) :
      IsOperand (some (.text s)) (0x02 :: (word ++ textBytes s))
  | boolean {b : Bool} {payload : UInt8} (hb : b = true ↔ payload ≠ 0) :
      IsOperand (some (.boolean b)) [0x03, payload]

/-- The bytes of an instruction: its opcode byte and those of its operand. -/
def IsInstruction (ins : Instruction) (bytes : Bytes) : Prop :=
  ∃ operand, IsOperand ins.operand operand ∧ bytes = ins.opcode.byte :: operand

/-- The bytes of instructions that follow each other without a gap. -/
inductive IsBody : List Instruction → Bytes → Prop where
  | nil : IsBody [] []
  | cons {ins : Instruction} {rest : List Instruction} {front back : Bytes}
      (hi : IsInstruction ins front) (hr : IsBody rest back) : IsBody (ins :: rest) (front ++ back)

/-- The bytes of the file of a program. The minor version, the patch version and the reserved byte may
be anything. -/
def IsFile (program : Program) (file : Bytes) : Prop :=
  ∃ minor patch reserved count body,
    IsWord program.size count ∧ IsBody program.toList body ∧
      file = [0x53, 0x56, 0x4D, 0x42] ++ [1, minor, patch, reserved] ++ count ++ body

/-! ## Words and texts -/

theorem bigEndian_four (a b c d : UInt8) : bigEndian [a, b, c, d] = wordOfBytes a b c d := by
  simp only [bigEndian, wordOfBytes, List.foldl_cons, List.foldl_nil, Nat.add_mul, Nat.mul_assoc,
    Nat.zero_mul, Nat.zero_add, Nat.reduceMul]

theorem isWord_iff {n : Nat} {bytes : Bytes} :
    IsWord n bytes ↔ ∃ a b c d, bytes = [a, b, c, d] ∧ wordOfBytes a b c d = n := by
  constructor
  · rintro ⟨hl, hn⟩
    match bytes, hl with
    | [a, b, c, d], _ => exact ⟨a, b, c, d, rfl, (bigEndian_four a b c d).symm.trans hn⟩
  · rintro ⟨a, b, c, d, rfl, hn⟩
    exact ⟨rfl, (bigEndian_four a b c d).trans hn⟩

theorem IsWord.lt {n : Nat} {bytes : Bytes} (h : IsWord n bytes) : n < wordBound := by
  obtain ⟨a, b, c, d, -, rfl⟩ := isWord_iff.mp h
  exact wordOfBytes_lt a b c d

theorem isWord_wordBytes {n : Nat} (h : n < wordBound) : IsWord n (wordBytes n) := by
  refine isWord_iff.mpr ⟨_, _, _, _, rfl, ?_⟩
  simp only [wordBound] at h
  simp only [wordOfBytes, UInt8.toNat_ofNat']
  omega

theorem twosComplement_eq (n : Int32) : twosComplement n = n.toUInt32.toNat := by
  have h : BitVec.ofInt 32 n.toBitVec.toInt = n.toBitVec := BitVec.ofInt_toInt
  calc twosComplement n
      = (BitVec.ofInt 32 n.toBitVec.toInt).toNat := by rw [BitVec.toNat_ofInt]; rfl
    _ = n.toBitVec.toNat := by rw [h]
    _ = n.toUInt32.toNat := rfl

theorem toInt32_ofNat_eq {n : Int32} {k : Nat} (h : k < wordBound) :
    (UInt32.ofNat k).toInt32 = n ↔ k = twosComplement n := by
  rw [twosComplement_eq]
  constructor
  · rintro rfl
    exact (UInt32.toNat_ofNat_of_lt' h).symm
  · rintro rfl
    rw [UInt32.ofNat_toNat, Int32.toInt32_toUInt32]

theorem toList_utf8 (s : String) : (Text.utf8 s).toList = textBytes s := by
  simp [Text.utf8, textBytes, String.toUTF8_eq_toByteArray, ← String.utf8Encode_toList, List.utf8Encode,
    List.data_toByteArray]

theorem length_textBytes (s : String) : (textBytes s).length = s.utf8ByteSize := by
  rw [← toList_utf8, Array.length_toList, ← String.size_toByteArray]
  rfl

theorem ofUtf8?_eq_some {bytes : Bytes} {s : String} :
    Text.ofUtf8? bytes.toArray = some s ↔ bytes = textBytes s := by
  constructor
  · intro h
    simp only [Text.ofUtf8?, String.fromUTF8?] at h
    split at h
    · cases h
      rw [← toList_utf8]
      rfl
    · cases h
  · rintro rfl
    rw [← toList_utf8, Array.toArray_toList, Text.ofUtf8?_utf8]

/-! ## Exact readers -/

/-- A reader is exact for a form if it succeeds precisely on the bytes of that form, followed by
anything, and hands back what follows. -/
def Exact {α : Type} (form : α → Bytes → Prop) (read : Reader α) : Prop :=
  ∀ bytes a rest, read bytes = .ok (a, rest) ↔ ∃ front, form a front ∧ bytes = front ++ rest

/-- Go on with a value if there is one, without reading anything. -/
def Reader.orFail {α : Type} (value : Option α) (e : DecodeError) : Reader α := fun bytes =>
  match value with
  | some a => .ok (a, bytes)
  | none => .error e

namespace Exact

variable {α β : Type} {form : α → Bytes → Prop} {read : Reader α}

theorem congr {form' : α → Bytes → Prop} (h : Exact form read)
    (heq : ∀ a front, form a front ↔ form' a front) : Exact form' read := by
  intro bytes a rest
  simp only [h bytes a rest, heq]

theorem pure (a : α) : Exact (fun b front => b = a ∧ front = []) (fun bytes => .ok (a, bytes)) := by
  intro bytes b rest
  constructor
  · intro h
    cases h
    exact ⟨[], ⟨rfl, rfl⟩, rfl⟩
  · rintro ⟨front, ⟨rfl, rfl⟩, rfl⟩
    rfl

theorem fail (e : DecodeError) : Exact (fun (_ : α) _ => False) (fun _ => .error e) := by
  intro bytes a rest
  constructor
  · intro h
    cases h
  · rintro ⟨front, h, -⟩
    exact h.elim

theorem orFail (value : Option α) (e : DecodeError) :
    Exact (fun a front => value = some a ∧ front = []) (Reader.orFail value e) := by
  cases value with
  | some a =>
    refine (pure a).congr fun b front => ?_
    rw [Option.some.injEq, eq_comm]
  | none =>
    refine (fail e).congr fun b front => ?_
    simp

theorem bind {form' : α → β → Bytes → Prop} {next : α → Reader β} (h : Exact form read)
    (hn : ∀ a, Exact (form' a) (next a)) :
    Exact (fun b bytes => ∃ a front back, form a front ∧ form' a b back ∧ bytes = front ++ back)
      (fun bytes => do
        let (a, rest) ← read bytes
        next a rest) := by
  intro bytes b rest
  constructor
  · intro hb
    cases hr : read bytes with
    | error e =>
      simp only [hr] at hb
      cases hb
    | ok pair =>
      obtain ⟨a, mid⟩ := pair
      simp only [hr] at hb
      obtain ⟨front, hf, rfl⟩ := (h _ _ _).mp hr
      obtain ⟨back, hbk, rfl⟩ := (hn a _ _ _).mp hb
      exact ⟨front ++ back, ⟨a, front, back, hf, hbk, rfl⟩, (List.append_assoc ..).symm⟩
  · rintro ⟨_, ⟨a, front, back, hf, hbk, rfl⟩, rfl⟩
    have hr : read (front ++ back ++ rest) = .ok (a, back ++ rest) :=
      (h _ _ _).mpr ⟨front, hf, List.append_assoc ..⟩
    simp only [hr]
    exact (hn a _ _ _).mpr ⟨back, hbk, rfl⟩

/-- Bytes begin with one thing of a form at most. -/
theorem unique {a b : α} {front front' rest rest' : Bytes} (h : Exact form read) (ha : form a front)
    (hb : form b front') (heq : front ++ rest = front' ++ rest') :
    b = a ∧ front' = front ∧ rest' = rest := by
  have hread := (h _ a rest).mpr ⟨front, ha, rfl⟩
  have hread' := (h _ b rest').mpr ⟨front', hb, heq⟩
  rw [hread] at hread'
  cases hread'
  exact ⟨rfl, (List.append_cancel_right heq).symm, rfl⟩

/-- Reading a value and converting it. -/
theorem map (h : Exact form read) (f : α → β) :
    Exact (fun b bytes => ∃ a, form a bytes ∧ b = f a)
      (fun bytes => do
        let (a, rest) ← read bytes
        return (f a, rest)) := by
  refine (h.bind fun a => pure (f a)).congr fun b bytes => ?_
  constructor
  · rintro ⟨a, front, _, hf, ⟨rfl, rfl⟩, rfl⟩
    exact ⟨a, by rwa [List.append_nil], rfl⟩
  · rintro ⟨a, hf, rfl⟩
    exact ⟨a, bytes, [], hf, ⟨rfl, rfl⟩, (List.append_nil bytes).symm⟩

theorem ite {c : Prop} [Decidable c] {form' : α → Bytes → Prop} {read' : Reader α}
    (h : Exact form read) (h' : Exact form' read') :
    Exact (fun a bytes => if c then form a bytes else form' a bytes)
      (fun bytes => if c then read bytes else read' bytes) := by
  by_cases hc : c
  · simpa only [hc, if_true] using h
  · simpa only [hc, if_false] using h'

end Exact

/-! ## The readers of the decoder -/

theorem exact_readByte : Exact (fun b front => front = [b]) readByte := by
  intro bytes b rest
  cases bytes with
  | nil => simp [readByte]
  | cons c bytes => simp [readByte, and_comm]

theorem exact_readWord : Exact IsWord readWord := by
  intro bytes n rest
  constructor
  · intro h
    unfold readWord at h
    split at h
    · rename_i a b c d tail
      cases h
      exact ⟨[a, b, c, d], isWord_iff.mpr ⟨a, b, c, d, rfl, rfl⟩, rfl⟩
    · cases h
  · rintro ⟨front, hf, rfl⟩
    obtain ⟨a, b, c, d, rfl, rfl⟩ := isWord_iff.mp hf
    rfl

theorem exact_readBytes (n : Nat) :
    Exact (fun text front => front = text ∧ text.length = n) (readBytes n) := by
  intro bytes text rest
  simp only [readBytes]
  constructor
  · intro h
    split at h
    · rename_i hl
      cases h
      exact ⟨_, ⟨rfl, hl⟩, (List.take_append_drop n bytes).symm⟩
    · cases h
  · rintro ⟨front, ⟨rfl, rfl⟩, rfl⟩
    simp

theorem readOpcode_eq : readOpcode = (fun bytes => do
    let (b, rest) ← readByte bytes
    Reader.orFail (Opcode.ofByte? b) (.invalidOpcode b) rest) := by
  funext bytes
  simp only [readOpcode, Reader.orFail, bind, Except.bind]
  split
  · rfl
  · rename_i read _
    cases Opcode.ofByte? read.1 <;> rfl

theorem exact_readOpcode : Exact (fun op front => front = [op.byte]) readOpcode := by
  rw [readOpcode_eq]
  refine (exact_readByte.bind fun b => Exact.orFail (Opcode.ofByte? b) _).congr fun op front => ?_
  constructor
  · rintro ⟨b, _, _, rfl, ⟨hb, rfl⟩, rfl⟩
    rw [Opcode.byte_of_ofByte? hb]
    rfl
  · rintro rfl
    exact ⟨_, _, _, rfl, ⟨Opcode.ofByte?_byte op, rfl⟩, rfl⟩

theorem exact_readInteger : Exact (fun n => IsWord (twosComplement n)) readInteger := by
  refine (exact_readWord.map fun n => (UInt32.ofNat n).toInt32).congr fun n front => ?_
  constructor
  · rintro ⟨k, hk, rfl⟩
    rwa [← (toInt32_ofNat_eq hk.lt).mp rfl]
  · intro h
    exact ⟨_, h, ((toInt32_ofNat_eq h.lt).mpr rfl).symm⟩

theorem exact_readBoolean :
    Exact (fun b front => ∃ payload, (b = true ↔ payload ≠ 0) ∧ front = [payload]) readBoolean := by
  refine (exact_readByte.map fun payload => decide (payload ≠ 0)).congr fun b front => ?_
  constructor
  · rintro ⟨payload, rfl, rfl⟩
    exact ⟨payload, decide_eq_true_iff, rfl⟩
  · rintro ⟨payload, hb, rfl⟩
    exact ⟨payload, rfl, by rw [Bool.eq_iff_iff, hb, decide_eq_true_iff]⟩

theorem readText_eq : readText = (fun bytes => do
    let (length, rest) ← readWord bytes
    let (text, rest) ← readBytes length rest
    Reader.orFail (Text.ofUtf8? text.toArray) .invalidUtf8 rest) := by
  funext bytes
  simp only [readText, Reader.orFail, bind, Except.bind]
  split
  · rfl
  · split
    · rfl
    · rename_i read _
      cases Text.ofUtf8? read.1.toArray <;> rfl

theorem exact_readText :
    Exact (fun s front => ∃ word, IsWord (textBytes s).length word ∧ front = word ++ textBytes s)
      readText := by
  rw [readText_eq]
  refine (exact_readWord.bind fun length => (exact_readBytes length).bind fun text =>
    Exact.orFail (Text.ofUtf8? text.toArray) _).congr fun s front => ?_
  constructor
  · rintro ⟨_, word, _, hw, ⟨_, _, _, ⟨rfl, rfl⟩, ⟨ht, rfl⟩, rfl⟩, rfl⟩
    obtain rfl := ofUtf8?_eq_some.mp ht
    exact ⟨word, hw, by rw [List.append_nil]⟩
  · rintro ⟨word, hw, rfl⟩
    have ht : Text.ofUtf8? (textBytes s).toArray = some s := ofUtf8?_eq_some.mpr rfl
    exact ⟨_, word, _, hw, ⟨_, _, [], ⟨rfl, rfl⟩, ⟨ht, rfl⟩, (List.append_nil _).symm⟩, rfl⟩

theorem exact_readOperand : Exact IsOperand readOperand := by
  refine (exact_readByte.bind fun tag =>
    Exact.ite (c := tag = tagNone) (Exact.pure none) <|
    Exact.ite (c := tag = tagInteger) (exact_readInteger.map fun n => some (Value.integer n)) <|
    Exact.ite (c := tag = tagText) (exact_readText.map fun s => some (Value.text s)) <|
    Exact.ite (c := tag = tagBoolean) (exact_readBoolean.map fun b => some (Value.boolean b)) <|
    Exact.fail (.invalidTag tag)).congr fun operand bytes => ?_
  constructor
  · rintro ⟨tag, _, payload, rfl, h, rfl⟩
    split at h
    · rename_i ht
      obtain ⟨rfl, rfl⟩ := h
      rw [ht]
      exact .none
    split at h
    · rename_i ht
      obtain ⟨n, hw, rfl⟩ := h
      rw [ht]
      exact .integer hw
    split at h
    · rename_i ht
      obtain ⟨s, ⟨word, hw, rfl⟩, rfl⟩ := h
      rw [ht]
      exact .text hw
    split at h
    · rename_i ht
      obtain ⟨b, ⟨payload, hb, rfl⟩, rfl⟩ := h
      rw [ht]
      exact .boolean hb
    · exact h.elim
  · intro h
    cases h with
    | none => exact ⟨tagNone, _, _, rfl, ⟨rfl, rfl⟩, rfl⟩
    | integer hw => exact ⟨tagInteger, _, _, rfl, ⟨_, hw, rfl⟩, rfl⟩
    | text hw => exact ⟨tagText, _, _, rfl, ⟨_, ⟨_, hw, rfl⟩, rfl⟩, rfl⟩
    | boolean hb => exact ⟨tagBoolean, _, _, rfl, ⟨_, ⟨_, hb, rfl⟩, rfl⟩, rfl⟩

theorem exact_readInstruction : Exact IsInstruction readInstruction := by
  refine (exact_readOpcode.bind fun opcode =>
    exact_readOperand.map fun operand => ({ opcode, operand } : Instruction)).congr
    fun ins bytes => ?_
  constructor
  · rintro ⟨opcode, _, _, rfl, ⟨operand, ho, rfl⟩, rfl⟩
    exact ⟨_, ho, rfl⟩
  · rintro ⟨operand, ho, rfl⟩
    exact ⟨_, _, _, rfl, ⟨_, ho, rfl⟩, rfl⟩

theorem readInstructions_succ (count : Nat) (program : Program) :
    readInstructions (count + 1) program = (fun bytes => do
      let (ins, rest) ← readInstruction bytes
      readInstructions count (program.push ins) rest) := by
  funext bytes
  rw [readInstructions]
  cases readInstruction bytes <;> rfl

theorem exact_readInstructions (count : Nat) (program : Program) :
    Exact (fun program' bytes => ∃ instructions, IsBody instructions bytes ∧
        instructions.length = count ∧ program' = program ++ instructions)
      (readInstructions count program) := by
  -- The count drives the loop; the program read so far is generalized, since each turn extends it.
  induction count generalizing program with
  | zero =>
    refine (Exact.pure program).congr fun program' bytes => ?_
    constructor
    · rintro ⟨rfl, rfl⟩
      exact ⟨[], .nil, rfl, by simp⟩
    · rintro ⟨instructions, hb, hl, rfl⟩
      obtain rfl := List.eq_nil_of_length_eq_zero hl
      cases hb
      exact ⟨by simp, rfl⟩
  | succ count ih =>
    rw [readInstructions_succ]
    refine (exact_readInstruction.bind fun ins => ih (program.push ins)).congr
      fun program' bytes => ?_
    constructor
    · rintro ⟨ins, front, back, hi, ⟨instructions, hb, rfl, rfl⟩, rfl⟩
      exact ⟨ins :: instructions, .cons hi hb, rfl, by simp⟩
    · rintro ⟨instructions, hb, hl, rfl⟩
      cases hb with
      | nil => cases hl
      | cons hi hr =>
        exact ⟨_, _, _, hi, ⟨_, hr, by simpa using hl, by simp⟩, rfl⟩

theorem exact_readHeader :
    Exact (fun count bytes => ∃ minor patch reserved word, IsWord count word ∧
      bytes = [0x53, 0x56, 0x4D, 0x42] ++ [1, minor, patch, reserved] ++ word) readHeader := by
  intro bytes count rest
  constructor
  · intro h
    unfold readHeader at h
    split at h
    · rename_i m₀ m₁ m₂ m₃ major minor patch reserved a b c d tail
      split at h
      · cases h
      · rename_i hmagic
        split at h
        · cases h
        · rename_i hmajor
          cases h
          obtain rfl : major = majorVersion := Decidable.not_not.mp hmajor
          have hm : [m₀, m₁, m₂, m₃] = magic := Decidable.not_not.mp hmagic
          refine ⟨magic ++ [majorVersion, minor, patch, reserved] ++ [a, b, c, d], ?_, ?_⟩
          · exact ⟨minor, patch, reserved, _, isWord_iff.mpr ⟨a, b, c, d, rfl, rfl⟩, rfl⟩
          · rw [← hm]
            rfl
    · cases h
  · rintro ⟨_, ⟨minor, patch, reserved, word, hw, rfl⟩, rfl⟩
    obtain ⟨a, b, c, d, rfl, rfl⟩ := isWord_iff.mp hw
    rfl

/-! ## Lengths -/

theorem IsOperand.length_pos {operand : Option Value} {bytes : Bytes} (h : IsOperand operand bytes) :
    0 < bytes.length := by
  cases h <;> exact Nat.zero_lt_succ _

theorem IsInstruction.two_le_length {ins : Instruction} {bytes : Bytes}
    (h : IsInstruction ins bytes) : 2 ≤ bytes.length := by
  obtain ⟨operand, ho, rfl⟩ := h
  exact Nat.succ_le_succ ho.length_pos

/-- Every instruction takes at least two bytes. -/
theorem IsBody.two_mul_length_le {instructions : List Instruction} {bytes : Bytes}
    (h : IsBody instructions bytes) : 2 * instructions.length ≤ bytes.length := by
  induction h with
  | nil => exact Nat.le_refl 0
  | cons hi _ ih =>
    have := hi.two_le_length
    simp only [List.length_cons, List.length_append]
    omega

/-! ## The decoder -/

theorem decode_eq (file : Bytes) : decode file =
    match readHeader file with
    | .error e => .error e
    | .ok (count, body) =>
      if body.length / minInstructionSize < count then .error .tooShort
      else match readInstructions count #[] body with
      | .error e => .error e
      | .ok (program, rest) =>
        if rest.isEmpty then .ok program else .error (.trailingBytes rest.length) := by
  rw [decode]
  cases readHeader file with
  | error e => rfl
  | ok header =>
    obtain ⟨count, body⟩ := header
    by_cases hshort : body.length / minInstructionSize < count
    · simp only [bind, Except.bind, hshort, if_true]
      rfl
    · simp only [bind, Except.bind, hshort, if_false]
      cases readInstructions count #[] body <;> rfl

theorem decode_eq_ok_iff {file : Bytes} {program : Program} :
    decode file = .ok program ↔ ∃ count body, readHeader file = .ok (count, body) ∧
      ¬ body.length / minInstructionSize < count ∧
      readInstructions count #[] body = .ok (program, []) := by
  rw [decode_eq]
  constructor
  · intro h
    split at h
    · cases h
    · rename_i count body hh
      split at h
      · cases h
      · rename_i hshort
        split at h
        · cases h
        · rename_i program' rest hr
          split at h
          · rename_i hrest
            cases h
            exact ⟨count, body, hh, hshort, by rw [hr, List.isEmpty_iff.mp hrest]⟩
          · cases h
  · rintro ⟨count, body, hh, hshort, hr⟩
    simp only [hh, hshort, if_false, hr, List.isEmpty_nil, if_true]

theorem isFile_iff_readHeader {file : Bytes} {program : Program} :
    IsFile program file ↔ ∃ body, readHeader file = .ok (program.size, body) ∧
      IsBody program.toList body := by
  constructor
  · rintro ⟨minor, patch, reserved, word, body, hw, hb, rfl⟩
    exact ⟨body, (exact_readHeader _ _ _).mpr ⟨_, ⟨minor, patch, reserved, word, hw, rfl⟩, rfl⟩, hb⟩
  · rintro ⟨body, hh, hb⟩
    obtain ⟨_, ⟨minor, patch, reserved, word, hw, rfl⟩, rfl⟩ := (exact_readHeader _ _ _).mp hh
    exact ⟨minor, patch, reserved, word, body, hw, hb, rfl⟩

theorem isBody_iff_readInstructions {program : Program} {count : Nat} {body : Bytes} :
    readInstructions count #[] body = .ok (program, []) ↔
      IsBody program.toList body ∧ program.size = count := by
  rw [exact_readInstructions count #[] body program []]
  constructor
  · rintro ⟨_, ⟨instructions, hb, rfl, rfl⟩, rfl⟩
    simpa using hb
  · rintro ⟨hb, rfl⟩
    exact ⟨body, ⟨program.toList, hb, by simp, by simp⟩, by simp⟩

/-- A body of well-formed instructions is long enough for the count check. -/
theorem IsBody.count_le {program : Program} {body : Bytes} (h : IsBody program.toList body) :
    ¬ body.length / minInstructionSize < program.size := by
  have := h.two_mul_length_le
  simp only [Array.length_toList] at this
  simp only [minInstructionSize]
  omega

theorem length_of_readHeader {file body : Bytes} {count : Nat}
    (h : readHeader file = .ok (count, body)) : body.length = file.length - headerSize := by
  obtain ⟨_, ⟨minor, patch, reserved, word, hw, rfl⟩, rfl⟩ := (exact_readHeader _ _ _).mp h
  have hl : word.length = 4 := hw.1
  simp [headerSize, hl]

theorem decode_eq_ok_iff_isFile {file : Bytes} {program : Program} :
    decode file = .ok program ↔ IsFile program file := by
  rw [decode_eq_ok_iff, isFile_iff_readHeader]
  constructor
  · rintro ⟨count, body, hh, -, hr⟩
    obtain ⟨hb, rfl⟩ := isBody_iff_readInstructions.mp hr
    exact ⟨body, hh, hb⟩
  · rintro ⟨body, hh, hb⟩
    exact ⟨program.size, body, hh, hb.count_le, isBody_iff_readInstructions.mpr ⟨hb, rfl⟩⟩

/-- The decoder accepts exactly the files of the grammar. In particular the count in such a file passes
the check that is made before any instruction is read. -/
theorem decode_accepts_grammar (file : Bytes) (program : Program) :
    (decode file = .ok program ↔ IsFile program file) ∧
      (IsFile program file → ∃ body, readHeader file = .ok (program.size, body) ∧
        body.length = file.length - 12 ∧ ¬ program.size > (file.length - 12) / 2) := by
  refine ⟨decode_eq_ok_iff_isFile, fun h => ?_⟩
  obtain ⟨body, hh, hb⟩ := isFile_iff_readHeader.mp h
  have hl := length_of_readHeader hh
  refine ⟨body, hh, hl, ?_⟩
  have hle := hb.count_le
  rw [hl] at hle
  exact hle

/-- A file with version bytes that are not zero, an absent operand, a negative integer and a boolean
whose payload is neither zero nor one. -/
theorem decode_loose_file :
    decode [0x53, 0x56, 0x4D, 0x42, 1, 7, 8, 9, 0, 0, 0, 3, 0x70, 0, 0x01, 1, 0xFF, 0xFF, 0xFF, 0xFE,
      0x01, 3, 0x80] = .ok #[⟨.print, none⟩, ⟨.push, some (.integer (-2))⟩,
        ⟨.push, some (.boolean true)⟩] := by
  have hprint : IsInstruction ⟨.print, none⟩ [0x70, 0] := ⟨_, .none, rfl⟩
  have hinteger : IsInstruction ⟨.push, some (.integer (-2))⟩ [0x01, 1, 0xFF, 0xFF, 0xFF, 0xFE] :=
    ⟨_, .integer ⟨rfl, by decide⟩, rfl⟩
  have hboolean : IsInstruction ⟨.push, some (.boolean true)⟩ [0x01, 3, 0x80] :=
    ⟨_, .boolean (by decide), rfl⟩
  have hbody := IsBody.cons hprint (.cons hinteger (.cons hboolean .nil))
  exact (decode_accepts_grammar _ _).1.mpr ⟨7, 8, 9, [0, 0, 0, 3], _, ⟨rfl, rfl⟩, hbody, rfl⟩

end StackMachine.Bytecode
