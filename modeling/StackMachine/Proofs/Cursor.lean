-- SUMMARY: Decoding in place never leaves the file and finds what decoding finds.
import StackMachine.Proofs.Malformed

/-!
# Decoding in place

The decoder takes bytes off the front of what is left of a file. The same can be done in place: the file
stays whole, and a cursor moves over it. Then a reader could go wrong in ways that are no fault of the
file. It could move the cursor beyond the end, or ask for a byte or a distance that does not exist, in
particular when the file spells a huge length.

Here are the readers in place, with an outcome of its own for every such step. The main statement is that
no reader comes to it, so that decoding in place is decoding. What a reader finds depends only on the
bytes that it passes, and it always passes some.
-/

namespace StackMachine.Bytecode.Cursor

/-! ## Readers in place -/

/-- Why reading in place stops: the file is refused, or something outside its bytes was asked for. -/
inductive Stop where
  | refused (e : DecodeError)
  | outside
  deriving DecidableEq, Repr

/-- Reads a part of the file from a cursor on and returns the cursor behind it. -/
abbrev ReaderAt (α : Type) := Bytes → Nat → Except Stop (α × Nat)

/-- A byte that must be there. -/
def index (bytes : Bytes) (i : Nat) : Except Stop UInt8 :=
  match bytes[i]? with
  | some b => .ok b
  | none => .error .outside

/-- The number of bytes behind a cursor that must not be beyond the end. -/
def distance (bytes : Bytes) (c : Nat) : Except Stop Nat :=
  if c ≤ bytes.length then .ok (bytes.length - c) else .error .outside

/-- The program, if nothing is left behind its last instruction. -/
def atEnd (program : Program) (bytes : Bytes) (c : Nat) : Except Stop Program := do
  if c = bytes.length then
    return program
  else
    throw (.refused (.trailingBytes (← distance bytes c)))

/-- Go on with a value if there is one. -/
def orRefuse {α : Type} (value : Option α) (e : DecodeError) : ReaderAt α := fun _ c =>
  match value with
  | some a => .ok (a, c)
  | none => .error (.refused e)

def byteAt : ReaderAt UInt8 := fun bytes c =>
  match bytes[c]? with
  | some b => .ok (b, c + 1)
  | none => .error (.refused .tooShort)

section Limited

-- The greatest number that a cursor can hold.
variable (limit : Nat)

/-- Exactly `n` bytes. An end that no cursor can hold is beyond the bytes. -/
def sliceAt (n : Nat) : ReaderAt Bytes := fun bytes c =>
  if c + n ≤ limit ∧ c + n ≤ bytes.length then .ok (bytes.extract c (c + n), c + n)
  else .error (.refused .tooShort)

def wordAt : ReaderAt Nat := fun bytes c => do
  let (raw, c) ← sliceAt limit 4 bytes c
  return (wordOfBytes (← index raw 0) (← index raw 1) (← index raw 2) (← index raw 3), c)

def integerAt : ReaderAt Int32 := fun bytes c => do
  let (n, c) ← wordAt limit bytes c
  return ((UInt32.ofNat n).toInt32, c)

def textAt : ReaderAt String := fun bytes c => do
  let (length, c) ← wordAt limit bytes c
  let (text, c) ← sliceAt limit length bytes c
  orRefuse (Text.ofUtf8? text.toArray) .invalidUtf8 bytes c

def booleanAt : ReaderAt Bool := fun bytes c => do
  let (b, c) ← byteAt bytes c
  return (b ≠ 0, c)

def operandAt : ReaderAt (Option Value) := fun bytes c => do
  let (tag, c) ← byteAt bytes c
  if tag = tagNone then
    return (none, c)
  else if tag = tagInteger then
    let (n, c) ← integerAt limit bytes c
    return (some (.integer n), c)
  else if tag = tagText then
    let (s, c) ← textAt limit bytes c
    return (some (.text s), c)
  else if tag = tagBoolean then
    let (b, c) ← booleanAt bytes c
    return (some (.boolean b), c)
  else
    throw (.refused (.invalidTag tag))

def opcodeAt : ReaderAt Opcode := fun bytes c => do
  let (b, c) ← byteAt bytes c
  orRefuse (Opcode.ofByte? b) (.invalidOpcode b) bytes c

def instructionAt : ReaderAt Instruction := fun bytes c => do
  let (opcode, c) ← opcodeAt bytes c
  let (operand, c) ← operandAt limit bytes c
  return ({ opcode, operand }, c)

/-- Read `count` instructions and append them to `program`. -/
def instructionsAt (count : Nat) (program : Program) : ReaderAt Program :=
  match count with
  | 0 => fun _ c => .ok (program, c)
  | count + 1 => fun bytes c => do
    let (ins, c) ← instructionAt limit bytes c
    instructionsAt count (program.push ins) bytes c

/-- The number that the magic spells. -/
def magicWord : Nat :=
  bigEndian magic

/-- Read the header field by field, up to the number of instructions. -/
def headerAt : ReaderAt Nat := fun bytes c => do
  let (word, c) ← wordAt limit bytes c
  if word = magicWord then
    let (major, c) ← byteAt bytes c
    let (_minor, c) ← byteAt bytes c
    let (_patch, c) ← byteAt bytes c
    if major = majorVersion then
      let (_reserved, c) ← byteAt bytes c
      wordAt limit bytes c
    else
      throw (.refused (.invalidVersion major))
  else
    throw (.refused .invalidMagic)

/-- The program in a file. -/
def decodeAt (bytes : Bytes) : Except Stop Program := do
  if bytes.length < headerSize then
    throw (.refused .tooShort)
  else
    let (count, c) ← headerAt limit bytes 0
    if (← distance bytes c) / minInstructionSize < count then
      throw (.refused .tooShort)
    else
      let (program, c) ← instructionsAt limit count #[] bytes c
      atEnd program bytes c

end Limited

/-! ## Following a reader -/

/-- What was found at a cursor is what was found in the bytes from there on: the same value, with the
cursor where the rest begins, or the same error. -/
inductive Agrees {α : Type} (bytes : Bytes) (c : Nat) :
    Except Stop (α × Nat) → Except DecodeError (α × Bytes) → Prop where
  | found {a : α} {c' : Nat} (hle : c ≤ c') (hend : c' ≤ bytes.length) :
      Agrees bytes c (.ok (a, c')) (.ok (a, bytes.drop c'))
  | refused (e : DecodeError) : Agrees bytes c (.error (.refused e)) (.error e)

/-- Reading in place agrees with a reader at every cursor, in every file whose cursors can be held. -/
def Follows {α : Type} (limit : Nat) (readAt : ReaderAt α) (read : Reader α) : Prop :=
  ∀ bytes c, bytes.length ≤ limit → c ≤ bytes.length →
    Agrees bytes c (readAt bytes c) (read (bytes.drop c))

theorem Agrees.of_le {α : Type} {bytes : Bytes} {c c' : Nat} {x : Except Stop (α × Nat)}
    {y : Except DecodeError (α × Bytes)} (h : Agrees bytes c' x y) (hle : c ≤ c') :
    Agrees bytes c x y := by
  cases h with
  | found hle' hend => exact .found (Nat.le_trans hle hle') hend
  | refused e => exact .refused e

namespace Follows

variable {α β : Type} {limit : Nat} {readAt readAt' : ReaderAt α} {read read' : Reader α}

theorem pure (a : α) : Follows limit (fun _ c => .ok (a, c)) (fun bytes => .ok (a, bytes)) :=
  fun _ c _ hc => .found (Nat.le_refl c) hc

theorem refuse (e : DecodeError) :
    Follows limit (fun _ _ => .error (.refused e) : ReaderAt α) (fun _ => .error e) :=
  fun _ _ _ _ => .refused e

theorem orRefuse (value : Option α) (e : DecodeError) :
    Follows limit (orRefuse value e) (Reader.orFail value e) := by
  cases value with
  | some a => exact pure a
  | none => exact refuse e

theorem bind {nextAt : α → ReaderAt β} {next : α → Reader β} (h : Follows limit readAt read)
    (hnext : ∀ a, Follows limit (nextAt a) (next a)) :
    Follows limit
      (fun bytes c => do
        let (a, c) ← readAt bytes c
        nextAt a bytes c)
      (fun bytes => do
        let (a, rest) ← read bytes
        next a rest) := by
  intro bytes c hlimit hc
  have hfirst := h bytes c hlimit hc
  simp only
  generalize readAt bytes c = x, read (bytes.drop c) = y at hfirst
  cases hfirst with
  | found hle hend => exact (hnext _ bytes _ hlimit hend).of_le hle
  | refused e => exact .refused e

/-- Converting what was read. -/
theorem map (h : Follows limit readAt read) (f : α → β) :
    Follows limit
      (fun bytes c => do
        let (a, c) ← readAt bytes c
        return (f a, c))
      (fun bytes => do
        let (a, rest) ← read bytes
        return (f a, rest)) :=
  h.bind fun a => pure (f a)

theorem ite {p : Prop} [Decidable p] (h : Follows limit readAt read)
    (h' : Follows limit readAt' read') :
    Follows limit (fun bytes c => if p then readAt bytes c else readAt' bytes c)
      (fun bytes => if p then read bytes else read' bytes) := by
  by_cases hp : p
  · simpa only [hp, if_true] using h
  · simpa only [hp, if_false] using h'

end Follows

/-! ## The readers -/

section Readers

variable (limit : Nat)

theorem follows_byteAt : Follows limit byteAt readByte := by
  intro bytes c _ _
  unfold byteAt
  by_cases hlt : c < bytes.length
  · rw [List.getElem?_eq_getElem hlt, List.drop_eq_getElem_cons hlt]
    exact .found (Nat.le_succ c) hlt
  · have hle := Nat.le_of_not_lt hlt
    rw [List.getElem?_eq_none hle, List.drop_eq_nil_of_le hle]
    exact .refused _

/-- A cursor can hold the end of every slice of a file, so that its limit keeps none from being read. -/
theorem sliceAt_of_le {n c : Nat} {bytes : Bytes} (hlimit : bytes.length ≤ limit)
    (h : c + n ≤ bytes.length) : sliceAt limit n bytes c = .ok ((bytes.drop c).take n, c + n) := by
  rw [sliceAt, if_pos ⟨Nat.le_trans h hlimit, h⟩, List.extract_eq_take_drop, Nat.add_sub_cancel_left]

theorem sliceAt_of_lt {n c : Nat} {bytes : Bytes} (h : bytes.length < c + n) :
    sliceAt limit n bytes c = .error (.refused .tooShort) := by
  rw [sliceAt, if_neg fun hle => Nat.not_le_of_lt h hle.2]

theorem follows_sliceAt (n : Nat) : Follows limit (sliceAt limit n) (readBytes n) := by
  intro bytes c hlimit _
  by_cases hend : c + n ≤ bytes.length
  · have hlength : ((bytes.drop c).take n).length = n := by
      rw [List.length_take, List.length_drop]
      omega
    rw [sliceAt_of_le limit hlimit hend]
    simp only [readBytes, hlength, if_true, List.drop_drop]
    exact .found (Nat.le_add_right c n) hend
  · have hshort : (bytes.drop c).length < n := by
      rw [List.length_drop]
      omega
    rw [sliceAt_of_lt limit (Nat.lt_of_not_le hend), (refuses_readBytes n _ _).2 ⟨hshort, rfl⟩]
    exact .refused _

theorem follows_wordAt : Follows limit (wordAt limit) readWord := by
  intro bytes c hlimit _
  by_cases hend : c + 4 ≤ bytes.length
  · have hlength : 4 ≤ (bytes.drop c).length := by
      rw [List.length_drop]
      omega
    rw [wordAt, sliceAt_of_le limit hlimit hend]
    match hdrop : bytes.drop c, hlength with
    | b₀ :: b₁ :: b₂ :: b₃ :: rest, _ =>
      have hrest : rest = bytes.drop (c + 4) := by
        rw [← List.drop_drop, hdrop]
        rfl
      rw [hrest]
      exact .found (Nat.le_add_right c 4) hend
  · have hshort : (bytes.drop c).length < 4 := by
      rw [List.length_drop]
      omega
    rw [wordAt, sliceAt_of_lt limit (Nat.lt_of_not_le hend), (refuses_readWord _ _).2 ⟨hshort, rfl⟩]
    exact .refused _

theorem follows_integerAt : Follows limit (integerAt limit) readInteger :=
  (follows_wordAt limit).map fun n => (UInt32.ofNat n).toInt32

theorem follows_textAt : Follows limit (textAt limit) readText := by
  rw [readText_eq]
  exact (follows_wordAt limit).bind fun length => (follows_sliceAt limit length).bind fun text =>
    .orRefuse (Text.ofUtf8? text.toArray) .invalidUtf8

theorem follows_booleanAt : Follows limit booleanAt readBoolean :=
  (follows_byteAt limit).map fun b => decide (b ≠ 0)

theorem follows_operandAt : Follows limit (operandAt limit) readOperand :=
  (follows_byteAt limit).bind fun tag =>
    Follows.ite (p := tag = tagNone) (.pure none) <|
    Follows.ite (p := tag = tagInteger)
      ((follows_integerAt limit).map fun n => some (Value.integer n)) <|
    Follows.ite (p := tag = tagText) ((follows_textAt limit).map fun s => some (Value.text s)) <|
    Follows.ite (p := tag = tagBoolean)
      ((follows_booleanAt limit).map fun b => some (Value.boolean b)) <|
    .refuse (.invalidTag tag)

theorem follows_opcodeAt : Follows limit opcodeAt readOpcode := by
  rw [readOpcode_eq]
  exact (follows_byteAt limit).bind fun b => .orRefuse (Opcode.ofByte? b) (.invalidOpcode b)

theorem follows_instructionAt : Follows limit (instructionAt limit) readInstruction :=
  (follows_opcodeAt limit).bind fun opcode =>
    (follows_operandAt limit).map fun operand => ({ opcode, operand } : Instruction)

theorem follows_instructionsAt (count : Nat) (program : Program) :
    Follows limit (instructionsAt limit count program) (readInstructions count program) := by
  -- Both loops are driven by the count and hand on the program that was read so far.
  induction count generalizing program with
  | zero => exact .pure program
  | succ count ih =>
    rw [readInstructions_succ]
    exact (follows_instructionAt limit).bind fun ins => ih (program.push ins)

/-! ## The header -/

/-- The header read field by field, where the magic must spell the number `key`. -/
def readFields (key : Nat) : Reader Nat := fun bytes => do
  let (word, rest) ← readWord bytes
  if word = key then
    let (major, rest) ← readByte rest
    let (_minor, rest) ← readByte rest
    let (_patch, rest) ← readByte rest
    if major = majorVersion then
      let (_reserved, rest) ← readByte rest
      readWord rest
    else
      throw (.invalidVersion major)
  else
    throw .invalidMagic

-- The numbers are variables here, since the kernel would count up to given ones.
theorem readFields_of_word {key word : Nat} {bytes tail : Bytes} {major minor patch reserved : UInt8}
    (h : readWord bytes = .ok (word, major :: minor :: patch :: reserved :: tail)) :
    readFields key bytes =
      if word = key then
        if major = majorVersion then readWord tail else .error (.invalidVersion major)
      else .error .invalidMagic := by
  rw [readFields, h]
  rfl

theorem magic_iff (m₀ m₁ m₂ m₃ : UInt8) :
    [m₀, m₁, m₂, m₃] = magic ↔ wordOfBytes m₀ m₁ m₂ m₃ = magicWord := by
  rw [magicWord, magic, bigEndian_four]
  constructor
  · intro hm
    cases hm
    rfl
  · intro hword
    rw [← wordBytes_wordOfBytes, hword, wordBytes_wordOfBytes]

theorem readHeader_eq_readFields {bytes : Bytes} (h : ¬ bytes.length < 12) :
    readHeader bytes = readFields magicWord bytes := by
  obtain ⟨m₀, m₁, m₂, m₃, major, minor, patch, reserved, a, b, c, d, body, rfl⟩ := exists_header h
  have hcount : readWord (a :: b :: c :: d :: body) = .ok (wordOfBytes a b c d, body) := rfl
  rw [readHeader, readFields_of_word rfl, hcount]
  simp only [ne_eq, magic_iff, ite_not]

theorem follows_headerAt : Follows limit (headerAt limit) (readFields magicWord) :=
  (follows_wordAt limit).bind fun word =>
    Follows.ite (p := word = magicWord)
      ((follows_byteAt limit).bind fun major => (follows_byteAt limit).bind fun _ =>
        (follows_byteAt limit).bind fun _ => Follows.ite (p := major = majorVersion)
          ((follows_byteAt limit).bind fun _ => follows_wordAt limit)
          (.refuse (.invalidVersion major)))
      (.refuse .invalidMagic)

end Readers

/-! ## Decoding in place -/

theorem distance_of_le {bytes : Bytes} {c : Nat} (h : c ≤ bytes.length) :
    distance bytes c = .ok (bytes.drop c).length := by
  rw [distance, if_pos h, List.length_drop]

theorem atEnd_of_le {bytes : Bytes} {c : Nat} (program : Program) (h : c ≤ bytes.length) :
    atEnd program bytes c =
      (if (bytes.drop c).isEmpty then .ok program
      else .error (.trailingBytes (bytes.drop c).length) : Except DecodeError Program).mapError
        .refused := by
  have hempty : (bytes.drop c).isEmpty = true ↔ c = bytes.length := by
    rw [List.isEmpty_iff, List.drop_eq_nil_iff]
    omega
  simp only [atEnd, distance_of_le h, hempty]
  by_cases hc : c = bytes.length
  · rw [if_pos hc, if_pos hc]
    rfl
  · rw [if_neg hc, if_neg hc]
    rfl

/-- In place the decoder comes to the same end. In particular it never asks for a distance to a cursor
beyond the end. -/
theorem decodeAt_eq {limit : Nat} {bytes : Bytes} (hlimit : bytes.length ≤ limit) :
    decodeAt limit bytes = (decode bytes).mapError .refused := by
  rw [decode_eq, decodeAt]
  by_cases hshort : bytes.length < headerSize
  · rw [readHeader_of_short hshort, if_pos hshort]
    rfl
  · have hheader := follows_headerAt limit bytes 0 hlimit (Nat.zero_le _)
    rw [List.drop_zero, ← readHeader_eq_readFields hshort] at hheader
    rw [if_neg hshort]
    generalize headerAt limit bytes 0 = x, readHeader bytes = y at hheader ⊢
    cases hheader with
    | refused e => rfl
    | @found count c _ hend =>
      simp only [bind, Except.bind, distance_of_le hend]
      by_cases hcount : (bytes.drop c).length / minInstructionSize < count
      · simp only [hcount, if_true]
        rfl
      · simp only [hcount, if_false]
        have hbody := follows_instructionsAt limit count #[] bytes c hlimit hend
        generalize instructionsAt limit count #[] bytes c = x,
          readInstructions count #[] (bytes.drop c) = y at hbody ⊢
        cases hbody with
        | refused e => rfl
        | @found program _ _ hend' => exact atEnd_of_le program hend'

/-! ## What a reader depends on -/

section Local

variable {α : Type} {limit : Nat} {readAt : ReaderAt α} {read : Reader α}
  {form : α → Bytes → Prop} {bytes : Bytes} {c c' : Nat} {a : α}

/-- The outcome of reading at a cursor lies inside the bytes: nothing outside them was asked for, and the
cursor did not move back or beyond their end. -/
def Inside (bytes : Bytes) (c : Nat) (outcome : Except Stop (α × Nat)) : Prop :=
  outcome ≠ .error .outside ∧ ∀ a c', outcome = .ok (a, c') → c ≤ c' ∧ c' ≤ bytes.length

theorem Follows.inside (h : Follows limit readAt read) (hlimit : bytes.length ≤ limit)
    (hc : c ≤ bytes.length) : Inside bytes c (readAt bytes c) := by
  have hagrees := h bytes c hlimit hc
  generalize readAt bytes c = outcome, read (bytes.drop c) = result at hagrees
  cases hagrees with
  | found hle hend =>
    refine ⟨nofun, ?_⟩
    rintro _ _ ⟨⟩
    exact ⟨hle, hend⟩
  | refused e => exact ⟨nofun, nofun⟩

theorem extract_append_drop (h : c ≤ c') : bytes.extract c c' ++ bytes.drop c' = bytes.drop c := by
  have hdrop : bytes.drop c' = (bytes.drop c).drop (c' - c) := by
    rw [List.drop_drop, Nat.add_sub_cancel' h]
  rw [List.extract_eq_take_drop, hdrop, List.take_append_drop]

/-- Reading at a cursor succeeds precisely if the bytes that the cursor passes are of the form that is
read. -/
theorem Follows.eq_ok_iff (h : Follows limit readAt read) (hexact : Exact form read)
    (hlimit : bytes.length ≤ limit) (hc : c ≤ bytes.length) :
    readAt bytes c = .ok (a, c') ↔ c ≤ c' ∧ c' ≤ bytes.length ∧ form a (bytes.extract c c') := by
  have hagrees := h bytes c hlimit hc
  constructor
  · intro hread
    rw [hread] at hagrees
    generalize hresult : read (bytes.drop c) = result at hagrees
    cases hagrees with
    | found hle hend =>
      obtain ⟨front, hform, hsplit⟩ := (hexact _ _ _).1 hresult
      rw [← extract_append_drop hle] at hsplit
      rw [List.append_cancel_right hsplit]
      exact ⟨hle, hend, hform⟩
  · rintro ⟨hle, hend, hform⟩
    have hresult := (hexact _ _ _).2 ⟨_, hform, (extract_append_drop hle).symm⟩
    rw [hresult] at hagrees
    generalize readAt bytes c = outcome, hrest : bytes.drop c' = rest at hagrees
    cases hagrees with
    | @found _ c'' _ hend' =>
      have hlength := congrArg List.length hrest
      simp only [List.length_drop] at hlength
      have hsame : c'' = c' := by omega
      rw [hsame]

end Local

/-! ## Instructions -/

theorem instructionAt_eq_ok_iff {limit c c' : Nat} {bytes : Bytes} {ins : Instruction}
    (hlimit : bytes.length ≤ limit) (hc : c ≤ bytes.length) :
    instructionAt limit bytes c = .ok (ins, c') ↔
      c ≤ c' ∧ c' ≤ bytes.length ∧ IsInstruction ins (bytes.extract c c') :=
  (follows_instructionAt limit).eq_ok_iff exact_readInstruction hlimit hc

theorem length_extract {bytes : Bytes} {c c' : Nat} :
    (bytes.extract c c').length = min (c' - c) (bytes.length - c) := by
  rw [List.extract_eq_take_drop, List.length_take, List.length_drop]

/-- An instruction that is read at a cursor takes at least two bytes, and the cursor stays in the file.
It depends on no other bytes than those that the cursor passes: wherever they stand in a file, they are
read as the same instruction. And no bytes that are read as an instruction begin others that are.

Reading in place agrees with the decoder: an instruction is what the decoder's reader finds in the bytes
from the cursor on, and so is the program. No reader moves the cursor beyond the end of the file or asks
for anything outside, whatever lengths the file spells and however large a number a cursor can hold, as
long as it can hold the length of the file. -/
theorem instructionAt_depends_on_passed (limit : Nat) (bytes : Bytes) (c : Nat)
    (hlimit : bytes.length ≤ limit) (hc : c ≤ bytes.length) :
    (∀ ins c', instructionAt limit bytes c = .ok (ins, c') →
      c + 2 ≤ c' ∧ c' ≤ bytes.length ∧
      (∀ other d, other.length ≤ limit → other.extract d (d + (c' - c)) = bytes.extract c c' →
        instructionAt limit other d = .ok (ins, d + (c' - c))) ∧
      ∀ other d ins' d', other.length ≤ limit → d ≤ other.length →
        instructionAt limit other d = .ok (ins', d') →
        bytes.extract c c' <+: other.extract d d' → bytes.extract c c' = other.extract d d') ∧
    Agrees bytes c (instructionAt limit bytes c) (readInstruction (bytes.drop c)) ∧
    decodeAt limit bytes = (decode bytes).mapError .refused ∧
    Inside bytes c (byteAt bytes c) ∧
    Inside bytes c (wordAt limit bytes c) ∧
    (∀ n, Inside bytes c (sliceAt limit n bytes c)) ∧
    Inside bytes c (operandAt limit bytes c) ∧
    Inside bytes c (instructionAt limit bytes c) := by
  refine ⟨?_, follows_instructionAt limit bytes c hlimit hc, decodeAt_eq hlimit,
    (follows_byteAt limit).inside hlimit hc, (follows_wordAt limit).inside hlimit hc,
    fun n => (follows_sliceAt limit n).inside hlimit hc, (follows_operandAt limit).inside hlimit hc,
    (follows_instructionAt limit).inside hlimit hc⟩
  intro ins c' hread
  obtain ⟨hle, hend, hform⟩ := (instructionAt_eq_ok_iff hlimit hc).1 hread
  have htwo := hform.two_le_length
  rw [length_extract] at htwo
  refine ⟨by omega, hend, ?_, ?_⟩
  · intro other d hlimit' hsame
    have hlength := congrArg List.length hsame
    rw [length_extract, length_extract] at hlength
    rw [instructionAt_eq_ok_iff hlimit' (by omega), hsame]
    exact ⟨by omega, by omega, hform⟩
  · rintro other d ins' d' hlimit' hd hread' ⟨extra, hbegins⟩
    obtain ⟨-, -, hform'⟩ := (instructionAt_eq_ok_iff hlimit' hd).1 hread'
    rw [← List.append_nil (other.extract d d')] at hbegins
    exact (exact_readInstruction.unique hform hform' hbegins).2.1.symm

/-- A push between other bytes is read again where it stands alone. A text whose length is the greatest
number of a word is refused, also if a cursor cannot hold more than that. -/
theorem instructionAt_between_bytes :
    instructionAt 8 [0xAA, 0x01, 0x01, 0, 0, 0, 7, 0xBB] 1 =
        .ok (⟨.push, some (.integer 7)⟩, 7) ∧
      instructionAt 8 [0x01, 0x01, 0, 0, 0, 7] 0 = .ok (⟨.push, some (.integer 7)⟩, 6) ∧
      instructionAt 0xFFFFFFFF [0x01, 0x02, 0xFF, 0xFF, 0xFF, 0xFF, 0x41] 0 ≠ .error .outside := by
  have hread : instructionAt 8 [0xAA, 0x01, 0x01, 0, 0, 0, 7, 0xBB] 1 =
      .ok (⟨.push, some (.integer 7)⟩, 7) := rfl
  obtain ⟨hpassed, -⟩ := instructionAt_depends_on_passed 8
    [0xAA, 0x01, 0x01, 0, 0, 0, 7, 0xBB] 1 (by decide) (by decide)
  obtain ⟨-, -, -, -, -, -, -, hinside, -⟩ := instructionAt_depends_on_passed 0xFFFFFFFF
    [0x01, 0x02, 0xFF, 0xFF, 0xFF, 0xFF, 0x41] 0 (by decide) (by decide)
  exact ⟨hread, (hpassed _ _ hread).2.2.1 [0x01, 0x01, 0, 0, 0, 7] 0 (by decide) rfl, hinside⟩

end StackMachine.Bytecode.Cursor
