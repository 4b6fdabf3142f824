-- SUMMARY: Encoding a decoded file again settles the bytes that do not matter.
import StackMachine.Proofs.RoundTrip

/-!
# Encoding again

A program has many files: the minor version, the patch version and the reserved byte may be anything,
and any payload but zero stands for true. The encoder writes one of them. Encoding a decoded file
again therefore settles these bytes, and leaves all others as they are.
-/

namespace StackMachine.Bytecode

/-! ## Bytes that are settled -/

/-- Index `i` of a body holds the payload of a Boolean operand: its opcode and its tag stand before it,
and before these there are only whole instructions. -/
def PayloadAt (body : Bytes) (i : Nat) : Prop :=
  ∃ (instructions : List Instruction) (front : Bytes) (op : Opcode) (payload : UInt8) (back : Bytes),
    IsBody instructions front ∧ body = front ++ op.byte :: 0x03 :: payload :: back ∧
      i = front.length + 2

/-- Index `i` of a file holds the payload of a Boolean operand. -/
def FilePayloadAt (file : Bytes) (i : Nat) : Prop :=
  12 ≤ i ∧ PayloadAt (file.drop 12) (i - 12)

/-- A payload as the encoder writes it. -/
def settled (payload : UInt8) : UInt8 :=
  if payload = 0 then 0 else 1

/-- The second body is the first with its Boolean payloads settled. -/
structure Settles (body body' : Bytes) : Prop where
  length : body'.length = body.length
  payload : ∀ i, PayloadAt body i → body'[i]? = body[i]?.map settled
  other : ∀ i, ¬ PayloadAt body i → body'[i]? = body[i]?

/-- The second file is the first with zeros for the minor version, the patch version and the reserved
byte, and with its Boolean payloads settled. -/
structure Normalizes (file file' : Bytes) : Prop where
  length : file'.length = file.length
  reserved : ∀ i ∈ [5, 6, 7], file'[i]? = some 0
  payload : ∀ i, FilePayloadAt file i → file'[i]? = file[i]?.map settled
  other : ∀ i, i ∉ [5, 6, 7] → ¬ FilePayloadAt file i → file'[i]? = file[i]?

/-! ## Where payloads are -/

theorem IsInstruction.boolean (op : Opcode) (payload : UInt8) :
    IsInstruction ⟨op, some (.boolean (decide (payload ≠ 0)))⟩ [op.byte, 0x03, payload] :=
  ⟨_, .boolean decide_eq_true_iff, rfl⟩

/-- A Boolean operand has one byte of payload, in the third place. -/
theorem IsInstruction.eq_of_boolean {ins : Instruction} {bytes : Bytes} {b : Bool}
    (h : IsInstruction ins bytes) (hb : ins.operand = some (.boolean b)) :
    ∃ payload, bytes = [ins.opcode.byte, 0x03, payload] ∧ (b = true ↔ payload ≠ 0) := by
  obtain ⟨operand, ho, rfl⟩ := h
  rw [hb] at ho
  cases ho with
  | boolean hp => exact ⟨_, rfl, hp⟩

theorem not_payloadAt_nil (i : Nat) : ¬ PayloadAt [] i := by
  intro h
  obtain ⟨instructions, front, op, payload, back, -, heq, -⟩ := h
  simp at heq

/-- The payloads of a body are that of its first instruction, if it has one, and those that follow. -/
theorem payloadAt_append_iff {ins : Instruction} {front back : Bytes} (h : IsInstruction ins front)
    (i : Nat) :
    PayloadAt (front ++ back) i ↔
      (i = 2 ∧ ∃ b, ins.operand = some (.boolean b)) ∨ ∃ j, i = front.length + j ∧ PayloadAt back j := by
  constructor
  · intro hp
    obtain ⟨instructions, before, op, payload, rest, hbody, heq, rfl⟩ := hp
    cases hbody with
    | nil =>
      have heq' : front ++ back = [op.byte, 0x03, payload] ++ rest := heq
      obtain ⟨rfl, -, -⟩ := exact_readInstruction.unique h (.boolean op payload) heq'
      exact .inl ⟨rfl, _, rfl⟩
    | @cons ins' others front' back' hi hr =>
      rw [List.append_assoc] at heq
      obtain ⟨-, rfl, hback⟩ := exact_readInstruction.unique h hi heq
      refine .inr ⟨back'.length + 2, ?_, others, back', op, payload, rest, hr, hback.symm, rfl⟩
      rw [List.length_append, Nat.add_assoc]
  · intro hp
    rcases hp with ⟨rfl, b, hb⟩ | ⟨j, rfl, instructions, before, op, payload, rest, hbody, rfl, rfl⟩
    · obtain ⟨payload, rfl, -⟩ := h.eq_of_boolean hb
      exact ⟨[], [], ins.opcode, payload, back, .nil, rfl, rfl⟩
    · refine ⟨ins :: instructions, front ++ before, op, payload, rest, .cons h hbody, ?_, ?_⟩
      · rw [List.append_assoc]
      · rw [List.length_append, Nat.add_assoc]

/-! ## Bodies -/

theorem Settles.nil : Settles [] [] where
  length := rfl
  payload i h := absurd h (not_payloadAt_nil i)
  other _ _ := rfl

/-- An instruction without a Boolean operand is left as it is. -/
theorem Settles.append_same {ins : Instruction} {front back back' : Bytes}
    (hi : IsInstruction ins front) (hb : ∀ b, ins.operand ≠ some (.boolean b))
    (h : Settles back back') : Settles (front ++ back) (front ++ back') where
  length := by rw [List.length_append, List.length_append, h.length]
  payload i hp := by
    rcases (payloadAt_append_iff hi i).1 hp with ⟨-, b, hb'⟩ | ⟨j, rfl, hj⟩
    · exact absurd hb' (hb b)
    · simp only [List.getElem?_append_right (Nat.le_add_right _ _), Nat.add_sub_cancel_left]
      exact h.payload j hj
  other i hp := by
    by_cases hlt : i < front.length
    · rw [List.getElem?_append_left hlt, List.getElem?_append_left hlt]
    · obtain ⟨j, rfl⟩ := Nat.exists_eq_add_of_le (Nat.le_of_not_lt hlt)
      simp only [List.getElem?_append_right (Nat.le_add_right _ _), Nat.add_sub_cancel_left]
      apply h.other
      intro hj
      exact hp ((payloadAt_append_iff hi _).2 (.inr ⟨j, rfl, hj⟩))

theorem Settles.append_boolean {back back' : Bytes} (op : Opcode) (payload : UInt8)
    (h : Settles back back') :
    Settles ([op.byte, 0x03, payload] ++ back) ([op.byte, 0x03, settled payload] ++ back') where
  length := by rw [List.length_append, List.length_append, h.length]; rfl
  payload i hp := by
    rcases (payloadAt_append_iff (.boolean op payload) i).1 hp with ⟨rfl, -⟩ | ⟨j, rfl, hj⟩
    · rfl
    · rw [Nat.add_comm]
      exact h.payload j hj
  other i hp := by
    have hpayload : ∀ i, PayloadAt ([op.byte, 0x03, payload] ++ back) i ↔ _ :=
      payloadAt_append_iff (.boolean op payload)
    match i with
    | 0 => rfl
    | 1 => rfl
    | 2 => exact absurd ((hpayload 2).2 (.inl ⟨rfl, _, rfl⟩)) hp
    | j + 3 =>
      apply h.other
      intro hj
      exact hp ((hpayload (j + 3)).2 (.inr ⟨j, Nat.add_comm j 3, hj⟩))

/-! ## The encoder -/

theorem IsWord.wordBytes_eq {n : Nat} {word : Bytes} (h : IsWord n word) : wordBytes n = word := by
  obtain ⟨a, b, c, d, rfl, rfl⟩ := isWord_iff.mp h
  exact wordBytes_wordOfBytes a b c d

theorem IsWord.encodeLength_eq {n : Nat} {word : Bytes} (h : IsWord n word) (what : String) :
    encodeLength what n = .ok word := by
  rw [encodeLength, if_pos h.lt, h.wordBytes_eq]

/-- There is one way to write an operand that is not a Boolean. -/
theorem IsOperand.encodeOperand_eq {operand : Option Value} {bytes : Bytes}
    (h : IsOperand operand bytes) (hb : ∀ b, operand ≠ some (.boolean b)) :
    encodeOperand operand = .ok bytes := by
  cases h with
  | none => rfl
  | @integer n word hw =>
    rw [encodeOperand, ← twosComplement_eq, hw.wordBytes_eq]
    rfl
  | @text s word hw =>
    rw [encodeOperand_text, hw.encodeLength_eq]
    rfl
  | @boolean b payload _ => exact absurd rfl (hb b)

/-- Encoding an instruction again leaves its bytes as they are, or settles its payload. -/
theorem IsInstruction.encodeInstruction_cases {ins : Instruction} {bytes : Bytes}
    (h : IsInstruction ins bytes) :
    ((∀ b, ins.operand ≠ some (.boolean b)) ∧ encodeInstruction ins = .ok bytes) ∨
      ∃ payload, bytes = [ins.opcode.byte, 0x03, payload] ∧
        encodeInstruction ins = .ok [ins.opcode.byte, 0x03, settled payload] ∧
        IsInstruction ins [ins.opcode.byte, 0x03, settled payload] := by
  by_cases hb : ∃ b, ins.operand = some (.boolean b)
  · obtain ⟨b, hb⟩ := hb
    obtain ⟨payload, rfl, hp⟩ := h.eq_of_boolean hb
    have hflag : (if b then 1 else 0) = settled payload := by
      by_cases hzero : payload = 0
      · have hfalse : b = false := by simpa [hzero] using hp
        simp [settled, hzero, hfalse]
      · have htrue : b = true := hp.2 hzero
        simp [settled, hzero, htrue]
    have hsettled : b = true ↔ settled payload ≠ 0 := by
      rw [← hflag]
      cases b <;> decide
    refine .inr ⟨payload, rfl, ?_, [0x03, settled payload], ?_, rfl⟩
    · rw [encodeInstruction_eq, hb, encodeOperand, hflag]
      rfl
    · rw [hb]
      exact .boolean hsettled
  · have hne : ∀ b, ins.operand ≠ some (.boolean b) := fun b hb' => hb ⟨b, hb'⟩
    obtain ⟨operand, ho, rfl⟩ := h
    refine .inl ⟨hne, ?_⟩
    rw [encodeInstruction_eq, ho.encodeOperand_eq hne]
    rfl

/-- Encoding a body again settles its payloads. -/
theorem IsBody.settles {instructions : List Instruction} {body : Bytes} (h : IsBody instructions body) :
    ∃ parts, instructions.mapM encodeInstruction = .ok parts ∧ IsBody instructions parts.flatten ∧
      Settles body parts.flatten := by
  induction h with
  | nil => exact ⟨[], rfl, .nil, .nil⟩
  | @cons ins rest front back hi _ ih =>
    obtain ⟨parts, hm, hb, hsettles⟩ := ih
    rcases hi.encodeInstruction_cases with ⟨hne, he⟩ | ⟨payload, rfl, he, hi'⟩
    · exact ⟨front :: parts, by rw [List.mapM_cons, he, hm]; rfl, .cons hi hb,
        hsettles.append_same hi hne⟩
    · exact ⟨_ :: parts, by rw [List.mapM_cons, he, hm]; rfl, .cons hi' hb,
        hsettles.append_boolean ins.opcode payload⟩

/-! ## Files -/

/-- A file whose body is settled and whose version and reserved bytes are zero is normalized. -/
theorem Settles.normalizes {body body' : Bytes} (h : Settles body body')
    (minor patch reserved a b c d : UInt8) :
    Normalizes
      ([0x53, 0x56, 0x4D, 0x42] ++ [1, minor, patch, reserved] ++ [a, b, c, d] ++ body)
      ([0x53, 0x56, 0x4D, 0x42] ++ [1, 0, 0, 0] ++ [a, b, c, d] ++ body') where
  length := by simp [h.length]
  reserved := by
    intro i hi
    simp only [List.mem_cons, List.not_mem_nil, or_false] at hi
    rcases hi with rfl | rfl | rfl
    · rfl
    · rfl
    · rfl
  payload i hp := by
    obtain ⟨hle, hp⟩ := hp
    obtain ⟨j, rfl⟩ := Nat.exists_eq_add_of_le' hle
    exact h.payload j hp
  other i hi hp := by
    match i with
    | 0 | 1 | 2 | 3 | 4 | 8 | 9 | 10 | 11 => rfl
    | 5 | 6 | 7 => exact absurd (by decide) hi
    | j + 12 =>
      apply h.other j
      intro hj
      exact hp ⟨Nat.le_add_left 12 j, hj⟩

/-- A file is its own normal form if there is nothing to settle. -/
theorem Normalizes.eq_iff {file file' : Bytes} (h : Normalizes file file') :
    file' = file ↔ (∀ i ∈ [5, 6, 7], file[i]? = some 0) ∧
      ∀ i b, FilePayloadAt file i → file[i]? = some b → b = 0 ∨ b = 1 := by
  constructor
  · intro heq
    subst heq
    refine ⟨h.reserved, ?_⟩
    intro i b hp hb
    have hsettled : settled b = b := by
      have hpayload := h.payload i hp
      rw [hb, Option.map_some, Option.some.injEq] at hpayload
      exact hpayload.symm
    unfold settled at hsettled
    split at hsettled
    · exact .inl ‹_›
    · exact .inr hsettled.symm
  · intro hnormal
    obtain ⟨hreserved, hpayload⟩ := hnormal
    apply List.ext_getElem?
    intro i
    by_cases hi : i ∈ [5, 6, 7]
    · rw [h.reserved i hi, hreserved i hi]
    · by_cases hp : FilePayloadAt file i
      · rw [h.payload i hp]
        cases hb : file[i]? with
        | none => rfl
        | some b =>
          rcases hpayload i b hp hb with rfl | rfl
          · rfl
          · rfl
      · exact h.other i hi hp

/-- The encoder writes a decoded program, and what it writes is the normal form of the file. -/
theorem exists_encode_of_decode {file : Bytes} {program : Program} (h : decode file = .ok program) :
    ∃ file', encode program = .ok file' ∧ Normalizes file file' ∧ decode file' = .ok program := by
  obtain ⟨minor, patch, reserved, count, body, hw, hb, rfl⟩ := decode_eq_ok_iff_isFile.1 h
  obtain ⟨parts, hm, hb', hsettles⟩ := hb.settles
  obtain ⟨a, b, c, d, rfl, -⟩ := isWord_iff.1 hw
  refine ⟨preamble ++ [a, b, c, d] ++ parts.flatten, ?_, ?_, ?_⟩
  · rw [encode, hw.encodeLength_eq, hm]
    rfl
  · exact hsettles.normalizes minor patch reserved a b c d
  · exact decode_eq_ok_iff_isFile.2 ⟨0, 0, 0, [a, b, c, d], _, hw, hb', rfl⟩

/-- Encoding a decoded file again succeeds and normalizes it: the minor version, the patch version and
the reserved byte become zero, a Boolean payload that is not zero becomes one, and no other byte
changes. The result is a file of the same program, and it is the file itself exactly if there was
nothing to normalize. So two files are of the same program exactly if they have the same normal form. -/
theorem encode_normalizes (file : Bytes) (program : Program) (h : decode file = .ok program) :
    (∃ file', encode program = .ok file' ∧ Normalizes file file' ∧ decode file' = .ok program ∧
      (file' = file ↔ (∀ i ∈ [5, 6, 7], file[i]? = some 0) ∧
        ∀ i b, FilePayloadAt file i → file[i]? = some b → b = 0 ∨ b = 1)) ∧
    ∀ other program', decode other = .ok program' →
      (program' = program ↔ encode program' = encode program) := by
  obtain ⟨file', he, hnormal, hd⟩ := exists_encode_of_decode h
  refine ⟨⟨file', he, hnormal, hd, hnormal.eq_iff⟩, ?_⟩
  intro other program' hother
  constructor
  · intro heq
    rw [heq]
  · intro heq
    obtain ⟨other', he', -, hd'⟩ := exists_encode_of_decode hother
    rw [heq, he] at he'
    cases he'
    rw [hd] at hd'
    cases hd'
    rfl

/-- A file with version bytes that are not zero, and with a payload that is neither zero nor one. -/
theorem encode_normalizes_loose_file :
    ∃ file', encode #[⟨.push, some (.boolean true)⟩] = .ok file' ∧
      Normalizes [0x53, 0x56, 0x4D, 0x42, 1, 7, 8, 9, 0, 0, 0, 1, 0x01, 0x03, 0x80] file' ∧
      file' ≠ [0x53, 0x56, 0x4D, 0x42, 1, 7, 8, 9, 0, 0, 0, 1, 0x01, 0x03, 0x80] := by
  have h : decode [0x53, 0x56, 0x4D, 0x42, 1, 7, 8, 9, 0, 0, 0, 1, 0x01, 0x03, 0x80] =
      .ok #[⟨.push, some (.boolean true)⟩] :=
    decode_eq_ok_iff_isFile.2
      ⟨7, 8, 9, [0, 0, 0, 1], _, ⟨rfl, rfl⟩, .cons (.boolean .push 0x80) .nil, rfl⟩
  obtain ⟨file', he, hnormal, -, hiff⟩ := (encode_normalizes _ _ h).1
  refine ⟨file', he, hnormal, ?_⟩
  intro heq
  have hzero := (hiff.1 heq).1 5 (by decide)
  simp at hzero

end StackMachine.Bytecode
