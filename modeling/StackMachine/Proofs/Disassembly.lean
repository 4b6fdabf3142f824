-- SUMMARY: A listing has one line for each instruction, and determines its program.
import StackMachine.Command.Directory
import StackMachine.Proofs.Grammar
import StackMachine.Proofs.Quoting

/-!
# Reading a listing

What a reader can tell from a listing. Every instruction has one line, no other end of a line is in
it, and the line says which instruction it is, so a listing determines its program.
-/

namespace StackMachine

open Text (Shown OneLine append_mark_inj)

/-! ## Mnemonics -/

namespace Opcode

theorem ofMnemonic?_mnemonic (op : Opcode) : ofMnemonic? op.mnemonic = some op := by
  have hall : ∀ op ∈ all, ofMnemonic? op.mnemonic = some op := by decide +kernel
  exact hall op (mem_all op)

theorem mnemonic_inj {op op' : Opcode} (h : op.mnemonic = op'.mnemonic) : op = op' := by
  have hfound := ofMnemonic?_mnemonic op
  rw [h, ofMnemonic?_mnemonic] at hfound
  exact (Option.some.inj hfound).symm

theorem isAlphanum_of_mem_mnemonic {op : Opcode} {c : Char} (h : c ∈ op.mnemonic.toList) :
    c.isAlphanum = true := by
  have hall : ∀ op ∈ all, op.mnemonic.toList.all Char.isAlphanum = true := by decide +kernel
  exact List.all_eq_true.1 (hall op (mem_all op)) c h

theorem oneLine_mnemonic (op : Opcode) : OneLine op.mnemonic :=
  fun _ hc => Text.shown_of_isAlphanum (isAlphanum_of_mem_mnemonic hc)

end Opcode

/-! ## Instructions -/

namespace Instruction

/-- What the line of an instruction shows after the mnemonic. -/
def operandText (ins : Instruction) : String :=
  match ins.operand with
  | none => if ins.opcode.requiresOperand then Listing.missingMark else ""
  | some v => " " ++ v.renderOperand

/-- The line of an instruction, without its newline. -/
def line (i : Nat) (ins : Instruction) : String :=
  Listing.index i ++ ": " ++ ins.opcode.mnemonic ++ ins.operandText

theorem listingLine_eq (i : Nat) (ins : Instruction) : ins.listingLine i = ins.line i ++ "\n" := by
  obtain ⟨op, operand⟩ := ins
  cases operand with
  | none => simp [listingLine, line, operandText, render, lacksOperand]
  | some v => simp [listingLine, line, operandText, render, lacksOperand, String.append_assoc]

theorem toList_operandText_some (op : Opcode) (v : Value) :
    (operandText ⟨op, some v⟩).toList = ' ' :: v.renderOperand.toList := by
  simp [operandText]

theorem toList_operandText_none (op : Opcode) :
    (operandText ⟨op, none⟩).toList = [] ∨
      ∃ rest, (operandText ⟨op, none⟩).toList = ' ' :: ' ' :: rest := by
  unfold operandText
  cases op.requiresOperand with
  | true =>
    have hmark : Listing.missingMark.toList = ' ' :: ' ' :: "; missing operand".toList := by decide
    exact .inr ⟨_, hmark⟩
  | false => exact .inl rfl

/-- A space stands after the mnemonic, or nothing does. -/
theorem operandText_space (ins : Instruction) :
    ∃ rest, ins.operandText.toList ++ [' '] = ' ' :: rest := by
  obtain ⟨op, operand⟩ := ins
  cases operand with
  | none =>
    obtain h | ⟨rest, h⟩ := toList_operandText_none op
    · exact ⟨[], by rw [h]; rfl⟩
    · exact ⟨_, by rw [h]; rfl⟩
  | some v => exact ⟨_, by rw [toList_operandText_some]; rfl⟩

/-- An absent operand is not shown as any operand is: either nothing stands after the mnemonic, or
two spaces do. -/
theorem operandText_none_ne (op : Opcode) (v : Value) :
    operandText ⟨op, none⟩ ≠ operandText ⟨op, some v⟩ := by
  intro h
  obtain ⟨c, rest, hv, hc, -⟩ := Value.renderOperand_first v
  have hlists := congrArg String.toList h
  rw [toList_operandText_some, hv] at hlists
  obtain hnone | ⟨_, hnone⟩ := toList_operandText_none op <;> rw [hnone] at hlists
  · cases hlists
  · exact hc (List.cons.inj (List.cons.inj hlists).2).1.symm

theorem operand_eq_of_operandText {op : Opcode} {a b : Option Value}
    (h : operandText ⟨op, a⟩ = operandText ⟨op, b⟩) : a = b := by
  cases a with
  | none =>
    cases b with
    | none => rfl
    | some w => exact absurd h (operandText_none_ne op w)
  | some v =>
    cases b with
    | none => exact absurd h.symm (operandText_none_ne op v)
    | some w => rw [Value.renderOperand_inj ((String.append_right_inj " ").1 h)]

/-- A line says which instruction it is of. -/
theorem line_inj {i : Nat} {ins ins' : Instruction} (h : ins.line i = ins'.line i) : ins = ins' := by
  obtain ⟨op, operand⟩ := ins
  obtain ⟨op', operand'⟩ := ins'
  simp only [line, String.append_assoc, String.append_right_inj] at h
  -- With a space after both texts, each mnemonic ends at the first space.
  obtain ⟨rest, hrest⟩ := operandText_space ⟨op, operand⟩
  obtain ⟨rest', hrest'⟩ := operandText_space ⟨op', operand'⟩
  have hlists : op.mnemonic.toList ++ ' ' :: rest = op'.mnemonic.toList ++ ' ' :: rest' := by
    rw [← hrest, ← hrest', ← List.append_assoc, ← List.append_assoc, ← String.toList_append,
      ← String.toList_append, h]
  have hspace (op : Opcode) : ' ' ∉ op.mnemonic.toList := fun hmem =>
    absurd (Opcode.isAlphanum_of_mem_mnemonic hmem) (by decide)
  obtain ⟨hmnemonic, -⟩ := append_mark_inj (hspace op) (hspace op') hlists
  obtain rfl : op = op' := Opcode.mnemonic_inj (String.toList_inj.1 hmnemonic)
  rw [operand_eq_of_operandText ((String.append_right_inj _).1 h)]

theorem oneLine_operandText (ins : Instruction) : OneLine ins.operandText := by
  obtain ⟨op, operand⟩ := ins
  cases operand with
  | none =>
    simp only [operandText]
    split <;> decide
  | some v => exact .append (by decide) v.oneLine_renderOperand

end Instruction

/-! ## Indices -/

/-- The digits spell a number in decimal, with as many zeros before it as a width asks for. -/
structure Text.Padded (width n : Nat) (digits : List Char) : Prop where
  isDigit : ∀ c ∈ digits, c.isDigit = true
  value : ofDigits digits = n
  length : digits.length = max width n.repr.length

theorem Text.toList_pushn (s : String) (c : Char) (n : Nat) :
    (s.pushn c n).toList = s.toList ++ List.replicate n c := by
  unfold String.pushn
  induction n with
  | zero => simp [Nat.repeat]
  | succ n ih => simp [Nat.repeat, ih, List.replicate_succ']

namespace Listing

theorem toList_index (i : Nat) :
    (index i).toList = List.replicate (indexWidth - i.repr.length) '0' ++ i.repr.toList := by
  simp [index, Text.toList_pushn]

theorem padded_index (i : Nat) : Text.Padded indexWidth i (index i).toList where
  isDigit c hc := by
    rw [toList_index] at hc
    obtain hc | hc := List.mem_append.1 hc
    · rw [List.eq_of_mem_replicate hc]
      rfl
    · exact Text.isDigit_of_mem_repr hc
  value := by rw [toList_index, Text.ofDigits_zeros_repr]
  length := by
    rw [toList_index, List.length_append, List.length_replicate, String.length_toList]
    omega

end Listing

/-! ## Lines -/

/-- Lines without an end of a line in them are determined by the text that they make up. -/
theorem Text.lines_inj {lines lines' : List (List Char)} (h : ∀ line ∈ lines, '\n' ∉ line)
    (h' : ∀ line ∈ lines', '\n' ∉ line)
    (heq : lines.flatMap (· ++ ['\n']) = lines'.flatMap (· ++ ['\n'])) : lines = lines' := by
  induction lines generalizing lines' with
  | nil =>
    cases lines' with
    | nil => rfl
    | cons line' lines' => simp at heq
  | cons line lines ih =>
    cases lines' with
    | nil => simp at heq
    | cons line' lines' =>
      rw [List.forall_mem_cons] at h h'
      simp only [List.flatMap_cons, List.append_assoc, List.singleton_append] at heq
      obtain ⟨rfl, hrest⟩ := append_mark_inj h.1 h'.1 heq
      rw [ih h.2 h'.2 hrest]

theorem Instruction.oneLine_line (i : Nat) (ins : Instruction) : OneLine (ins.line i) := by
  have hindex : OneLine (Listing.index i) := fun c hc =>
    Text.shown_of_isDigit ((Listing.padded_index i).isDigit c hc)
  have hstart : OneLine (Listing.index i ++ ": ") := hindex.append (by decide)
  exact (hstart.append ins.opcode.oneLine_mnemonic).append ins.oneLine_operandText

namespace Program

/-- The lines of a program's listing, without their newlines. -/
def lines (program : Program) : List String :=
  program.toList.mapIdx fun i ins => ins.line i

theorem getElem?_lines (program : Program) (i : Nat) :
    program.lines[i]? = (program[i]?).map (Instruction.line i) := by
  simp [lines]

theorem listing_eq (program : Program) :
    program.listing = String.join (program.lines.map (· ++ "\n")) := by
  have hlines : program.toList.mapIdx Instruction.listingLine =
      program.lines.map (· ++ "\n") := by
    apply List.ext_getElem?
    intro i
    rw [List.getElem?_mapIdx, List.getElem?_map, getElem?_lines, Array.getElem?_toList]
    cases program[i]? with
    | none => rfl
    | some ins => exact congrArg some (ins.listingLine_eq i)
  rw [listing, hlines]

/-- No control character is in a line, and so neither a newline nor a carriage return. -/
theorem not_mem_of_mem_lines {program : Program} {line : String} {c : Char}
    (hline : line ∈ program.lines) (hc : ¬ Shown c) : c ∉ line.toList := by
  obtain ⟨i, hi⟩ := List.mem_iff_getElem?.1 hline
  rw [getElem?_lines] at hi
  obtain ⟨ins, -, rfl⟩ := Option.map_eq_some_iff.1 hi
  exact (ins.oneLine_line i).not_mem hc

theorem lines_inj {program other : Program} (h : program.lines = other.lines) :
    program = other := by
  apply Array.ext_getElem?
  intro i
  have hi := congrArg (·[i]?) h
  simp only [getElem?_lines] at hi
  exact (Option.map_inj_right fun _ _ => Instruction.line_inj).1 hi

/-- A listing determines its program. -/
theorem listing_inj {program other : Program} (h : program.listing = other.listing) :
    program = other := by
  have htoList (p : Program) :
      p.listing.toList = (p.lines.map String.toList).flatMap (· ++ ['\n']) := by
    simp [listing_eq, String.toList_join, List.flatMap_map]
  have hnewline (p : Program) : ∀ line ∈ p.lines.map String.toList, '\n' ∉ line := by
    intro line hline
    obtain ⟨text, htext, rfl⟩ := List.mem_map.1 hline
    exact not_mem_of_mem_lines htext (by decide)
  have hlists := congrArg String.toList h
  rw [htoList, htoList] at hlists
  have hlines := Text.lines_inj (hnewline program) (hnewline other) hlists
  exact lines_inj (List.map_inj_right (fun _ _ => String.toList_inj.1) |>.1 hlines)

end Program

/-! ## Disassembly -/

namespace Command

open Bytecode (Bytes)

theorem run_respond_disassemble {σ : Type} {setting : Setting (StateM σ)} {env : Environment}
    {files after : σ} {words : List String} {file : String} {bytes : Bytes} {program : Program}
    (fuel : Nat) (hparse : setting.parser env words = .command (.disassemble file))
    (hread : (setting.host.read file).run files = (.ok bytes, after))
    (hdecode : Bytecode.decode bytes = .ok program) :
    (setting.respond fuel env words).run files =
      (.done
        { exit := exitOk
          stdout := program.listing
          stderr := logNotices setting.subscriber env }, after) := by
  rw [Setting.run_respond, Setting.run_start, hparse, Setting.taskOf, task, Task.after,
    Task.run_perform_read, hread]
  simp [Reply.after, Reply.carryOn, disassembleFile, readProgram, hdecode]

/-- Disassembling a file that holds a program prints the program's listing, with any parser that reads
the command line so and on any host that has the file. For any program, the listing is one line for each
instruction, each ended by a newline and with no other newline or carriage return in it. Each line begins
with the index of its instruction, with zeros before it up to four digits. No other program has the same
listing. -/
theorem disassemble_lists_program (program : Program) :
    (∀ (σ : Type) (setting : Setting (StateM σ)) (fuel : Nat) (env : Environment) (files after : σ)
      (words : List String) (file : String) (bytes : Bytes),
      setting.parser env words = .command (.disassemble file) →
      (setting.host.read file).run files = (.ok bytes, after) →
      Bytecode.decode bytes = .ok program →
        (setting.respond fuel env words).run files =
          (.done
            { exit := exitOk
              stdout := program.listing
              stderr := logNotices setting.subscriber env }, after)) ∧
    (∃ lines : List String, lines.length = program.size ∧
      program.listing = String.join (lines.map (· ++ "\n")) ∧
      (∀ line ∈ lines, '\n' ∉ line.toList ∧ '\r' ∉ line.toList) ∧
      ∀ i line, lines[i]? = some line →
        ∃ digits rest, line.toList = digits ++ ':' :: rest ∧ Text.Padded 4 i digits) ∧
    ∀ other : Program, other.listing = program.listing → other = program := by
  refine ⟨?_, ⟨program.lines, ?_, program.listing_eq, ?_, ?_⟩, fun _ => Program.listing_inj⟩
  · intro σ setting fuel env files after words file bytes hparse hread hdecode
    exact run_respond_disassemble fuel hparse hread hdecode
  · simp [Program.lines]
  · intro line hline
    exact ⟨Program.not_mem_of_mem_lines hline (by decide),
      Program.not_mem_of_mem_lines hline (by decide)⟩
  · intro i line hline
    rw [Program.getElem?_lines] at hline
    obtain ⟨ins, -, rfl⟩ := Option.map_eq_some_iff.1 hline
    have hline : (ins.line i).toList = (Listing.index i).toList ++
        ':' :: ' ' :: (ins.opcode.mnemonic ++ ins.operandText).toList := by
      simp [Instruction.line]
    exact ⟨_, _, hline, Listing.padded_index i⟩

/-- A file that pushes a newline and a quote, and then jumps without saying where. -/
theorem disassemble_lists_newline_and_quote :
    (((Directory.setting fun _ => "").respond 0 [] ["disasm", "p"]).run
      { files := [("p", [0x53, 0x56, 0x4D, 0x42, 1, 0, 0, 0, 0, 0, 0, 2,
        0x01, 0x02, 0, 0, 0, 2, 0x0A, 0x22, 0x60, 0x00])] }).1 =
      .done
        { exit := exitOk
          stdout := "0000: push \"\\n\\\"\"\n0001: jmp  ; missing operand\n" } := by
  have hread (bytes : Bytes) : (Directory.host.read "p").run { files := [("p", bytes)] } =
      (.ok bytes, { files := [("p", bytes)] }) := rfl
  have hdecode : Bytecode.decode [0x53, 0x56, 0x4D, 0x42, 1, 0, 0, 0, 0, 0, 0, 2,
      0x01, 0x02, 0, 0, 0, 2, 0x0A, 0x22, 0x60, 0x00] =
        .ok #[⟨.push, some (.text "\n\"")⟩, ⟨.jump, none⟩] := by
    have htext : Bytecode.textBytes "\n\"" = [0x0A, 0x22] := by decide
    have hword : Bytecode.IsWord (Bytecode.textBytes "\n\"").length [0, 0, 0, 2] :=
      ⟨rfl, by rw [htext]; decide⟩
    have hpush : Bytecode.IsInstruction ⟨.push, some (.text "\n\"")⟩
        [0x01, 0x02, 0, 0, 0, 2, 0x0A, 0x22] := ⟨_, .text hword, by rw [htext]; rfl⟩
    have hjump : Bytecode.IsInstruction ⟨.jump, none⟩ [0x60, 0x00] := ⟨_, .none, rfl⟩
    exact Bytecode.decode_eq_ok_iff_isFile.2
      ⟨0, 0, 0, [0, 0, 0, 2], _, ⟨rfl, rfl⟩, .cons hpush (.cons hjump .nil), rfl⟩
  have hlisting : Program.listing #[⟨.push, some (.text "\n\"")⟩, ⟨.jump, none⟩] =
      "0000: push \"\\n\\\"\"\n0001: jmp  ; missing operand\n" := by decide +kernel
  have hparse : parse? [] ["disasm", "p"] = some (.disassemble "p") := by decide
  rw [← hlisting]
  exact congrArg Prod.fst ((disassemble_lists_program _).1 _ (Directory.setting fun _ => "") 0 [] _ _ _
    "p" _ (parser_of_parse? hparse) (hread _) hdecode)

end Command

end StackMachine
