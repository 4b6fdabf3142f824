-- SUMMARY: What a sink with little room holds after lines that do not fit.
import StackMachine.Proofs.Printing

/-!
# Lines beyond the room of a sink

Bytes reach a sink in calls. A call offers the bytes that are left and the sink takes some of them, so
that a line arrives in pieces, and its newline is written after it. None of this shows in the end: the
sink is as if all bytes had come at once.

The main statement is about lines that are printed one after the other to a sink with room for so many
bytes, also after one of them has failed. The sink holds a beginning of all that it was given, as long as
its room, and from the first line that goes beyond the room every line fails for the same cause.
-/

namespace StackMachine

namespace Sink

/-! ## Calls -/

/-- There is room for these bytes. -/
def Fits (sink : Sink) (bytes : Array UInt8) : Prop :=
  ∀ room, sink.room = some room → bytes.size ≤ room

/-- The sink after it took bytes. -/
def taking (sink : Sink) (bytes : Array UInt8) : Sink :=
  { sink with room := sink.room.map (· - bytes.size), received := sink.received ++ bytes }

/-- Write bytes call by call. As long as some are left, a call offers them, and the sink takes one or
more from the front, as many as it likes and has room for. Without room a call fails for the sink's cause
or, if the sink has none, takes no byte, which is an error of its own. -/
inductive Writes : Array UInt8 → Sink → EStateM.Result WriteError Sink Unit → Prop where
  | done (sink : Sink) : Writes #[] sink (.ok () sink)
  | call {taken rest : Array UInt8} {sink : Sink} {result : EStateM.Result WriteError Sink Unit}
      (hsome : taken ≠ #[]) (hfits : sink.Fits taken) (hrest : Writes rest (sink.taking taken) result) :
      Writes (taken ++ rest) sink result
  | refused {bytes : Array UInt8} {sink : Sink} {cause : WriteError} (hsome : bytes ≠ #[])
      (hfull : sink.room = some 0) (hcause : sink.failure = some cause) :
      Writes bytes sink (.error cause sink)
  | ignored {bytes : Array UInt8} {sink : Sink} (hsome : bytes ≠ #[]) (hfull : sink.room = some 0)
      (hcause : sink.failure = none) : Writes bytes sink (.error .writeZero sink)

variable {bytes first second : Array UInt8} {sink middle ended : Sink} {cause : WriteError}

theorem write_of_fits (h : sink.Fits bytes) : write bytes sink = .ok () (sink.taking bytes) := by
  unfold write taking
  cases hroom : sink.room with
  | none => rfl
  | some room => simp only [h room hroom, if_true, Option.map_some]

theorem size_take_of_lt {room : Nat} (h : room < bytes.size) : (bytes.take room).size = room := by
  rw [Array.take_eq_extract, Array.size_extract]
  omega

/-- Bytes that do not fit are taken up to the room. -/
theorem write_of_not_fits {room : Nat} (hroom : sink.room = some room) (h : room < bytes.size) :
    write bytes sink = .error sink.refusal (sink.taking (bytes.take room)) := by
  have hbeyond : ¬ bytes.size ≤ room := Nat.not_le_of_lt h
  simp only [write, taking, hroom, hbeyond, if_false, Option.map_some, size_take_of_lt h, Nat.sub_self]

theorem fits_or_exists_room (sink : Sink) (bytes : Array UInt8) :
    sink.Fits bytes ∨ ∃ room, sink.room = some room ∧ room < bytes.size := by
  by_cases h : sink.Fits bytes
  · exact .inl h
  · simp only [Fits, not_forall, Nat.not_le] at h
    obtain ⟨room, hroom, hlt⟩ := h
    exact .inr ⟨room, hroom, hlt⟩

/-! ## One write after the other -/

theorem taking_append (sink : Sink) (first second : Array UInt8) :
    sink.taking (first ++ second) = (sink.taking first).taking second := by
  simp only [taking, Option.map_map, Array.append_assoc, Array.size_append]
  congr 2
  funext room
  exact Nat.sub_add_eq room first.size second.size

theorem fits_append_iff :
    sink.Fits (first ++ second) ↔ sink.Fits first ∧ (sink.taking first).Fits second := by
  simp only [Fits, taking, Array.size_append, Option.map_eq_some_iff]
  constructor
  · intro h
    refine ⟨fun room hroom => ?_, ?_⟩
    · have := h room hroom
      omega
    · rintro _ ⟨room, hroom, rfl⟩
      have := h room hroom
      omega
  · rintro ⟨hfirst, hsecond⟩ room hroom
    have := hfirst room hroom
    have := hsecond _ ⟨room, hroom, rfl⟩
    omega

/-- After a write that succeeded, the next goes on where it ended. -/
theorem write_append_of_ok (h : write first sink = .ok () middle) :
    write (first ++ second) sink = write second middle := by
  rcases fits_or_exists_room sink first with hfits | ⟨room, hroom, hlt⟩
  · rw [write_of_fits hfits] at h
    cases h
    rcases fits_or_exists_room (sink.taking first) second with hrest | ⟨left, hleft, hlt⟩
    · rw [write_of_fits hrest, write_of_fits (fits_append_iff.2 ⟨hfits, hrest⟩), taking_append]
    · obtain ⟨room, hroom, rfl⟩ := Option.map_eq_some_iff.1 hleft
      have hle := hfits room hroom
      have hcut : (first ++ second).take room = first ++ second.take (room - first.size) := by
        simp only [Array.take_eq_extract, Array.extract_append, Array.extract_eq_self_of_le hle,
          Nat.zero_sub]
      have hbeyond : room < (first ++ second).size := by
        rw [Array.size_append]
        omega
      rw [write_of_not_fits hroom hbeyond, write_of_not_fits hleft hlt, hcut, taking_append]
      rfl
  · rw [write_of_not_fits hroom hlt] at h
    cases h

/-- After a write that failed, nothing more is written. -/
theorem write_append_of_error (h : write first sink = .error cause ended) :
    write (first ++ second) sink = .error cause ended := by
  rcases fits_or_exists_room sink first with hfits | ⟨room, hroom, hlt⟩
  · rw [write_of_fits hfits] at h
    cases h
  · have hcut : (first ++ second).take room = first.take room := by
      simp [Array.take_eq_extract, Array.extract_append, Nat.sub_eq_zero_of_le (Nat.le_of_lt hlt)]
    have hbeyond : room < (first ++ second).size := by
      rw [Array.size_append]
      omega
    rw [write_of_not_fits hroom hbeyond, hcut, ← write_of_not_fits hroom hlt, h]

theorem taking_empty (sink : Sink) : sink.taking #[] = sink := by
  obtain ⟨room, failure, received, turns⟩ := sink
  cases room <;> simp [taking]

/-- A full sink stays as it is. -/
theorem write_of_full (hsome : bytes ≠ #[]) (hfull : sink.room = some 0) :
    write bytes sink = .error sink.refusal sink := by
  have hnone : bytes.take 0 = #[] := Array.extract_zero
  rw [write_of_not_fits hfull (Array.size_pos_iff.2 hsome), hnone, taking_empty]

/-! ## Calls and writes -/

theorem writes_of_full (hsome : bytes ≠ #[]) (hfull : sink.room = some 0) :
    Writes bytes sink (.error sink.refusal sink) := by
  unfold refusal
  cases hcause : sink.failure with
  | none => exact .ignored hsome hfull hcause
  | some cause => exact .refused hsome hfull hcause

/-- However a sink splits bytes into calls, they are written as if they had come at once. -/
theorem write_eq_of_writes {result : EStateM.Result WriteError Sink Unit}
    (h : Writes bytes sink result) : write bytes sink = result := by
  induction h with
  | done sink =>
    have hfits : sink.Fits #[] := fun room _ => Nat.zero_le room
    rw [write_of_fits hfits, taking_empty]
  | call _ hfits _ ih => rw [write_append_of_ok (write_of_fits hfits), ih]
  | refused hsome hfull hcause => rw [write_of_full hsome hfull, refusal, hcause, Option.getD_some]
  | ignored hsome hfull hcause => rw [write_of_full hsome hfull, refusal, hcause, Option.getD_none]

/-- Bytes beyond the room are written in two calls: one takes what fits and the next fails. -/
theorem writes_of_not_fits {room : Nat} (hroom : sink.room = some room) (h : room < bytes.size)
    (hpos : 0 < room) : Writes bytes sink (.error sink.refusal (sink.taking (bytes.take room))) := by
  have hsize := size_take_of_lt h
  have hsome : bytes.take room ≠ #[] := by rwa [← Array.size_pos_iff, hsize]
  have hfits : sink.Fits (bytes.take room) := by
    intro room' hroom'
    rw [hroom] at hroom'
    cases hroom'
    exact Nat.le_of_eq hsize
  have hfull : (sink.taking (bytes.take room)).room = some 0 := by
    simp only [taking, hroom, hsize, Option.map_some, Nat.sub_self]
  have hleft : bytes.extract room bytes.size ≠ #[] := by
    rw [← Array.size_pos_iff, Array.size_extract]
    omega
  have hsplit : bytes.take room ++ bytes.extract room bytes.size = bytes := by
    rw [Array.take_eq_extract, Array.extract_append_extract, Nat.min_eq_left (Nat.zero_le room),
      Nat.max_eq_right (Nat.le_of_lt h), Array.extract_size]
  have hwrites := Writes.call hsome hfits (writes_of_full hleft hfull)
  rwa [hsplit] at hwrites

theorem writes_write (bytes : Array UInt8) (sink : Sink) : Writes bytes sink (write bytes sink) := by
  by_cases hempty : bytes = #[]
  · rw [hempty, write_eq_of_writes (.done sink)]
    exact .done sink
  rcases fits_or_exists_room sink bytes with hfits | ⟨room, hroom, hlt⟩
  · have hwrites := Writes.call hempty hfits (.done _)
    rwa [Array.append_empty, ← write_of_fits hfits] at hwrites
  · by_cases hzero : room = 0
    · rw [write_of_full hempty (hzero ▸ hroom)]
      exact writes_of_full hempty (hzero ▸ hroom)
    · rw [write_of_not_fits hroom hlt]
      exact writes_of_not_fits hroom hlt (Nat.pos_of_ne_zero hzero)

theorem writes_iff {result : EStateM.Result WriteError Sink Unit} :
    Writes bytes sink result ↔ write bytes sink = result :=
  ⟨write_eq_of_writes, fun h => h ▸ writes_write bytes sink⟩

end Sink

namespace Output

/-! ## Lines -/

/-- Print a line call by call: first the line is written and then, unless that failed, the newline. -/
inductive Prints (line : String) (sink : Sink) : EStateM.Result WriteError Output Unit → Prop where
  | whole {middle ended : Sink} (hline : Sink.Writes (Text.utf8 line) sink (.ok () middle))
      (hend : Sink.Writes (Text.utf8 "\n") middle (.ok () ended)) :
      Prints line sink (.ok () (.writer ended))
  | beforeNewline {middle ended : Sink} {cause : WriteError}
      (hline : Sink.Writes (Text.utf8 line) sink (.ok () middle))
      (hend : Sink.Writes (Text.utf8 "\n") middle (.error cause ended)) :
      Prints line sink (.error cause (.writer ended))
  | inLine {ended : Sink} {cause : WriteError}
      (hline : Sink.Writes (Text.utf8 line) sink (.error cause ended)) :
      Prints line sink (.error cause (.writer ended))

theorem println_writer_of_ok {line : String} {sink ended : Sink} (hturns : sink.turns = [])
    (h : Sink.write (Text.utf8 (line ++ "\n")) sink = .ok () ended) :
    println line (.writer sink) = .ok () (.writer ended) := by
  simp only [println, Sink.writeLine, hturns, h]

theorem println_writer_of_error {line : String} {sink ended : Sink} {cause : WriteError}
    (hturns : sink.turns = [])
    (h : Sink.write (Text.utf8 (line ++ "\n")) sink = .error cause ended) :
    println line (.writer sink) = .error cause (.writer ended) := by
  simp only [println, Sink.writeLine, hturns, h]

theorem println_eq_of_prints {line : String} {sink : Sink}
    {result : EStateM.Result WriteError Output Unit} (hturns : sink.turns = [])
    (h : Prints line sink result) : println line (.writer sink) = result := by
  cases h with
  | whole hline hend =>
    apply println_writer_of_ok hturns
    rw [Text.utf8_append, Sink.write_append_of_ok (Sink.writes_iff.1 hline), Sink.writes_iff.1 hend]
  | beforeNewline hline hend =>
    apply println_writer_of_error hturns
    rw [Text.utf8_append, Sink.write_append_of_ok (Sink.writes_iff.1 hline), Sink.writes_iff.1 hend]
  | inLine hline =>
    apply println_writer_of_error hturns
    rw [Text.utf8_append, Sink.write_append_of_error (Sink.writes_iff.1 hline)]

/-- Printing to a sink that goes by its room is writing the line and then the newline, in whatever
pieces the sink takes them. -/
theorem prints_iff {line : String} {sink : Sink} {result : EStateM.Result WriteError Output Unit}
    (hturns : sink.turns = []) : Prints line sink result ↔ println line (.writer sink) = result := by
  refine ⟨println_eq_of_prints hturns, fun h => ?_⟩
  have hprints : ∃ result, Prints line sink result := by
    cases hline : Sink.write (Text.utf8 line) sink with
    | error cause ended => exact ⟨_, .inLine (Sink.writes_iff.2 hline)⟩
    | ok _ middle =>
      cases hend : Sink.write (Text.utf8 "\n") middle with
      | error cause ended =>
        exact ⟨_, .beforeNewline (Sink.writes_iff.2 hline) (Sink.writes_iff.2 hend)⟩
      | ok _ ended => exact ⟨_, .whole (Sink.writes_iff.2 hline) (Sink.writes_iff.2 hend)⟩
  obtain ⟨result', hprints⟩ := hprints
  rwa [← h, println_eq_of_prints hturns hprints]

/-! ## Lines one after the other -/

/-- The output after lines were printed one after the other, whether or not it took them. -/
def printLines : List String → Output → Output
  | [], output => output
  | line :: lines, output =>
    match println line output with
    | .ok _ output => printLines lines output
    | .error _ output => printLines lines output

/-- The text of lines, each followed by a newline. -/
def linesText (lines : List String) : String :=
  String.join (lines.map (· ++ "\n"))

theorem linesText_cons (line : String) (lines : List String) :
    linesText (line :: lines) = line ++ "\n" ++ linesText lines :=
  String.join_cons

theorem linesText_concat (lines : List String) (line : String) :
    linesText (lines ++ [line]) = linesText lines ++ line ++ "\n" := by
  simp [linesText, String.join_append, String.append_assoc]

section Bounded

variable {room : Nat} {text : String} (failure : Option WriteError)

/-- A line beyond the room fails. -/
theorem println_bounded_of_lt {line : String} (h : room < (Text.utf8 (text ++ line ++ "\n")).size) :
    println line (bounded room failure text) =
      .error (failure.getD .writeZero) (bounded room failure (text ++ line ++ "\n")) := by
  rw [println_bounded, if_neg (Nat.not_le_of_lt h)]

/-- What a sink makes of lines depends only on all that it was given. -/
theorem printLines_bounded (room : Nat) (text : String) (lines : List String) :
    printLines lines (bounded room failure text) = bounded room failure (text ++ linesText lines) := by
  induction lines generalizing text with
  | nil => simp [printLines, linesText]
  | cons line lines ih =>
    rw [linesText_cons, ← String.append_assoc, ← String.append_assoc, ← ih, printLines]
    by_cases hfits : (Text.utf8 (text ++ line ++ "\n")).size ≤ room
    · rw [accepts_bounded failure hfits]
    · rw [println_bounded_of_lt failure (Nat.lt_of_not_le hfits)]

theorem printLines_fresh (room : Nat) (lines : List String) :
    printLines lines (.writer { room := some room, failure }) =
      bounded room failure (linesText lines) := by
  rw [← bounded_empty, printLines_bounded, String.empty_append]

/-- A sink that was given more than it has room for refuses every line. -/
theorem println_after_refusal (h : room < (Text.utf8 text).size) (after : List String)
    (next : String) :
    println next (printLines after (bounded room failure text)) =
      .error (failure.getD .writeZero) (bounded room failure text) := by
  have hbeyond : room < (Text.utf8 (text ++ next ++ "\n")).size := by
    rw [String.append_assoc, Text.size_utf8_append]
    exact Nat.lt_add_right _ h
  rw [printLines_bounded, bounded_append failure _ (Nat.le_of_lt h), println_bounded_of_lt failure hbeyond,
    String.append_assoc, bounded_append failure _ (Nat.le_of_lt h)]

end Bounded

/-- Lines are printed one after the other to a fresh writer whose sink takes so many bytes and no more,
also when some of them fail. After each line the sink holds as much of all lines and newlines so far as
it has room for. A line is taken exactly if everything up to its newline fits. After a line that failed
every other fails too, for the cause that the sink has for refusing, and leaves the sink as it is. In
what pieces the sink takes a line and its newline makes no difference. -/
theorem println_keeps_beginning (room : Nat) (failure : Option WriteError) (before : List String)
    (line : String) :
    let fresh : Output := .writer { room := some room, failure }
    let attempted := Text.utf8 (linesText (before ++ [line]))
    (printLines (before ++ [line]) fresh).sent? = some (attempted.take room) ∧
    ((∃ output, println line (printLines before fresh) = .ok () output) ↔ attempted.size ≤ room) ∧
    (∀ cause output, println line (printLines before fresh) = .error cause output →
      cause = failure.getD .writeZero ∧
        ∀ after next, println next (printLines after output) = .error cause output) ∧
    ∃ sink, printLines before fresh = .writer sink ∧
      ∀ result, Prints line sink result ↔ println line (.writer sink) = result := by
  intro fresh attempted
  have hafter (lines : List String) : printLines lines fresh = bounded room failure (linesText lines) :=
    printLines_fresh failure room lines
  have hattempted : attempted = Text.utf8 (linesText before ++ line ++ "\n") := by
    rw [← linesText_concat]
  rw [hafter, hafter, hattempted]
  refine ⟨by rw [linesText_concat]; rfl, ?_, ?_, _, rfl, fun result => prints_iff rfl⟩
  · constructor
    · rintro ⟨output, htaken⟩
      by_contra hbeyond
      rw [println_bounded_of_lt failure (Nat.lt_of_not_le hbeyond)] at htaken
      cases htaken
    · intro hfits
      exact ⟨_, accepts_bounded failure hfits⟩
  · intro cause output hfailed
    by_cases hfits : (Text.utf8 (linesText before ++ line ++ "\n")).size ≤ room
    · rw [accepts_bounded failure hfits] at hfailed
      cases hfailed
    · have hbeyond := Nat.lt_of_not_le hfits
      rw [println_bounded_of_lt failure hbeyond] at hfailed
      cases hfailed
      exact ⟨rfl, println_after_refusal failure hbeyond⟩

/-- A sink with room for a character of two bytes but not for the newline behind it. The line fails after
the character was taken, and then even an empty line fails. -/
theorem println_without_room_for_newline :
    println "é" (.writer { room := some 2, failure := some .brokenPipe }) =
        .error .brokenPipe
          (.writer { room := some 0, failure := some .brokenPipe, received := #[0xC3, 0xA9] }) ∧
      println "" (.writer
          { room := some 0, failure := some .brokenPipe, received := #[0xC3, 0xA9] }) =
        .error .brokenPipe
          (.writer { room := some 0, failure := some .brokenPipe, received := #[0xC3, 0xA9] }) := by
  have hfailed : println "é" (.writer { room := some 2, failure := some .brokenPipe }) =
      .error .brokenPipe
        (.writer { room := some 0, failure := some .brokenPipe, received := #[0xC3, 0xA9] }) := rfl
  obtain ⟨-, -, hlater, -⟩ := println_keeps_beginning 2 (some .brokenPipe) [] "é"
  exact ⟨hfailed, (hlater _ _ hfailed).2 [] ""⟩

end Output

end StackMachine
