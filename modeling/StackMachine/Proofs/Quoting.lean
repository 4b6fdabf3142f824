-- SUMMARY: Quoted texts and operands can be read back, and stay on their line.
import Mathlib.Data.List.Basic
import StackMachine.Text.Decimal
import StackMachine.Value

/-!
# Reading quoted text

What a reader can tell from the text of an operand. The escape of a character is never the beginning
of another escape, so a quoted text determines what was quoted, and its first character tells an
operand's kind. No operand leaves its line.
-/

namespace StackMachine.Text

/-! ## Marks -/

/-- A text that is read up to a mark is determined, and so is what follows the mark. -/
theorem append_mark_inj {α : Type} {mark : α} {xs ys rest rest' : List α} (hx : mark ∉ xs)
    (hy : mark ∉ ys) (h : xs ++ mark :: rest = ys ++ mark :: rest') : xs = ys ∧ rest = rest' := by
  induction xs generalizing ys with
  | nil =>
    cases ys with
    | nil => exact ⟨rfl, (List.cons.inj h).2⟩
    | cons y ys => exact absurd (List.cons.inj h).1 (List.ne_of_not_mem_cons hy)
  | cons x xs ih =>
    cases ys with
    | nil => exact absurd (List.cons.inj h).1.symm (List.ne_of_not_mem_cons hx)
    | cons y ys =>
      obtain ⟨rfl, htail⟩ := List.cons.inj h
      obtain ⟨rfl, hrest⟩ :=
        ih (List.not_mem_of_not_mem_cons hx) (List.not_mem_of_not_mem_cons hy) htail
      exact ⟨rfl, hrest⟩

/-- The character is not one of the controls below the space, such as the ends of lines. -/
def Shown (c : Char) : Prop := 0x20 ≤ c.toNat

instance : DecidablePred Shown :=
  fun c => inferInstanceAs (Decidable (0x20 ≤ c.toNat))

/-- A text that stays on its line. -/
def OneLine (s : String) : Prop := ∀ c ∈ s.toList, Shown c

instance : DecidablePred OneLine :=
  fun s => List.decidableBAll Shown s.toList

theorem OneLine.append {s t : String} (hs : OneLine s) (ht : OneLine t) : OneLine (s ++ t) := by
  intro c hc
  rw [String.toList_append, List.mem_append] at hc
  exact hc.elim (hs c) (ht c)

theorem OneLine.not_mem {s : String} {c : Char} (h : OneLine s) (hc : ¬ Shown c) : c ∉ s.toList :=
  fun hmem => hc (h c hmem)

/-! ## Digits -/

theorem digitChar_inj {m n : Nat} (hm : m < 16) (hn : n < 16) (h : m.digitChar = n.digitChar) :
    m = n := by
  have hall : ∀ m < 16, ∀ n < 16, m.digitChar = n.digitChar → m = n := by decide
  exact hall m hm n hn h

/-- A number is determined by its hexadecimal digits. -/
theorem hexDigits_inj {m n : Nat} (h : Nat.toDigits 16 m = Nat.toDigits 16 n) : m = n := by
  induction m using Nat.strongRecOn generalizing n with
  | ind m ih =>
    rw [Nat.toDigits_eq_if (by decide : 1 < 16), Nat.toDigits_eq_if (n := n) (by decide : 1 < 16)] at h
    split at h <;> split at h
    case isTrue.isTrue hm hn => exact digitChar_inj hm hn (List.singleton_inj.1 h)
    case isTrue.isFalse => simp [List.singleton_eq_append_iff] at h
    case isFalse.isTrue => simp [List.append_eq_singleton_iff] at h
    case isFalse.isFalse hm hn =>
      obtain ⟨hhigh, hlow⟩ := List.append_inj' h rfl
      have hdiv : m / 16 = n / 16 := ih (m / 16) (by omega) hhigh
      have hmod : m % 16 = n % 16 :=
        digitChar_inj (Nat.mod_lt _ (by decide)) (Nat.mod_lt _ (by decide))
          (List.singleton_inj.1 hlow)
      omega

theorem mem_hexDigits {n : Nat} {c : Char} (h : c ∈ Nat.toDigits 16 n) :
    ∃ d < 16, c = d.digitChar := by
  induction n using Nat.strongRecOn with
  | ind n ih =>
    rw [Nat.toDigits_eq_if (by decide : 1 < 16)] at h
    split at h
    case isTrue hn => exact ⟨n, hn, List.mem_singleton.1 h⟩
    case isFalse hn =>
      obtain h | h := List.mem_append.1 h
      · exact ih (n / 16) (by omega) h
      · exact ⟨n % 16, Nat.mod_lt _ (by decide), List.mem_singleton.1 h⟩

theorem shown_of_isDigit {c : Char} (h : c.isDigit = true) : Shown c := by
  have hlow := (Char.isDigit_iff_toNat.1 h).1
  exact Nat.le_trans (by decide) hlow

theorem isAlpha_iff_toNat {c : Char} : c.isAlpha = true ↔
    65 ≤ c.toNat ∧ c.toNat ≤ 90 ∨ 97 ≤ c.toNat ∧ c.toNat ≤ 122 := by
  have hranges : c.isAlpha = (decide ('A'.val ≤ c.val ∧ c.val ≤ 'Z'.val) ||
      decide ('a'.val ≤ c.val) && decide (c.val ≤ 'z'.val)) := rfl
  simp only [hranges, Bool.or_eq_true, Bool.and_eq_true, decide_eq_true_eq, UInt32.le_iff_toNat_le]
  rfl

theorem shown_of_isAlphanum {c : Char} (h : c.isAlphanum = true) : Shown c := by
  rcases Bool.or_eq_true_iff.1 h with halpha | hdigit
  · have hranges := isAlpha_iff_toNat.1 halpha
    unfold Shown
    omega
  · exact shown_of_isDigit hdigit

theorem isDigit_of_mem_repr {n : Nat} {c : Char} (h : c ∈ n.repr.toList) : c.isDigit = true := by
  rw [Nat.toList_repr] at h
  exact Nat.isDigit_of_mem_toDigits (by decide) (by decide) h

theorem oneLine_natRepr (n : Nat) : OneLine n.repr :=
  fun _ hc => shown_of_isDigit (isDigit_of_mem_repr hc)

theorem oneLine_intRepr (n : Int) : OneLine n.repr := by
  rw [Int.repr_eq_if]
  split
  · exact oneLine_natRepr _
  · exact .append (by decide) (oneLine_natRepr _)

/-- Zeros before a number do not change what its digits spell. -/
theorem ofDigits_zeros_repr (k n : Nat) :
    ofDigits (List.replicate k '0' ++ n.repr.toList) = n := by
  unfold ofDigits
  rw [← Nat.ofDigitChars_eq_foldl, Nat.ofDigitChars_append, Nat.ofDigitChars_replicate_zero,
    Nat.mul_zero, Nat.toList_repr, Nat.ofDigitChars_ten_toDigits]

theorem natRepr_inj {m n : Nat} (h : m.repr = n.repr) : m = n := by
  rw [← ofDigits_zeros_repr 0 m, h, ofDigits_zeros_repr]

/-- The decimal text of an integer determines it: only that of a negative one has a sign. -/
theorem intRepr_inj {m n : Int} (h : m.repr = n.repr) : m = n := by
  have hsign {k : Nat} {text : String} : k.repr ≠ "-" ++ text := by
    intro hk
    have hmem : '-' ∈ k.repr.toList := by
      rw [hk, String.toList_append]
      exact List.mem_append_left _ (by decide)
    exact absurd (isDigit_of_mem_repr hmem) (by decide)
  rw [Int.repr_eq_if, Int.repr_eq_if] at h
  split at h <;> split at h
  · have habs := natRepr_inj h
    omega
  · exact absurd h hsign
  · exact absurd h.symm hsign
  · have habs := natRepr_inj ((String.append_right_inj "-").1 h)
    omega

theorem number?_repr {n : Nat} (h : n < numberBound) : number? n.repr = some n := by
  have hdigits : n.repr.toList.all Char.isDigit = true :=
    List.all_eq_true.2 fun c hc => isDigit_of_mem_repr hc
  have hvalue : ofDigits n.repr.toList = n := ofDigits_zeros_repr 0 n
  have hne : n.repr.toList ≠ [] := by
    rw [Nat.toList_repr]
    exact Nat.toDigits_ne_nil
  have hplus : n.repr.toList.head? ≠ some '+' := by
    intro hhead
    exact absurd (isDigit_of_mem_repr (List.mem_of_head? hhead)) (by decide)
  unfold number?
  split
  · rename_i digits heq
    rw [heq] at hplus
    exact absurd rfl hplus
  · simp only [hne, hdigits, hvalue, h, ne_eq, not_false_eq_true, and_self, if_true]

/-! ## Escapes -/

/-- The characters whose escape is one letter after a backslash, with that letter. -/
def letters : List (Char × Char) :=
  [('\x00', '0'), ('\t', 't'), ('\r', 'r'), ('\n', 'n'), ('"', '"'), ('\\', '\\')]

/-- A character is escaped by a letter, or shows as itself, or is escaped by its code point. -/
theorem escape_cases (c : Char) :
    (∃ letter, (c, letter) ∈ letters ∧ escape c = ['\\', letter]) ∨
    (c ≠ '\\' ∧ c ≠ '"' ∧ Shown c ∧ escape c = [c]) ∨
    escape c = hexEscape c := by
  fun_cases escape c with
  | case7 _ _ _ _ hquote hbackslash hplain =>
    refine .inr (.inl ⟨hbackslash, hquote, ?_, rfl⟩)
    unfold isPlain at hplain
    unfold Shown
    split at hplain
    · exact of_decide_eq_true hplain
    · omega
  | case8 => exact .inr (.inr rfl)
  | _ => exact .inl ⟨_, by simp [letters, *], rfl⟩

theorem letters_inj {p q : Char × Char} (hp : p ∈ letters) (hq : q ∈ letters) (h : p.2 = q.2) :
    p = q := by
  have hall : ∀ p ∈ letters, ∀ q ∈ letters, p.2 = q.2 → p = q := by decide
  exact hall p hp q hq h

theorem ne_of_mem_letters {p : Char × Char} (h : p ∈ letters) : p.2 ≠ 'u' := by
  have hall : ∀ p ∈ letters, p.2 ≠ 'u' := by decide
  exact hall p h

/-- The code point of a character is read up to the closing brace. -/
theorem hexEscape_append_inj {c d : Char} {rest rest' : List Char}
    (h : hexEscape c ++ rest = hexEscape d ++ rest') : c = d ∧ rest = rest' := by
  have hbrace (n : Nat) : '\x7d' ∉ Nat.toDigits 16 n := by
    intro hmem
    obtain ⟨k, -, hk⟩ := mem_hexDigits hmem
    exact Nat.digitChar_ne '\x7d' (by decide) hk.symm
  simp only [hexEscape, List.cons_append, List.append_assoc, List.cons.injEq, true_and,
    List.nil_append] at h
  obtain ⟨hdigits, hrest⟩ := append_mark_inj (hbrace _) (hbrace _) h
  exact ⟨Char.toNat_inj.1 (hexDigits_inj hdigits), hrest⟩

/-- No escape is the beginning of another: whatever follows, the first character is determined. -/
theorem escape_append_inj {c d : Char} {rest rest' : List Char}
    (h : escape c ++ rest = escape d ++ rest') : c = d ∧ rest = rest' := by
  obtain ⟨a, ha, hc⟩ | ⟨hcb, -, -, hc⟩ | hc := escape_cases c <;>
    obtain ⟨b, hb, hd⟩ | ⟨hdb, -, -, hd⟩ | hd := escape_cases d <;>
    rw [hc, hd] at h
  -- A plain character is no backslash, and no letter begins a code point.
  case inl.inl =>
    obtain ⟨hletters, hrest⟩ := List.cons.inj (List.cons.inj h).2
    exact ⟨congrArg Prod.fst (letters_inj ha hb hletters), hrest⟩
  case inl.inr.inl => exact absurd (List.cons.inj h).1.symm hdb
  case inl.inr.inr =>
    exact absurd (List.cons.inj (List.cons.inj h).2).1 (ne_of_mem_letters ha)
  case inr.inl.inl => exact absurd (List.cons.inj h).1 hcb
  case inr.inl.inr.inl => exact List.cons.inj h
  case inr.inl.inr.inr => exact absurd (List.cons.inj h).1 hcb
  case inr.inr.inl =>
    exact absurd (List.cons.inj (List.cons.inj h).2).1.symm (ne_of_mem_letters hb)
  case inr.inr.inr.inl => exact absurd (List.cons.inj h).1.symm hdb
  case inr.inr.inr.inr => exact hexEscape_append_inj h

theorem escape_ne_nil (c : Char) : escape c ≠ [] := by
  obtain ⟨_, -, hc⟩ | ⟨-, -, -, hc⟩ | hc := escape_cases c <;> rw [hc] <;> exact List.cons_ne_nil _ _

theorem shown_of_mem_escape {c a : Char} (h : a ∈ escape c) : Shown a := by
  obtain ⟨letter, hletter, hc⟩ | ⟨-, -, hshown, hc⟩ | hc := escape_cases c <;> rw [hc] at h
  · have hall : ∀ p ∈ letters, Shown p.2 := by decide
    obtain rfl | rfl := List.mem_pair.1 h
    · decide
    · exact hall _ hletter
  · rwa [List.mem_singleton.1 h]
  · simp only [hexEscape, List.cons_append, List.mem_cons, List.mem_append, List.not_mem_nil,
      or_false] at h
    obtain rfl | rfl | rfl | hdigit | rfl := h
    · decide
    · decide
    · decide
    · obtain ⟨d, hd, rfl⟩ := mem_hexDigits hdigit
      have hall : ∀ d < 16, Shown d.digitChar := by decide +kernel
      exact hall d hd
    · decide

/-! ## Quoted text -/

theorem flatMap_escape_inj {s t : List Char} (h : s.flatMap escape = t.flatMap escape) : s = t := by
  induction s generalizing t with
  | nil =>
    cases t with
    | nil => rfl
    | cons d t => simp [escape_ne_nil] at h
  | cons c s ih =>
    cases t with
    | nil => simp [escape_ne_nil] at h
    | cons d t =>
      rw [List.flatMap_cons, List.flatMap_cons] at h
      obtain ⟨rfl, htail⟩ := escape_append_inj h
      rw [ih htail]

theorem toList_quote (s : String) : (quote s).toList = '"' :: (s.toList.flatMap escape ++ ['"']) := by
  simp [quote]

/-- A quoted text determines what was quoted. -/
theorem quote_inj {s t : String} (h : quote s = quote t) : s = t := by
  have hlists := congrArg String.toList h
  rw [toList_quote, toList_quote, List.cons.injEq, List.append_cancel_right_eq] at hlists
  exact String.toList_inj.1 (flatMap_escape_inj hlists.2)

theorem oneLine_quote (s : String) : OneLine (quote s) := by
  intro c h
  rw [toList_quote] at h
  simp only [List.mem_cons, List.mem_append, List.mem_flatMap, List.not_mem_nil, or_false] at h
  obtain rfl | ⟨a, -, ha⟩ | rfl := h
  · decide
  · exact shown_of_mem_escape ha
  · decide

end StackMachine.Text

namespace StackMachine.Value

open Text (OneLine)

/-! ## Operands -/

/-- The kind of operand that a first character announces. -/
def tagOfFirst (c : Char) : Tag :=
  if c = '"' then .text else if c = 't' ∨ c = 'f' then .boolean else .integer

theorem mem_repr_integer {n : Int} {c : Char} (h : c ∈ n.repr.toList) :
    c = '-' ∨ c.isDigit = true := by
  rw [Int.repr_eq_if] at h
  split at h
  · exact .inr (Text.isDigit_of_mem_repr h)
  · simp only [String.toList_append, List.mem_append] at h
    obtain h | h := h
    · exact .inl (by simpa using h)
    · exact .inr (Text.isDigit_of_mem_repr h)

theorem repr_ne_nil (n : Int) : n.repr.toList ≠ [] := by
  rw [Int.repr_eq_if]
  split
  · rw [Nat.toList_repr]
    exact Nat.toDigits_ne_nil
  · simp

/-- The text of an operand announces the operand's kind, and is not blank at first. -/
theorem renderOperand_first (v : Value) :
    ∃ c rest, v.renderOperand.toList = c :: rest ∧ c ≠ ' ' ∧ tagOfFirst c = v.tag := by
  match v with
  | .integer n =>
    obtain ⟨c, rest, hlist⟩ := List.exists_cons_of_ne_nil (repr_ne_nil n.toInt)
    have hmem : c ∈ n.toInt.repr.toList := hlist ▸ List.mem_cons_self
    refine ⟨c, rest, hlist, ?_⟩
    obtain rfl | hdigit := mem_repr_integer hmem
    · exact ⟨by decide, rfl⟩
    · have hne (d : Char) (hd : d.isDigit = false) : c ≠ d := by
        rintro rfl
        rw [hd] at hdigit
        cases hdigit
      refine ⟨hne ' ' rfl, ?_⟩
      simp only [tagOfFirst, hne '"' rfl, hne 't' rfl, hne 'f' rfl, or_self, if_false, tag]
  | .text s => exact ⟨'"', _, Text.toList_quote s, by decide, rfl⟩
  | .boolean true => exact ⟨'t', _, rfl, by decide, rfl⟩
  | .boolean false => exact ⟨'f', _, rfl, by decide, rfl⟩

/-- The text of an operand determines the operand: its kind by the first character, its value by the
rest. -/
theorem renderOperand_inj {v w : Value} (h : v.renderOperand = w.renderOperand) : v = w := by
  have htag : v.tag = w.tag := by
    obtain ⟨c, rest, hv, -, hc⟩ := renderOperand_first v
    obtain ⟨d, rest', hw, -, hd⟩ := renderOperand_first w
    rw [h, hw] at hv
    rw [← hc, ← hd, (List.cons.inj hv).1]
  cases v with
  | integer m =>
    cases w with
    | integer n => rw [Int32.toInt_inj.1 (Text.intRepr_inj h)]
    | _ => cases htag
  | text s =>
    cases w with
    | text t => rw [Text.quote_inj h]
    | _ => cases htag
  | boolean a =>
    cases w with
    | boolean b =>
      have hall : ∀ a b, (boolean a).renderOperand = (boolean b).renderOperand → a = b := by decide
      rw [hall a b h]
    | _ => cases htag

theorem oneLine_renderOperand (v : Value) : OneLine v.renderOperand := by
  cases v with
  | integer n => exact Text.oneLine_intRepr n.toInt
  | text s => exact Text.oneLine_quote s
  | boolean b =>
    cases b with
    | true => decide
    | false => decide

end StackMachine.Value
