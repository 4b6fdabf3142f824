-- SUMMARY: Division and remainder against the exact quotient.
import Mathlib.Algebra.Order.Floor.Ring
import Mathlib.Data.Int.ModEq
import Mathlib.Data.Rat.Floor
import StackMachine.Proofs.Arithmetic

/-!
# Quotients and remainders

Division and remainder against the exact quotient, which is a rational. Division rounds it toward zero
and the remainder belongs to the quotient rounded down, so quotient, divisor and remainder give back the
dividend only where the two roundings agree. Elsewhere they give one divisor too much.
-/

namespace StackMachine

/-! ## Rounding -/

/-- The exact quotient of two words. -/
def ratio (a b : Int32) : ℚ :=
  a.toInt / b.toInt

/-- A rational rounded toward zero. -/
def truncate (q : ℚ) : ℤ :=
  if 0 ≤ q then ⌊q⌋ else ⌈q⌉

theorem truncate_of_nonneg {q : ℚ} (h : 0 ≤ q) : truncate q = ⌊q⌋ :=
  if_pos h

theorem truncate_neg (q : ℚ) : truncate (-q) = -truncate q := by
  rcases lt_trichotomy q 0 with hneg | rfl | hpos
  · rw [truncate, truncate, if_pos (by linarith), if_neg (by linarith), Int.floor_neg]
  · simp [truncate]
  · rw [truncate, truncate, if_neg (by linarith), if_pos (by linarith), Int.ceil_neg]

theorem floor_div (a b : ℤ) : ⌊(a / b : ℚ)⌋ = a.fdiv b := by
  have hnonneg {a b : ℤ} (hb : 0 ≤ b) : ⌊(a / b : ℚ)⌋ = a.fdiv b := by
    rw [Int.floor_div_cast_of_nonneg hb, Int.floor_intCast, Int.fdiv_eq_ediv_of_nonneg a hb]
  rcases le_total 0 b with hb | hb
  · exact hnonneg hb
  · have hneg := hnonneg (a := -a) (b := -b) (by omega)
    rw [Int.neg_fdiv_neg] at hneg
    rw [← hneg, Int.cast_neg, Int.cast_neg, neg_div_neg_eq]

/-- Dividing and rounding toward zero is truncated division. -/
theorem truncate_div (a b : ℤ) : truncate (a / b : ℚ) = a.tdiv b := by
  have hnat (m n : ℕ) : truncate (m / n : ℚ) = (m : ℤ).tdiv n := by
    have hfloor := floor_div m n
    rw [Int.cast_natCast, Int.cast_natCast] at hfloor
    rw [truncate_of_nonneg (by positivity), hfloor]
    exact Int.fdiv_eq_tdiv_of_nonneg m.cast_nonneg n.cast_nonneg
  -- A sign on either side goes through the division and the rounding.
  obtain ⟨m, rfl | rfl⟩ := a.eq_nat_or_neg <;> obtain ⟨n, rfl | rfl⟩ := b.eq_nat_or_neg
  · exact hnat m n
  · simp [div_neg, truncate_neg, hnat, Int.tdiv_neg]
  · simp [neg_div, truncate_neg, hnat, Int.neg_tdiv]
  · simp [hnat]

/-! ## The quotient -/

/-- The word is the quotient rounded toward zero, wrapped around if it does not fit. Only the opposite of
the least integer does not. -/
structure IsQuotient (a b q : Int32) : Prop where
  wraps : q.toInt ≡ truncate (ratio a b) [ZMOD 2 ^ 32]
  exact_iff : q.toInt = truncate (ratio a b) ↔ ¬ (a = .minValue ∧ b = -1)
  least : a = .minValue → b = -1 → q = .minValue

theorem isQuotient_div (a b : Int32) : IsQuotient a b (a / b) where
  wraps := by
    rw [ratio, truncate_div, Int32.toInt_div]
    exact Int.bmod_emod
  exact_iff := by
    rw [ratio, truncate_div]
    constructor
    · rintro hexact ⟨rfl, rfl⟩
      exact absurd hexact (by decide)
    · intro hfits
      by_cases ha : a = .minValue
      · exact Int32.toInt_div_of_ne_right a b fun hb => hfits ⟨ha, hb⟩
      · exact Int32.toInt_div_of_ne_left a b ha
  least := by
    rintro rfl rfl
    exact Int32.minValue_div_neg_one

/-! ## The remainder -/

/-- The word is what is left of the dividend after the quotient rounded down: zero, or of the sign of the
divisor and smaller than it. -/
structure IsRemainder (a b r : Int32) : Prop where
  value : r.toInt = a.toInt - b.toInt * ⌊ratio a b⌋
  sign : r = 0 ∨ r.toInt.sign = b.toInt.sign
  abs_lt : |r.toInt| < |b.toInt|

/-- A floored remainder lies between zero and the divisor. -/
theorem fmod_bounds (a : ℤ) {b : ℤ} (hb : b ≠ 0) :
    (0 ≤ a.fmod b ∧ a.fmod b < b) ∨ (b < a.fmod b ∧ a.fmod b ≤ 0) := by
  rcases lt_or_gt_of_ne hb with hneg | hpos
  · have hlow := Int.fmod_nonneg_of_pos (-a) (b := -b) (by omega)
    have hhigh := Int.fmod_lt_of_pos (-a) (b := -b) (by omega)
    rw [Int.neg_fmod_neg] at hlow hhigh
    omega
  · exact .inl ⟨Int.fmod_nonneg_of_pos a hpos, Int.fmod_lt_of_pos a hpos⟩

theorem sign_fmod (a : ℤ) {b : ℤ} (hb : b ≠ 0) : a.fmod b = 0 ∨ (a.fmod b).sign = b.sign := by
  rcases fmod_bounds a hb with ⟨hge, hlt⟩ | ⟨hgt, hle⟩
  · rcases hge.eq_or_lt with hzero | hpos
    · exact .inl hzero.symm
    · exact .inr (by rw [Int.sign_eq_one_of_pos hpos, Int.sign_eq_one_of_pos (hpos.trans hlt)])
  · rcases hle.eq_or_lt with hzero | hneg
    · exact .inl hzero
    · exact .inr (by
        rw [Int.sign_eq_neg_one_of_neg hneg, Int.sign_eq_neg_one_of_neg (hgt.trans hneg)])

theorem abs_fmod_lt (a : ℤ) {b : ℤ} (hb : b ≠ 0) : |a.fmod b| < |b| := by
  rcases fmod_bounds a hb with ⟨hge, hlt⟩ | ⟨hgt, hle⟩
  · rw [abs_of_nonneg hge, abs_of_nonneg (hge.trans hlt.le)]
    exact hlt
  · rw [abs_of_nonpos hle, abs_of_nonpos (hgt.le.trans hle)]
    exact neg_lt_neg hgt

theorem isRemainder_fmod (a : Int32) {b : Int32} (hb : b ≠ 0) :
    IsRemainder a b (.ofInt (a.toInt.fmod b.toInt)) := by
  have hb' : b.toInt ≠ 0 := fun h => hb (Int32.toInt_inj.1 h)
  -- A remainder fits because it lies between zero and a word.
  have hbounds := fmod_bounds a.toInt hb'
  have hlow := b.le_toInt
  have hhigh := b.toInt_lt
  have hvalue : (Int32.ofInt (a.toInt.fmod b.toInt)).toInt = a.toInt.fmod b.toInt :=
    Int32.toInt_ofInt_of_le (by omega) (by omega)
  refine ⟨?_, ?_, ?_⟩
  · rw [hvalue, ratio, floor_div, Int.fmod_def]
  · rw [← Int32.toInt_inj, hvalue, Int32.toInt_zero]
    exact sign_fmod a.toInt hb'
  · rw [hvalue]
    exact abs_fmod_lt a.toInt hb'

/-- A remainder that has not the sign of the divisor can be moved to it without leaving the range of
integers. -/
theorem mod_add_in_range {a b : Int32} (h : a % b < 0 ↔ ¬ b < 0) :
    -2 ^ 31 ≤ (a % b).toInt + b.toInt ∧ (a % b).toInt + b.toInt < 2 ^ 31 := by
  rw [Int32.lt_iff_toInt_lt, Int32.lt_iff_toInt_lt, Int32.toInt_zero] at h
  have hlow := (a % b).le_toInt
  have hhigh := (a % b).toInt_lt
  have hlow' := b.le_toInt
  have hhigh' := b.toInt_lt
  omega

theorem modulo_of_opposite {a b : Int32} (hb : b ≠ 0) (hr : a % b ≠ 0) (h : a % b < 0 ↔ ¬ b < 0) :
    modulo a b = .ok (a % b + b) := by
  rw [modulo, if_neg hb]
  exact congrArg Except.ok (if_pos ⟨hr, h⟩)

/-! ## Both together -/

/-- The two roundings agree: the exact quotient is an integer, or it is positive. -/
def RoundedAlike (a b : Int32) : Prop :=
  b.toInt ∣ a.toInt ∨ a.toInt.sign = b.toInt.sign

instance (a b : Int32) : Decidable (RoundedAlike a b) :=
  inferInstanceAs (Decidable (_ ∨ _))

/-- Where the roundings do not agree, the truncated quotient is one more than the floored one. -/
theorem tdiv_mul_add_fmod (a : ℤ) {b : ℤ} (hb : b ≠ 0) :
    a.tdiv b * b + a.fmod b = if b ∣ a ∨ a.sign = b.sign then a else a + b := by
  have htmod := Int.tdiv_mul_add_tmod a b
  rw [Int.fmod_eq_tmod]
  by_cases hdvd : b ∣ a
  · simp only [hdvd, true_or, if_true]
    omega
  · have ha : a ≠ 0 := fun h => hdvd (h ▸ dvd_zero b)
    simp only [hdvd, false_or, if_false]
    rcases lt_or_gt_of_ne ha with ha | ha <;> rcases lt_or_gt_of_ne hb with hb | hb
    · rw [Int.sign_eq_neg_one_of_neg ha, Int.sign_eq_neg_one_of_neg hb, if_neg (not_le.2 ha),
        if_neg (not_le.2 hb), if_pos rfl]
      omega
    · rw [Int.sign_eq_neg_one_of_neg ha, Int.sign_eq_one_of_pos hb, if_neg (not_le.2 ha),
        if_pos hb.le, if_neg (by decide)]
      omega
    · rw [Int.sign_eq_one_of_pos ha, Int.sign_eq_neg_one_of_neg hb, if_pos ha.le,
        if_neg (not_le.2 hb), if_neg (by decide)]
      omega
    · rw [Int.sign_eq_one_of_pos ha, Int.sign_eq_one_of_pos hb, if_pos ha.le, if_pos hb.le,
        if_pos rfl]
      omega

/-- On words, the same holds up to the wrap of the quotient. -/
theorem IsQuotient.mul_add_remainder {a b q r : Int32} (hq : IsQuotient a b q)
    (hr : IsRemainder a b r) (hb : b ≠ 0) :
    q.toInt * b.toInt + r.toInt ≡
      if RoundedAlike a b then a.toInt else a.toInt + b.toInt [ZMOD 2 ^ 32] := by
  have hb' : b.toInt ≠ 0 := fun h => hb (Int32.toInt_inj.1 h)
  have hwraps := hq.wraps
  have hvalue := hr.value
  rw [ratio, truncate_div] at hwraps
  rw [ratio, floor_div, ← Int.fmod_def] at hvalue
  calc q.toInt * b.toInt + r.toInt
      ≡ a.toInt.tdiv b.toInt * b.toInt + r.toInt [ZMOD 2 ^ 32] :=
        (hwraps.mul_right b.toInt).add_right r.toInt
    _ = a.toInt.tdiv b.toInt * b.toInt + a.toInt.fmod b.toInt := by rw [hvalue]
    _ = if RoundedAlike a b then a.toInt else a.toInt + b.toInt := by
      exact tdiv_mul_add_fmod a.toInt hb'

/-- Division and remainder of any two words. A zero divisor is refused by both, and nothing else is. The
quotient is rounded toward zero, and wraps around for the opposite of the least integer only. The
remainder is that of the quotient rounded down; where it is corrected to the sign of the divisor, the sum
stays in the range of integers. Quotient, divisor and remainder give back the dividend, up to a multiple
of `2 ^ 32`, where the roundings agree, and otherwise the dividend and one divisor. -/
theorem divide_truncates_modulo_floors (a b : Int32) :
    (b = 0 → divide a b = .error .divisionByZero ∧ modulo a b = .error .divisionByZero) ∧
    (b ≠ 0 → ∃ q r, divide a b = .ok q ∧ modulo a b = .ok r ∧
      IsQuotient a b q ∧ IsRemainder a b r ∧
      (a % b ≠ 0 → (a % b < 0 ↔ ¬ b < 0) → r = a % b + b ∧
        -2 ^ 31 ≤ (a % b).toInt + b.toInt ∧ (a % b).toInt + b.toInt < 2 ^ 31) ∧
      (RoundedAlike a b → q.toInt * b.toInt + r.toInt ≡ a.toInt [ZMOD 2 ^ 32]) ∧
      (¬ RoundedAlike a b → q.toInt * b.toInt + r.toInt ≡ a.toInt + b.toInt [ZMOD 2 ^ 32])) := by
  refine ⟨?_, fun hb => ?_⟩
  · rintro rfl
    exact ⟨@ArithOp.eval_zero .div rfl a, @ArithOp.eval_zero .mod rfl a⟩
  · have hmodulo := modulo_of_ne_zero a hb
    have hq := isQuotient_div a b
    have hr := isRemainder_fmod a hb
    have hboth := hq.mul_add_remainder hr hb
    refine ⟨_, _, if_neg hb, hmodulo, hq, hr, fun hne hsign => ?_, fun halike => ?_, fun halike => ?_⟩
    · have hcorrected := modulo_of_opposite hb hne hsign
      rw [hmodulo] at hcorrected
      exact ⟨Except.ok.inj hcorrected, mod_add_in_range hsign⟩
    · rwa [if_pos halike] at hboth
    · rwa [if_neg halike] at hboth

/-- Minus seven by two: the remainder is corrected, and the two give back minus five. -/
theorem divide_modulo_of_negative_dividend :
    ∃ q r, divide (-7) 2 = .ok q ∧ modulo (-7) 2 = .ok r ∧ r = -7 % 2 + 2 ∧
      q.toInt * 2 + r.toInt ≡ -7 + 2 [ZMOD 2 ^ 32] := by
  obtain ⟨q, r, hq, hr, -, -, hcorrected, -, hapart⟩ :=
    (divide_truncates_modulo_floors (-7) 2).2 (by decide)
  exact ⟨q, r, hq, hr, (hcorrected (by decide) (by decide)).1, hapart (by decide)⟩

end StackMachine
