import Mathlib.Algebra.Order.Field.Power
import Mathlib.Data.Int.Log
import Mathlib.Data.Rat.Floor
import Mathlib.Tactic.Linarith
import Mathlib.Tactic.NormNum
import Mathlib.Tactic.Positivity
import Mathlib.Tactic.Ring
import NotebookTree.Number.Double

/-!
# Rounding to a double

The double next to a quotient depends on the quotient alone, not on the two numbers it is given by,
and the double next to a decimal does not change when a zero moves from its digits to its exponent.

## Main results

* `floorLog2_eq_log`, `floorLog10_eq_log`: the exponents of the greatest powers below a quotient.
* `ofRatio_congr`: equal quotients have one nearest double.
* `ofDecimal_mul_pow`: zeros at the end of the digits of a decimal.
-/

namespace NotebookTree.Double

/-! ## Quotients scaled by a power -/

/-- `num / den / base ^ shift` as a quotient. -/
def scaleBy (base num den : Nat) (shift : Int) : Nat × Nat :=
  if 0 ≤ shift then (num, den * Nat.pow base shift.toNat)
  else (num * Nat.pow base (-shift).toNat, den)

/-- Scaling down by powers of two is scaling by the base two. -/
theorem scaleDown_eq_scaleBy (num den : Nat) (shift : Int) :
    scaleDown num den shift = scaleBy 2 num den shift := rfl

/-- Scaling by powers of ten is scaling by the base ten. -/
theorem scaleDecimal_eq_scaleBy (num den : Nat) (exponent : Int) :
    scaleDecimal num den exponent = scaleBy 10 num den exponent := rfl

/-- The denominator stays positive. -/
theorem scaleBy_snd_pos {b den : Nat} (hb : 0 < b) (num : Nat) (hden : 0 < den) (shift : Int) :
    0 < (scaleBy b num den shift).2 := by
  rw [scaleBy]
  split
  · exact Nat.mul_pos hden (Nat.pow_pos hb)
  · exact hden

/-- Scaling divides the quotient by the power of the base. -/
theorem quotient_scaleBy {b : Nat} (hb : 0 < b) (num den : Nat) (shift : Int) :
    ((scaleBy b num den shift).1 : ℚ) / (scaleBy b num den shift).2 =
      (num : ℚ) / den / (b : ℚ) ^ shift := by
  have hpow : (b : ℚ) ≠ 0 := by exact_mod_cast hb.ne'
  rw [scaleBy]
  by_cases h : 0 ≤ shift
  · obtain ⟨n, rfl⟩ := Int.eq_ofNat_of_zero_le h
    simp only [if_pos h, Nat.pow_eq, Int.toNat_natCast, zpow_natCast]
    push_cast
    rw [div_div]
  · obtain ⟨n, hn⟩ := Int.eq_ofNat_of_zero_le (show 0 ≤ -shift by omega)
    obtain rfl : shift = -(n : Int) := by omega
    simp only [if_neg h, Nat.pow_eq, neg_neg, Int.toNat_natCast, zpow_neg, zpow_natCast]
    push_cast
    rw [div_inv_eq_mul, div_mul_eq_mul_div]

/-- A factor common to numerator and denominator stays common. -/
theorem scaleBy_mul_right (base num den c : Nat) (shift : Int) :
    scaleBy base (num * c) (den * c) shift =
      ((scaleBy base num den shift).1 * c, (scaleBy base num den shift).2 * c) := by
  rw [scaleBy, scaleBy]
  split
  · rw [Nat.mul_right_comm]
  · rw [Nat.mul_right_comm]

/-- `n * base ^ exponent` as a quotient. -/
def raise (base n : Nat) (exponent : Int) : Nat × Nat :=
  if 0 ≤ exponent then (n * Nat.pow base exponent.toNat, 1)
  else (n, Nat.pow base (-exponent).toNat)

/-- The denominator of a raised number is positive. -/
theorem raise_snd_pos {base : Nat} (hbase : 0 < base) (n : Nat) (exponent : Int) :
    0 < (raise base n exponent).2 := by
  rw [raise]
  split
  · exact Nat.one_pos
  · exact Nat.pow_pos hbase

/-- Raising multiplies by the power of the base. -/
theorem quotient_raise (base n : Nat) (exponent : Int) :
    ((raise base n exponent).1 : ℚ) / (raise base n exponent).2 = n * (base : ℚ) ^ exponent := by
  rw [raise]
  by_cases h : 0 ≤ exponent
  · obtain ⟨k, rfl⟩ := Int.eq_ofNat_of_zero_le h
    simp
  · obtain ⟨k, hk⟩ := Int.eq_ofNat_of_zero_le (show 0 ≤ -exponent by omega)
    obtain rfl : exponent = -(k : Int) := by omega
    simp only [if_neg h, Nat.pow_eq, neg_neg, Int.toNat_natCast, zpow_neg, zpow_natCast]
    push_cast
    rw [div_eq_mul_inv]

/-! ## The greatest power below a quotient -/

section

variable {base num den : Nat}

/-- The first guess at the exponent, from the sizes of both numbers, is at most one too high. -/
theorem guess_eq_log {a c : Nat} (hbase : 1 < base) (hnum : base ^ a ≤ num ∧ num < base ^ (a + 1))
    (hden : base ^ c ≤ den ∧ den < base ^ (c + 1)) :
    (if (scaleBy base num den ((a : Int) - c)).1 < (scaleBy base num den ((a : Int) - c)).2
      then (a : Int) - c - 1 else (a : Int) - c) = Int.log base ((num : ℚ) / den) := by
  have hbase0 : 0 < base := by omega
  have hb : (0 : ℚ) < base := by exact_mod_cast hbase0
  have hnum0 : (0 : ℚ) < num := by exact_mod_cast (Nat.pow_pos hbase0).trans_le hnum.1
  have hden0 : 0 < den := (Nat.pow_pos hbase0).trans_le hden.1
  have hdenq : (0 : ℚ) < den := by exact_mod_cast hden0
  have hr : (0 : ℚ) < (num : ℚ) / den := div_pos hnum0 hdenq
  -- the lengths of numerator and denominator leave two powers of the base for the quotient
  have hlow : (base : ℚ) ^ ((a : Int) - c - 1) ≤ (num : ℚ) / den := by
    have h₁ : (base : ℚ) ^ a ≤ num := by exact_mod_cast hnum.1
    have h₂ : (den : ℚ) ≤ (base : ℚ) ^ (c + 1) := by exact_mod_cast hden.2.le
    have hpow : (base : ℚ) ^ ((a : Int) - c - 1) = (base : ℚ) ^ a / (base : ℚ) ^ (c + 1) := by
      rw [sub_sub, zpow_sub₀ hb.ne', zpow_natCast, ← zpow_natCast (base : ℚ) (c + 1)]
      norm_cast
    rw [hpow]
    exact div_le_div₀ hnum0.le h₁ hdenq h₂
  have hhigh : (num : ℚ) / den < (base : ℚ) ^ ((a : Int) - c + 1) := by
    have h₁ : (num : ℚ) < (base : ℚ) ^ (a + 1) := by exact_mod_cast hnum.2
    have h₂ : (base : ℚ) ^ c ≤ den := by exact_mod_cast hden.1
    have hpow : (base : ℚ) ^ ((a : Int) - c + 1) = (base : ℚ) ^ (a + 1) / (base : ℚ) ^ c := by
      rw [sub_add_eq_add_sub, zpow_sub₀ hb.ne', zpow_natCast, ← zpow_natCast (base : ℚ) (a + 1)]
      norm_cast
    rw [hpow]
    exact div_lt_div₀ h₁ h₂ (by positivity) (by positivity)
  -- and one comparison with the greater of them tells which it is
  have hcompare : (scaleBy base num den ((a : Int) - c)).1 <
      (scaleBy base num den ((a : Int) - c)).2 ↔
      (num : ℚ) / den < (base : ℚ) ^ ((a : Int) - c) := by
    have hs : (0 : ℚ) < (scaleBy base num den ((a : Int) - c)).2 := by
      exact_mod_cast scaleBy_snd_pos hbase0 _ hden0 _
    have hpow : (0 : ℚ) < (base : ℚ) ^ ((a : Int) - c) := zpow_pos hb _
    rw [← div_lt_one hpow, ← quotient_scaleBy hbase0, div_lt_one hs, Nat.cast_lt]
  split
  · rename_i h
    refine le_antisymm ((Int.zpow_le_iff_le_log hbase hr).mp hlow) ?_
    have := (Int.lt_zpow_iff_log_lt hbase hr).mp (hcompare.mp h)
    omega
  · rename_i h
    refine le_antisymm ((Int.zpow_le_iff_le_log hbase hr).mp ?_) ?_
    · exact not_lt.mp fun hlt => h (hcompare.mpr hlt)
    · have := (Int.lt_zpow_iff_log_lt hbase hr).mp hhigh
      omega

/-- The whole logarithm to the base two is that of the quotient. -/
theorem floorLog2_eq_log (hnum : 0 < num) (hden : 0 < den) :
    floorLog2 num den = Int.log 2 ((num : ℚ) / den) :=
  guess_eq_log (by decide) ⟨Nat.log2_self_le hnum.ne', Nat.lt_log2_self⟩
    ⟨Nat.log2_self_le hden.ne', Nat.lt_log2_self⟩

/-- A number lies between the powers of ten its digits are counted by. -/
theorem toDigits_bounds {n : Nat} (hn : 0 < n) :
    10 ^ ((Nat.toDigits 10 n).length - 1) ≤ n ∧
      n < 10 ^ ((Nat.toDigits 10 n).length - 1 + 1) := by
  have hpos : 0 < (Nat.toDigits 10 n).length := Nat.length_toDigits_pos
  refine ⟨?_, ?_⟩
  · by_cases hone : (Nat.toDigits 10 n).length = 1
    · rw [hone]
      exact hn
    · refine not_lt.mp fun hlt => ?_
      have := (Nat.length_toDigits_le_iff (by decide) (by omega)).mpr hlt
      omega
  · rw [Nat.sub_add_cancel hpos]
    exact (Nat.length_toDigits_le_iff (by decide) hpos).mp le_rfl

/-- The whole logarithm to the base ten is that of the quotient. -/
theorem floorLog10_eq_log (hnum : 0 < num) (hden : 0 < den) :
    floorLog10 num den = Int.log 10 ((num : ℚ) / den) := by
  have hsize : ((Nat.toDigits 10 num).length : Int) - ((Nat.toDigits 10 den).length : Int) =
      ((Nat.toDigits 10 num).length - 1 : Nat) - ((Nat.toDigits 10 den).length - 1 : Nat) := by
    have := @Nat.length_toDigits_pos 10 num
    have := @Nat.length_toDigits_pos 10 den
    omega
  simp only [floorLog10, scaleDecimal_eq_scaleBy, hsize]
  exact guess_eq_log (by decide) (toDigits_bounds hnum) (toDigits_bounds hden)

end

/-! ## The nearest double -/

/-- Rounding a quotient does not see a common factor. -/
theorem roundDiv_mul_right {num den c : Nat} (hc : 0 < c) :
    roundDiv (num * c) (den * c) = roundDiv num den := by
  have hr (a b : Nat) : 2 * (a * c) < b * c ↔ 2 * a < b := by
    rw [← Nat.mul_assoc, Nat.mul_lt_mul_right hc]
  have hl (a b : Nat) : b * c < 2 * (a * c) ↔ b < 2 * a := by
    rw [← Nat.mul_assoc, Nat.mul_lt_mul_right hc]
  simp only [roundDiv, Nat.mul_div_mul_right _ _ hc, Nat.mul_mod_mul_right, hr, hl]

/-- A quotient closer to a number than a half is rounded to it. -/
theorem roundDiv_of_near {num den n : Nat} (hden : 0 < den)
    (h : |(num : ℚ) / den - n| < 1 / 2) : roundDiv num den = n := by
  have hdenq : (0 : ℚ) < den := by exact_mod_cast hden
  obtain ⟨hlow, hhigh⟩ := abs_lt.mp h
  have habove : 2 * num < (2 * n + 1) * den := by
    have := (div_lt_iff₀ hdenq).mp (show (num : ℚ) / den < n + 1 / 2 by linarith)
    have : (2 : ℚ) * num < (2 * n + 1) * den := by linarith
    exact_mod_cast this
  have hbelow : 2 * n * den < 2 * num + den := by
    have := (lt_div_iff₀ hdenq).mp (show (n : ℚ) - 1 / 2 < (num : ℚ) / den by linarith)
    have : (2 : ℚ) * n * den < 2 * num + den := by linarith
    exact_mod_cast this
  have hsplit := Nat.div_add_mod num den
  have hlt := Nat.mod_lt num hden
  simp only [roundDiv]
  generalize num / den = k at hsplit ⊢
  generalize num % den = r at hsplit hlt ⊢
  subst hsplit
  have hle : k ≤ n := by
    by_contra h
    nlinarith
  have hge : n ≤ k + 1 := by
    by_contra h
    nlinarith
  -- The remainder says which of the two neighbours of the quotient is the number.
  obtain rfl | rfl : n = k ∨ n = k + 1 := by omega
  · rw [if_pos (by nlinarith)]
  · rw [if_neg (by nlinarith), if_pos (by nlinarith)]

/-- The exponent of the unit that a quotient is rounded to. -/
def unitExponent (num den : Nat) : Int := max (floorLog2 num den - 52) (-1074)

/-- The quotient in that unit, rounded. -/
def unitCount (num den : Nat) : Nat :=
  roundDiv (scaleDown num den (unitExponent num den)).1 (scaleDown num den (unitExponent num den)).2

/-- The double of so many units, of which there are at most `2 ^ 53`. -/
def ofUnits (negative : Bool) (exponent : Int) (count : Nat) : Double :=
  let m := if count == Nat.pow 2 53 then Nat.pow 2 52 else count
  let q := if count == Nat.pow 2 53 then exponent + 1 else exponent
  if 971 < q then infinity negative
  else if m < Nat.pow 2 52 then ofFields negative 0 m
  else ofFields negative (q + 1075).toNat (m - Nat.pow 2 52)

/-- A ratio is rounded to a number of units, of a size that goes with it. -/
theorem ofRatio_eq_ofUnits (negative : Bool) (num den : Nat) :
    ofRatio negative num den = if num == 0 then zero negative
      else ofUnits negative (unitExponent num den) (unitCount num den) := rfl

section

variable {num den c : Nat} (hnum : 0 < num) (hden : 0 < den) (hc : 0 < c)
include hnum hden hc

/-- The size of the unit does not see a common factor. -/
theorem unitExponent_mul_right : unitExponent (num * c) (den * c) = unitExponent num den := by
  have hcq : (c : ℚ) ≠ 0 := by exact_mod_cast hc.ne'
  rw [unitExponent, floorLog2_eq_log (Nat.mul_pos hnum hc) (Nat.mul_pos hden hc), unitExponent,
    floorLog2_eq_log hnum hden]
  push_cast
  rw [mul_div_mul_right _ _ hcq]

/-- The number of units does not see a common factor. -/
theorem unitCount_mul_right : unitCount (num * c) (den * c) = unitCount num den := by
  rw [unitCount, unitExponent_mul_right hnum hden hc, scaleDown_eq_scaleBy, scaleBy_mul_right,
    roundDiv_mul_right hc]
  rfl

end

/-- The unit is the one in which the quotient has fifty-three binary digits, or the smallest. -/
theorem unitExponent_eq {num den : Nat} (hnum : 0 < num) (hden : 0 < den) {q : Int}
    (hlow : -1074 ≤ q) (hlt : (num : ℚ) / den < 2 ^ (q + 53))
    (hle : q = -1074 ∨ (2 : ℚ) ^ (q + 52) ≤ num / den) : unitExponent num den = q := by
  have hr : (0 : ℚ) < (num : ℚ) / den := by positivity
  have hupper := (Int.lt_zpow_iff_log_lt (b := 2) (by decide) hr).mp (by exact_mod_cast hlt)
  rw [unitExponent, floorLog2_eq_log hnum hden]
  obtain rfl | hle := hle
  · omega
  · have := (Int.zpow_le_iff_le_log (b := 2) (by decide) hr).mp (by exact_mod_cast hle)
    omega

/-- A quotient nearer than half a unit to a whole number of units is rounded to it. -/
theorem unitCount_of_near {num den n : Nat} (hden : 0 < den)
    (h : |(num : ℚ) / den / 2 ^ unitExponent num den - n| < 1 / 2) : unitCount num den = n := by
  refine roundDiv_of_near (scaleBy_snd_pos (b := 2) (by decide) _ hden _) ?_
  rw [scaleDown_eq_scaleBy, quotient_scaleBy (by decide)]
  exact_mod_cast h

/-- A quotient that is not in lowest terms has the same nearest double. -/
theorem ofRatio_mul_right {num den c : Nat} (hden : 0 < den) (hc : 0 < c) (negative : Bool) :
    ofRatio negative (num * c) (den * c) = ofRatio negative num den := by
  by_cases hnum : num = 0
  · rw [hnum, Nat.zero_mul, ofRatio_eq_ofUnits, ofRatio_eq_ofUnits, if_pos (beq_self_eq_true 0),
      if_pos (beq_self_eq_true 0)]
  · have hnum0 : 0 < num := by omega
    rw [ofRatio_eq_ofUnits, ofRatio_eq_ofUnits, unitExponent_mul_right hnum0 hden hc,
      unitCount_mul_right hnum0 hden hc, beq_eq_false_iff_ne.mpr hnum,
      beq_eq_false_iff_ne.mpr (Nat.mul_pos hnum0 hc).ne']

/-- The nearest double depends on the quotient alone. -/
theorem ofRatio_congr {num den num' den' : Nat} (hden : 0 < den) (hden' : 0 < den')
    (h : (num : ℚ) / den = (num' : ℚ) / den') (negative : Bool) :
    ofRatio negative num den = ofRatio negative num' den' := by
  have hdenq : (den : ℚ) ≠ 0 := by exact_mod_cast hden.ne'
  have hdenq' : (den' : ℚ) ≠ 0 := by exact_mod_cast hden'.ne'
  have hcross : num * den' = num' * den := by exact_mod_cast (div_eq_div_iff hdenq hdenq').mp h
  rw [← ofRatio_mul_right hden hden', hcross, Nat.mul_comm den, ofRatio_mul_right hden' hden]

/-! ## Decimals -/

/-- A decimal out of the range of the format is zero or infinite, any other is rounded as a
ratio. -/
theorem ofDecimal_eq (negative : Bool) (digits : Nat) (exponent : Int) :
    ofDecimal negative digits exponent =
      if digits == 0 || exponent + ((Nat.toDigits 10 digits).length : Int) < -400 then zero negative
      else if 400 < exponent + ((Nat.toDigits 10 digits).length : Int) then infinity negative
      else ofRatio negative (raise 10 digits exponent).1 (raise 10 digits exponent).2 := by
  simp only [ofDecimal, raise]
  split
  · rfl
  · split
    · rfl
    · split <;> rfl

/-- A power of ten adds its zeros to the digits. -/
theorem length_toDigits_mul_pow {n : Nat} (hn : 0 < n) (k : Nat) :
    (Nat.toDigits 10 (n * 10 ^ k)).length = (Nat.toDigits 10 n).length + k := by
  induction k with
  | zero => rw [Nat.pow_zero, Nat.mul_one, Nat.add_zero]
  | succ k ih =>
    have hstep : n * 10 ^ (k + 1) = 10 * (n * 10 ^ k) + 0 := by ring
    rw [hstep, ← Nat.toDigits_append_toDigits (by decide) (by positivity) (by decide),
      List.length_append, ih]
    rfl

/-- Zeros at the end of the digits of a decimal count as powers of ten. -/
theorem ofDecimal_mul_pow (negative : Bool) (n k : Nat) (e : Int) :
    ofDecimal negative (n * 10 ^ k) e = ofDecimal negative n (e + k) := by
  by_cases hn : n = 0
  · rw [hn, Nat.zero_mul]
    simp [ofDecimal]
  have hn0 : 0 < n := by omega
  have hzero : (n * 10 ^ k == 0) = (n == 0) := by
    rw [beq_eq_false_iff_ne.mpr hn, beq_eq_false_iff_ne.mpr (by positivity)]
  -- both have the same size, so the same one of the three cases holds for both
  have hsize : e + ((Nat.toDigits 10 (n * 10 ^ k)).length : Int) =
      e + k + ((Nat.toDigits 10 n).length : Int) := by
    rw [length_toDigits_mul_pow hn0]
    push_cast
    ring
  have hratio : ofRatio negative (raise 10 (n * 10 ^ k) e).1 (raise 10 (n * 10 ^ k) e).2 =
      ofRatio negative (raise 10 n (e + k)).1 (raise 10 n (e + k)).2 := by
    refine ofRatio_congr (raise_snd_pos (by decide) _ _) (raise_snd_pos (by decide) _ _) ?_ _
    rw [quotient_raise, quotient_raise, zpow_add₀ (by norm_num), zpow_natCast]
    push_cast
    ring
  rw [ofDecimal_eq, ofDecimal_eq, hzero, hsize, hratio]

end NotebookTree.Double
