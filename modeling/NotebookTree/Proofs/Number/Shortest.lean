import NotebookTree.Proofs.Number.Rounding

/-!
# Shortest decimals read back

A finite double is a number of units of a power of two. A decimal that differs from it by less than
one part in `2 * 10 ^ 16` is closer to it than to the doubles beside it, so it reads back as the
same double; and among the decimals of seventeen digits there is one that close. So the search for
the shortest decimal that reads back never ends without one.

## Main results

* `ofDecimal_of_near`: what is close to a double reads back as that double.
* `ofDecimal_shortest`: the shortest decimal of a double reads back as that double.
-/

namespace NotebookTree.Double

/-! ## A double as a number of units -/

/-- The field of the significand has 52 bits. -/
theorem significandField_lt (x : Double) : x.significandField < 2 ^ 52 :=
  Nat.mod_lt _ (by decide)

/-- The field of the exponent has 11 bits. -/
theorem exponentField_lt (x : Double) : x.exponentField < 2048 :=
  Nat.mod_lt _ (by decide)

/-- A double is put together from its three fields. -/
theorem ofFields_fields (x : Double) :
    ofFields x.isNegative x.exponentField x.significandField = x := by
  obtain ⟨bits⟩ := x
  have hlt : bits.toNat < 18446744073709551616 := bits.toNat_lt
  have hsum : (if isNegative ⟨bits⟩ then Nat.pow 2 63 else 0) +
      exponentField ⟨bits⟩ * Nat.pow 2 52 + significandField ⟨bits⟩ = bits.toNat := by
    simp only [isNegative, exponentField, significandField, Nat.pow_eq, Nat.reducePow,
      decide_eq_true_eq]
    split <;> omega
  rw [ofFields, hsum, UInt64.ofNat_toNat]

/-- A finite double that is not zero, as a number of units. Only with the smallest unit may there be
fewer of them than `2 ^ 52`. -/
structure HasUnits (x : Double) (exponent : Int) (count : Nat) : Prop where
  low : -1074 ≤ exponent
  high : exponent ≤ 971
  pos : 0 < count
  lt : count < 2 ^ 53
  full : exponent = -1074 ∨ 2 ^ 52 ≤ count
  eq : x = ofUnits x.isNegative exponent count

/-- The double of a number of units that is not the next power of two. -/
theorem ofUnits_of_lt {negative : Bool} {exponent : Int} {count : Nat} (hhigh : exponent ≤ 971)
    (hlt : count < 2 ^ 53) : ofUnits negative exponent count =
      if count < 2 ^ 52 then ofFields negative 0 count
      else ofFields negative (exponent + 1075).toNat (count - 2 ^ 52) := by
  have hcount : (count == Nat.pow 2 53) = false := beq_eq_false_iff_ne.mpr hlt.ne
  simp only [ofUnits, hcount, Bool.false_eq_true, if_false, if_neg (not_lt.mpr hhigh), Nat.pow_eq]

/-- So many units that they come to the next power of two are one unit of the next size less. -/
theorem ofUnits_carry (negative : Bool) (exponent : Int) :
    ofUnits negative (exponent - 1) (2 ^ 53) = ofUnits negative exponent (2 ^ 52) := by
  have hcarry : (2 ^ 53 == Nat.pow 2 53) = true := beq_self_eq_true _
  have hnot : (2 ^ 52 == Nat.pow 2 53) = false := by decide
  simp only [ofUnits, hcarry, hnot, if_true, Bool.false_eq_true, if_false, sub_add_cancel,
    Nat.pow_eq]

/-- The magnitude of a double with units. -/
def magnitude (exponent : Int) (count : Nat) : ℚ := count * 2 ^ exponent

/-- What has units is positive. -/
theorem HasUnits.magnitude_pos {x : Double} {q : Int} {m : Nat} (h : HasUnits x q m) :
    0 < magnitude q m := by
  have hm : (0 : ℚ) < m := by exact_mod_cast h.pos
  exact mul_pos hm (by positivity)

/-- The parts of a finite double that is not zero, with its exact value. -/
theorem exists_units {x : Double} (hfinite : x.exponentField ≠ 2047) (hzero : x.isZero = false) :
    ∃ q m, HasUnits x q m ∧ x.fraction? = some (raise 2 m q) := by
  have hs := x.significandField_lt
  have he := x.exponentField_lt
  have hfields := x.ofFields_fields
  have hinfinite : (x.exponentField == 2047) = false := beq_eq_false_iff_ne.mpr hfinite
  by_cases hsub : x.exponentField = 0
  · have hpos : x.significandField ≠ 0 := by simpa [isZero, hsub] using hzero
    -- a subnormal counts in the least unit there is
    refine ⟨-1074, x.significandField, ⟨le_rfl, by omega, by omega, by omega, .inl rfl, ?_⟩, ?_⟩
    · rw [ofUnits_of_lt (by omega) (by omega), if_pos hs, ← hsub, hfields]
    · have hsmall : (x.exponentField == 0) = true := beq_iff_eq.mpr hsub
      simp only [fraction?, hinfinite, hsmall, Bool.false_eq_true, if_false, if_true, raise]
  · -- a normal number has the leading bit that its fields leave out
    refine ⟨(x.exponentField : Int) - 1075, 2 ^ 52 + x.significandField,
      ⟨by omega, by omega, by omega, by omega, .inr (by omega), ?_⟩, ?_⟩
    · rw [ofUnits_of_lt (by omega) (by omega), if_neg (by omega), Nat.add_sub_cancel_left,
        show ((x.exponentField : Int) - 1075 + 1075).toNat = x.exponentField by omega, hfields]
    · have hnormal : (x.exponentField == 0) = false := beq_eq_false_iff_ne.mpr hsub
      simp only [fraction?, hinfinite, hnormal, Bool.false_eq_true, if_false, raise]
      rfl

/-! ## What is close to a double -/

section

variable {x : Double} {q : Int} {m num den : Nat} {t : ℚ}

/-- A bound from above on a number of units is one on the number. -/
theorem mul_two_zpow_lt_iff (t : ℚ) (q : Int) (k : Nat) :
    t * 2 ^ q < 2 ^ (q + k) ↔ t < 2 ^ k := by
  rw [zpow_add₀ (by norm_num), zpow_natCast, mul_comm]
  exact mul_lt_mul_iff_right₀ (by positivity)

/-- A bound from below on a number of units is one on the number. -/
theorem two_zpow_le_mul_iff (t : ℚ) (q : Int) (k : Nat) :
    2 ^ (q + k) ≤ t * 2 ^ q ↔ 2 ^ k ≤ t :=
  le_iff_le_iff_lt_iff_lt.mpr (mul_two_zpow_lt_iff t q k)

/-- Below a power of two the unit is half as large, and what is close to the power is rounded up to
it. -/
theorem units_below_power (hnum : 0 < num) (hden : 0 < den) (hlow : -1074 < q)
    (ht : (num : ℚ) / den = t * 2 ^ q) (hlt : t < 2 ^ 52) (hnear : 2 ^ 52 - 1 / 4 < t) :
    unitExponent num den = q - 1 ∧ unitCount num den = 2 ^ 53 := by
  have hu : (2 : ℚ) ^ q ≠ 0 := by positivity
  have hunit : unitExponent num den = q - 1 := by
    refine unitExponent_eq hnum hden (by omega) ?_ (.inr ?_)
    · rw [ht, show q - 1 + 53 = q + (52 : Nat) by push_cast; ring]
      exact (mul_two_zpow_lt_iff t q 52).mpr hlt
    · rw [ht, show q - 1 + 52 = q + (51 : Nat) by push_cast; ring]
      exact (two_zpow_le_mul_iff t q 51).mpr (by linarith)
  refine ⟨hunit, unitCount_of_near hden ?_⟩
  rw [hunit, ht, zpow_sub_one₀ (by norm_num), mul_comm t, mul_div_mul_left _ _ hu, div_inv_eq_mul,
    abs_lt]
  push_cast
  constructor <;> linarith

/-- Elsewhere the unit is that of the double, and what is close to the double has as many units. -/
theorem units_of_near (hx : HasUnits x q m) (hnum : 0 < num) (hden : 0 < den)
    (ht : (num : ℚ) / den = t * 2 ^ q) (hlt : t < 2 ^ 53) (hfull : q = -1074 ∨ 2 ^ 52 ≤ t)
    (hnear : |t - m| < 1 / 2) : unitExponent num den = q ∧ unitCount num den = m := by
  have hu : (2 : ℚ) ^ q ≠ 0 := by positivity
  have hunit : unitExponent num den = q := by
    refine unitExponent_eq hnum hden hx.low ?_ (hfull.imp_right fun hle => ?_)
    · rw [ht]
      exact (mul_two_zpow_lt_iff t q 53).mpr hlt
    · rw [ht]
      exact (two_zpow_le_mul_iff t q 52).mpr hle
  refine ⟨hunit, unitCount_of_near hden ?_⟩
  rwa [hunit, ht, mul_div_cancel_right₀ _ hu]

/-- What is close to a double is rounded to that double. -/
theorem ofRatio_of_near (hx : HasUnits x q m) (hden : 0 < den)
    (hnear : |(num : ℚ) / den - magnitude q m| * (2 * 10 ^ 16) ≤ magnitude q m) :
    ofRatio x.isNegative num den = x := by
  have hu : (0 : ℚ) < 2 ^ q := by positivity
  have hm0 : (0 : ℚ) < m := by exact_mod_cast hx.pos
  have hm : (m : ℚ) + 1 ≤ 2 ^ 53 := by exact_mod_cast hx.lt
  obtain ⟨t, ht⟩ : ∃ t, (num : ℚ) / den = t * 2 ^ q := ⟨num / den / 2 ^ q, by field_simp⟩
  have hclose : |t - m| * (2 * 10 ^ 16) ≤ m := by
    rw [ht, magnitude, ← sub_mul, abs_mul, abs_of_pos hu] at hnear
    nlinarith
  have hdist : |t - m| ≤ m / (2 * 10 ^ 16) := (le_div_iff₀ (by norm_num)).mpr hclose
  obtain ⟨hbelow, habove⟩ := abs_le.mp hdist
  have hnum : 0 < num := by
    have hr : 0 < (num : ℚ) / den := by
      rw [ht]
      exact mul_pos (by linarith) hu
    have hdenq : (0 : ℚ) < den := by exact_mod_cast hden
    exact_mod_cast (div_pos_iff_of_pos_right hdenq).mp hr
  refine Eq.trans ?_ hx.eq.symm
  rw [ofRatio_eq_ofUnits, beq_eq_false_iff_ne.mpr hnum.ne', if_neg Bool.false_ne_true]
  -- just below a power of two the units are half as large, and rounding carries back up to it
  by_cases hdown : t < 2 ^ 52 ∧ -1074 < q
  · have hfull : 2 ^ 52 ≤ m := hx.full.resolve_left (by omega)
    obtain rfl : m = 2 ^ 52 := by
      have : (m : ℚ) < 2 ^ 52 + 1 := by linarith [hdown.1]
      have : m < 2 ^ 52 + 1 := by exact_mod_cast this
      omega
    obtain ⟨hunit, hcount⟩ := units_below_power hnum hden hdown.2 ht hdown.1
      (by push_cast at hbelow; linarith)
    rw [hunit, hcount, ofUnits_carry]
  · have hfull : q = -1074 ∨ 2 ^ 52 ≤ t := by
      have hlow := hx.low
      exact or_iff_not_imp_left.mpr fun hq => not_lt.mp fun h => hdown ⟨h, by omega⟩
    obtain ⟨hunit, hcount⟩ := units_of_near hx hnum hden ht (by linarith) hfull
      (hdist.trans_lt (by linarith))
    rw [hunit, hcount]

/-- No float is smaller than the least unit. -/
theorem two_zpow_le_magnitude (hx : HasUnits x q m) : (2 : ℚ) ^ (-1074 : Int) ≤ magnitude q m := by
  have hm : (1 : ℚ) ≤ m := by exact_mod_cast hx.pos
  have hq : (2 : ℚ) ^ (-1074 : Int) ≤ 2 ^ q := zpow_le_zpow_right₀ (by norm_num) hx.low
  exact hq.trans (le_mul_of_one_le_left (by positivity) hm)

/-- No finite float is larger than the greatest power. -/
theorem magnitude_le_two_zpow (hx : HasUnits x q m) : magnitude q m ≤ (2 : ℚ) ^ (1024 : Int) := by
  have hm : (m : ℚ) ≤ 2 ^ (53 : Int) := by exact_mod_cast hx.lt.le
  have hq : (2 : ℚ) ^ q ≤ 2 ^ (971 : Int) := zpow_le_zpow_right₀ (by norm_num) hx.high
  rw [show (1024 : Int) = 53 + 971 by norm_num, zpow_add₀ (by norm_num)]
  exact mul_le_mul hm hq (by positivity) (by positivity)

/-- A power of ten exceeds a power of two with three times its exponent. -/
theorem two_zpow_le_ten_zpow {n : Int} (hn : 0 ≤ n) : (2 : ℚ) ^ (3 * n) ≤ 10 ^ n := by
  rw [zpow_mul]
  exact zpow_le_zpow_left₀ hn (by norm_num) (by norm_num)

/-- A decimal lies between the powers of ten its digits are counted by. -/
theorem decimal_bounds {digits : Nat} (hpos : 0 < digits) (e : Int) :
    (10 : ℚ) ^ (e + ((Nat.toDigits 10 digits).length : Int) - 1) ≤ digits * 10 ^ e ∧
      (digits : ℚ) * 10 ^ e < 10 ^ (e + ((Nat.toDigits 10 digits).length : Int)) := by
  obtain ⟨hlow, hhigh⟩ := toDigits_bounds hpos
  have hsize := @Nat.length_toDigits_pos 10 digits
  have he : (0 : ℚ) < 10 ^ e := by positivity
  generalize (Nat.toDigits 10 digits).length = size at *
  -- a positive number has a digit, so there is a power of ten below it
  obtain ⟨k, rfl⟩ : ∃ k, size = k + 1 := ⟨size - 1, by omega⟩
  rw [Nat.add_sub_cancel] at hlow hhigh
  have hlowq : (10 : ℚ) ^ (k : Int) ≤ digits := by exact_mod_cast hlow
  have hhighq : (digits : ℚ) < 10 ^ ((k + 1 : Nat) : Int) := by exact_mod_cast hhigh
  constructor
  · rw [show e + ((k + 1 : Nat) : Int) - 1 = k + e by push_cast; ring, zpow_add₀ (by norm_num)]
    exact mul_le_mul_of_nonneg_right hlowq he.le
  · rw [add_comm, zpow_add₀ (by norm_num)]
    exact mul_lt_mul_of_pos_right hhighq he

/-- A decimal that is close to a double is neither too small nor too large for one. -/
theorem ofDecimal_eq_ofRatio (hx : HasUnits x q m) {digits : Nat} {e : Int}
    (hnear : |(digits : ℚ) * 10 ^ e - magnitude q m| * (2 * 10 ^ 16) ≤ magnitude q m) :
    ofDecimal x.isNegative digits e =
      ofRatio x.isNegative (raise 10 digits e).1 (raise 10 digits e).2 := by
  have hv := hx.magnitude_pos
  have hclose := abs_le.mp ((le_div_iff₀ (by norm_num)).mpr hnear)
  have hhalf : magnitude q m / 2 ≤ digits * 10 ^ e := by linarith [hclose.1]
  have htwice : (digits : ℚ) * 10 ^ e ≤ magnitude q m * 2 := by linarith [hclose.2]
  have hpos : 0 < digits := by
    have : (0 : ℚ) < digits * 10 ^ e := by linarith
    exact_mod_cast (mul_pos_iff_of_pos_right (by positivity)).mp this
  obtain ⟨hbelow, habove⟩ := decimal_bounds hpos e
  -- the bounds on the size of a decimal are far outside the range of the format
  have hlow : ¬ e + ((Nat.toDigits 10 digits).length : Int) < -400 := by
    intro hsmall
    have hten : (10 : ℚ) ^ (e + ((Nat.toDigits 10 digits).length : Int)) ≤ 10 ^ (-400 : Int) :=
      zpow_le_zpow_right₀ (by norm_num) hsmall.le
    have htwo : (10 : ℚ) ^ (-400 : Int) ≤ 2 ^ (-1200 : Int) := by
      rw [zpow_neg, zpow_neg]
      exact inv_anti₀ (by positivity) (two_zpow_le_ten_zpow (by norm_num))
    have hmin : (2 : ℚ) ^ (-1200 : Int) ≤ 2 ^ (-1074 - 1 : Int) :=
      zpow_le_zpow_right₀ (by norm_num) (by norm_num)
    rw [zpow_sub_one₀ (by norm_num)] at hmin
    linarith [two_zpow_le_magnitude hx]
  have hhigh : ¬ 400 < e + ((Nat.toDigits 10 digits).length : Int) := by
    intro hlarge
    have hten : (10 : ℚ) ^ (400 : Int) ≤ 10 ^ (e + ((Nat.toDigits 10 digits).length : Int) - 1) :=
      zpow_le_zpow_right₀ (by norm_num) (by omega)
    have htwo : (2 : ℚ) ^ (1200 : Int) ≤ 10 ^ (400 : Int) := two_zpow_le_ten_zpow (by norm_num)
    have hmax : (2 : ℚ) ^ (1024 + 2 : Int) ≤ 2 ^ (1200 : Int) :=
      zpow_le_zpow_right₀ (by norm_num) (by norm_num)
    rw [zpow_add₀ (by norm_num), show (2 : ℚ) ^ (2 : Int) = 4 by norm_num] at hmax
    have hreach := (htwo.trans hten).trans (hbelow.trans htwice)
    have hmagnitude := magnitude_le_two_zpow hx
    generalize (2 : ℚ) ^ (1200 : Int) = reach at hreach hmax
    generalize (2 : ℚ) ^ (1024 : Int) = most at hmax hmagnitude
    linarith only [hreach, hmax, hmagnitude, hv]
  rw [ofDecimal_eq, beq_eq_false_iff_ne.mpr hpos.ne', Bool.false_or, if_neg (by simpa using hlow),
    if_neg hhigh]

/-- A decimal that is close to a double reads back as that double. -/
theorem ofDecimal_of_near (hx : HasUnits x q m) {digits : Nat} {exponent : Int}
    (hnear : |(digits : ℚ) * 10 ^ exponent - magnitude q m| * (2 * 10 ^ 16) ≤ magnitude q m) :
    ofDecimal x.isNegative digits exponent = x := by
  rw [ofDecimal_eq_ofRatio hx hnear]
  refine ofRatio_of_near hx (raise_snd_pos (by decide) _ _) ?_
  rw [quotient_raise]
  exact_mod_cast hnear

/-! ## The search -/

/-- The neighbour of a quotient that is tried first. -/
def nearer (a b : Nat) : Nat := if 2 * (a % b) ≤ b then a / b else a / b + 1

/-- The neighbour that is tried second. -/
def farther (a b : Nat) : Nat := if 2 * (a % b) ≤ b then a / b + 1 else a / b

/-- A point of the grid is tried on the nearer side first, then on the farther one. -/
theorem gridPoint?_eq (x : Double) (num den : Nat) (e : Int) :
    gridPoint? x num den e =
      if ofDecimal x.isNegative
          (nearer (scaleBy 10 num den e).1 (scaleBy 10 num den e).2) e == x
      then some (nearer (scaleBy 10 num den e).1 (scaleBy 10 num den e).2)
      else if ofDecimal x.isNegative
          (farther (scaleBy 10 num den e).1 (scaleBy 10 num den e).2) e == x
      then some (farther (scaleBy 10 num den e).1 (scaleBy 10 num den e).2)
      else none := rfl

/-- The nearer neighbour is at most a half away. -/
theorem nearer_near {a b : Nat} (hb : 0 < b) : |(nearer a b : ℚ) - a / b| ≤ 1 / 2 := by
  have hbq : (0 : ℚ) < b := by exact_mod_cast hb
  -- the quotient with its rest, which rounding compares with one half
  have hquotient : (a : ℚ) / b = (a / b : Nat) + ((a % b : Nat) : ℚ) / b := by
    have hsplit : (a : ℚ) = b * (a / b : Nat) + (a % b : Nat) := by
      exact_mod_cast (Nat.div_add_mod a b).symm
    rw [div_eq_iff hbq.ne', add_mul, div_mul_cancel₀ _ hbq.ne', mul_comm]
    exact hsplit
  have hrest : 0 ≤ ((a % b : Nat) : ℚ) / b := by positivity
  have hone : ((a % b : Nat) : ℚ) / b < 1 := by
    rw [div_lt_one hbq]
    exact_mod_cast Nat.mod_lt a hb
  rw [nearer, hquotient, abs_le]
  split
  · rename_i h
    have hhalf : ((a % b : Nat) : ℚ) / b ≤ 1 / 2 := by
      have : (2 : ℚ) * (a % b : Nat) ≤ b := by exact_mod_cast h
      rw [div_le_iff₀ hbq]
      linarith
    constructor <;> linarith
  · rename_i h
    have hhalf : 1 / 2 < ((a % b : Nat) : ℚ) / b := by
      have : (b : ℚ) < 2 * (a % b : Nat) := by exact_mod_cast not_le.mp h
      rw [lt_div_iff₀ hbq]
      linarith
    push_cast
    constructor <;> linarith

/-- What the search takes reads back. -/
theorem ofDecimal_of_gridPoint? {e : Int} {d : Nat} (h : gridPoint? x num den e = some d) :
    ofDecimal x.isNegative d e = x := by
  rw [gridPoint?_eq] at h
  split at h
  · rename_i hreads
    exact Option.some.inj h ▸ beq_iff_eq.mp hreads
  · split at h
    · rename_i hreads
      exact Option.some.inj h ▸ beq_iff_eq.mp hreads
    · cases h

/-- The search takes a decimal if the nearest of the grid reads back. -/
theorem isSome_gridPoint? {e : Int} (hden : 0 < den)
    (hreads : ∀ d : Nat, |(d : ℚ) - num / den / 10 ^ e| ≤ 1 / 2 →
      ofDecimal x.isNegative d e = x) : (gridPoint? x num den e).isSome := by
  have hquotient := quotient_scaleBy (b := 10) (by decide) num den e
  have hstep : 0 < (scaleBy 10 num den e).2 := scaleBy_snd_pos (by decide) _ hden e
  have hnear := nearer_near (a := (scaleBy 10 num den e).1) hstep
  rw [hquotient] at hnear
  rw [gridPoint?_eq, if_pos (beq_iff_eq.mpr (hreads _ (by exact_mod_cast hnear)))]
  rfl

/-- With one digit more, a point of the grid is looked for before going on. -/
theorem shortestFrom_succ (x : Double) (num den : Nat) (top : Int) (fuel count : Nat) :
    shortestFrom x num den top (fuel + 1) count =
      match gridPoint? x num den (top - (count : Int) + 1) with
      | some d => (d, top - (count : Int) + 1)
      | none => shortestFrom x num den top fuel (count + 1) := rfl

/-- The search ends with a decimal that reads back, if there is one on the last grid it tries. -/
theorem ofDecimal_shortestFrom {top : Int} {fuel count : Nat}
    (h : (gridPoint? x num den (top - (count + fuel : Nat) + 1)).isSome) :
    ofDecimal x.isNegative (shortestFrom x num den top (fuel + 1) count).1
      (shortestFrom x num den top (fuel + 1) count).2 = x := by
  -- each step tries one digit more, and with the last one the search is sure to succeed
  induction fuel generalizing count with
  | zero =>
    obtain ⟨d, hd⟩ := Option.isSome_iff_exists.mp h
    rw [Nat.add_zero] at hd
    rw [shortestFrom_succ, hd]
    exact ofDecimal_of_gridPoint? hd
  | succ fuel ih =>
    rw [shortestFrom_succ]
    cases hd : gridPoint? x num den (top - (count : Int) + 1) with
    | some d => exact ofDecimal_of_gridPoint? hd
    | none =>
      refine ih ?_
      rwa [show count + 1 + fuel = count + (fuel + 1) by omega]

end

/-- The shortest decimal of a double reads back as that double. -/
theorem ofDecimal_shortest {x : Double} (hfinite : x.exponentField ≠ 2047)
    (hzero : x.isZero = false) : ofDecimal x.isNegative x.shortest.1 x.shortest.2 = x := by
  obtain ⟨q, m, hx, hfraction⟩ := exists_units hfinite hzero
  have hden : 0 < (raise 2 m q).2 := raise_snd_pos (by decide) _ _
  have hquotient : ((raise 2 m q).1 : ℚ) / (raise 2 m q).2 = magnitude q m := by
    exact_mod_cast quotient_raise 2 m q
  have hdenq : (0 : ℚ) < (raise 2 m q).2 := by exact_mod_cast hden
  have hv := hx.magnitude_pos
  have hnum : 0 < (raise 2 m q).1 := by
    rw [← hquotient] at hv
    exact_mod_cast (div_pos_iff_of_pos_right hdenq).mp hv
  have hseventeen : (gridPoint? x (raise 2 m q).1 (raise 2 m q).2
      (floorLog10 (raise 2 m q).1 (raise 2 m q).2 - (1 + 16 : Nat) + 1)).isSome := by
    refine isSome_gridPoint? hden fun d hd => ofDecimal_of_near hx ?_
    rw [hquotient] at hd
    rw [floorLog10_eq_log hnum hden, hquotient] at hd ⊢
    generalize hstep : (Int.log 10 (magnitude q m) - (1 + 16 : Nat) + 1 : Int) = e at hd ⊢
    have he : (0 : ℚ) < 10 ^ e := by positivity
    -- Half a step of the grid of seventeen digits, in parts of the number.
    have hpart : (10 : ℚ) ^ e * 10 ^ 16 ≤ magnitude q m := by
      have hlog := Int.zpow_log_le_self (b := 10) (by decide) hv
      rw [show Int.log 10 (magnitude q m) = e + 16 by omega, zpow_add₀ (by norm_num)] at hlog
      exact_mod_cast hlog
    have hscaled : |(d : ℚ) * 10 ^ e - magnitude q m| =
        |(d : ℚ) - magnitude q m / 10 ^ e| * 10 ^ e := by
      rw [← abs_of_pos he, ← abs_mul, sub_mul, abs_of_pos he, div_mul_cancel₀ _ he.ne']
    rw [hscaled]
    nlinarith
  have hshortest : x.shortest = shortestFrom x (raise 2 m q).1 (raise 2 m q).2
      (floorLog10 (raise 2 m q).1 (raise 2 m q).2) 17 1 := by
    simp only [shortest, hfraction]
    rw [if_neg (by simpa using hnum.ne')]
  rw [hshortest]
  exact ofDecimal_shortestFrom hseventeen

end NotebookTree.Double
