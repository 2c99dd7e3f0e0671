import Mathlib.Data.List.DropRight
import NotebookTree.Json.Reader
import NotebookTree.Json.Writer
import NotebookTree.Proofs.Number.Shortest

/-!
# Numbers read back

An integer is written with its digits and reads back by them. A double is written with its shortest
digits, without zeros at the end, in one of three layouts; each layout reads back as the decimal of
those digits, whatever the digits are.

## Main results

* `readMagnitude_layoutDigits`: what the layouts of a decimal read back as.
* `readScalar_int`, `readScalar_writeFloat`: integers and doubles read back.
-/

namespace NotebookTree.Json

open Text (isAsciiDigit isAsciiLetter)

/-! ## Runs of digits -/

/-- A number is written in digits. -/
theorem isAsciiDigit_of_mem_toDigits {n : Nat} {c : Char} (h : c ∈ Nat.toDigits 10 n) :
    isAsciiDigit c = true :=
  Nat.isDigit_of_mem_toDigits (by decide) (by decide) h

/-- The value of digits is the one that the library gives them. -/
theorem digitsValue_eq_ofDigitChars (ds : List Char) : digitsValue ds = Nat.ofDigitChars 10 ds 0 :=
  rfl

/-- A number is the value of its digits. -/
theorem digitsValue_toDigits (n : Nat) : digitsValue (Nat.toDigits 10 n) = n :=
  Nat.ofDigitChars_ten_toDigits

/-- Zeros behind the digits multiply the value by powers of ten. -/
theorem digitsValue_append_zeros (ds : List Char) (k : Nat) :
    digitsValue (ds ++ List.replicate k '0') = digitsValue ds * 10 ^ k := by
  rw [digitsValue_eq_ofDigitChars, Nat.ofDigitChars_append, Nat.ofDigitChars_replicate_zero,
    Nat.mul_comm]
  rfl

/-- Zeros in front of the digits leave the value. -/
theorem digitsValue_zeros_append (k : Nat) (ds : List Char) :
    digitsValue (List.replicate k '0' ++ ds) = digitsValue ds := by
  rw [digitsValue_eq_ofDigitChars, Nat.ofDigitChars_append, Nat.ofDigitChars_replicate_zero,
    Nat.mul_zero]
  rfl

/-- Digits up to the first character that is none. -/
theorem spanDigits_append {ds : List Char} (rest : List Char) (hds : ∀ c ∈ ds, isAsciiDigit c = true)
    (hrest : ∀ c ∈ rest.head?, isAsciiDigit c = false) : spanDigits (ds ++ rest) = (ds, rest) := by
  rw [spanDigits, List.span_eq_takeWhile_dropWhile, List.takeWhile_append_of_pos hds,
    List.dropWhile_append_of_pos hds]
  cases rest with
  | nil => simp
  | cons c cs =>
    have hc : isAsciiDigit c = false := hrest c rfl
    simp [hc]

/-- Only zero is written as the digit zero. -/
theorem digitChar_ne_zero : ∀ n < 10, 0 < n → Nat.digitChar n ≠ '0' := by decide

/-- The digits of a number other than zero start with one that is not zero. -/
theorem head?_toDigits_ne {n : Nat} (hn : 0 < n) : (Nat.toDigits 10 n).head? ≠ some '0' := by
  induction n using Nat.strongRecOn with
  | ind n ih =>
    by_cases hlt : n < 10
    · rw [Nat.toDigits_of_lt_base hlt]
      exact fun h => digitChar_ne_zero n hlt hn (Option.some.inj h)
    · rw [Nat.toDigits_of_base_le (by decide) (by omega), List.head?_append_of_ne_nil _
        Nat.toDigits_ne_nil]
      exact ih (n / 10) (by omega) (by omega)

/-! ## The parts of a number -/

/-- A run of digits starts a number: there is one, and no zero stands before another. -/
structure IsWhole (ds : List Char) : Prop where
  digits : ∀ c ∈ ds, isAsciiDigit c = true
  nonempty : ds ≠ []
  noZero : ds.length = 1 ∨ ds.head? ≠ some '0'

/-- The part of a number in front of the point is not refused: it is not empty and has no zero too
many. -/
theorem IsWhole.refused_eq_false {ds : List Char} (h : IsWhole ds) :
    (ds.isEmpty || (ds.length != 1 && ds.head? == some '0')) = false := by
  rw [List.isEmpty_eq_false_iff.mpr h.nonempty, Bool.false_or]
  obtain hone | hhead := h.noZero
  · rw [hone]
    rfl
  · rw [beq_eq_false_iff_ne.mpr hhead, Bool.and_false]

/-- A natural number is written as the part in front of a point may be. -/
theorem isWhole_toDigits (n : Nat) : IsWhole (Nat.toDigits 10 n) where
  digits _ := isAsciiDigit_of_mem_toDigits
  nonempty := Nat.toDigits_ne_nil
  noZero := by
    by_cases hn : n = 0
    · subst hn
      exact .inl rfl
    · exact .inr (head?_toDigits_ne (by omega))

variable (negative : Bool) {whole places : List Char}

/-- Digits alone are read as an integer. -/
theorem readMagnitude_whole (hwhole : IsWhole whole) :
    readMagnitude negative whole = readInteger negative whole := by
  have hspan := spanDigits_append [] hwhole.digits (by simp)
  rw [List.append_nil] at hspan
  simp only [readMagnitude, hspan, hwhole.refused_eq_false, Bool.false_eq_true, if_false]

/-- Digits with a point among them are read as the decimal that they say. -/
theorem readMagnitude_places (hwhole : IsWhole whole)
    (hplaces : ∀ c ∈ places, isAsciiDigit c = true) (hsome : places ≠ []) :
    readMagnitude negative (whole ++ '.' :: places) =
      .ok (.float (Double.ofDecimal negative (digitsValue (whole ++ places)) (-places.length))) := by
  have hspan := spanDigits_append ('.' :: places) hwhole.digits (by simp [isAsciiDigit])
  have hmore := spanDigits_append [] hplaces (by simp)
  rw [List.append_nil] at hmore
  simp only [readMagnitude, hspan, hwhole.refused_eq_false, hmore,
    List.isEmpty_eq_false_iff.mpr hsome, Bool.false_eq_true, if_false, List.isEmpty_nil, if_true,
    readDouble, zero_sub]

/-- Digits with an exponent are read as the decimal that they say. -/
theorem readMagnitude_exponent (hwhole : IsWhole whole) {exponent : List Char} {e : Int}
    (he : readExponent? ('e' :: exponent) = some e) :
    readMagnitude negative (whole ++ 'e' :: exponent) =
      .ok (.float (Double.ofDecimal negative (digitsValue whole) e)) := by
  have hspan := spanDigits_append ('e' :: exponent) hwhole.digits (by simp [isAsciiDigit])
  simp only [readMagnitude, hspan, hwhole.refused_eq_false, Bool.false_eq_true, if_false, he,
    readDouble, List.append_nil, List.length_nil, Nat.cast_zero, sub_zero]
  rfl

/-- Digits with a point and an exponent are read as the decimal that they say. -/
theorem readMagnitude_places_exponent (hwhole : IsWhole whole)
    (hplaces : ∀ c ∈ places, isAsciiDigit c = true) (hsome : places ≠ []) {exponent : List Char}
    {e : Int} (he : readExponent? ('e' :: exponent) = some e) :
    readMagnitude negative (whole ++ '.' :: (places ++ 'e' :: exponent)) =
      .ok (.float (Double.ofDecimal negative (digitsValue (whole ++ places))
        (e - places.length))) := by
  have hspan := spanDigits_append ('.' :: (places ++ 'e' :: exponent)) hwhole.digits
    (by simp [isAsciiDigit])
  have hmore := spanDigits_append ('e' :: exponent) hplaces (by simp [isAsciiDigit])
  simp only [readMagnitude, hspan, hwhole.refused_eq_false, hmore,
    List.isEmpty_eq_false_iff.mpr hsome, List.isEmpty_cons, Bool.false_eq_true, if_false, he,
    readDouble]

/-! ## The layouts of a decimal -/

open Double (Layout layoutDigits standardLayout)

/-- An exponent, with its sign and as many zeros as wanted, reads back. -/
theorem readExponent?_power (power : Int) (zeros : Nat) :
    readExponent? ('e' :: (if power < 0 then '-' else '+') ::
      (List.replicate zeros '0' ++ Nat.toDigits 10 power.natAbs)) = some power := by
  have hempty : (List.replicate zeros '0' ++ Nat.toDigits 10 power.natAbs).isEmpty = false := by
    simp [Nat.toDigits_ne_nil]
  have hdigits : (List.replicate zeros '0' ++ Nat.toDigits 10 power.natAbs).all isAsciiDigit := by
    rw [List.all_append, Bool.and_eq_true, List.all_eq_true, List.all_eq_true]
    refine ⟨fun c hc => ?_, fun c hc => isAsciiDigit_of_mem_toDigits hc⟩
    rw [List.eq_of_mem_replicate hc]
    rfl
  have hvalue : digitsValue (List.replicate zeros '0' ++ Nat.toDigits 10 power.natAbs) =
      power.natAbs := by
    rw [digitsValue_zeros_append, digitsValue_toDigits]
  -- the sign is read apart from the digits, which say the absolute value
  by_cases hneg : power < 0
  · simp only [if_pos hneg, readExponent?, hempty, hdigits, hvalue, beq_self_eq_true,
      Bool.true_or, if_true, Bool.not_true, Bool.or_self, Bool.false_eq_true, if_false]
    rw [Int.ofNat_natAbs_of_nonpos hneg.le, neg_neg]
  · simp only [if_neg hneg, readExponent?, hempty, hdigits, hvalue, beq_self_eq_true,
      Bool.true_or, if_true, Bool.not_true, Bool.or_self, Bool.false_eq_true, if_false]
    rw [Int.natAbs_of_nonneg (by omega)]

/-- Zeros are digits. -/
theorem isAsciiDigit_of_mem_zeros (k : Nat) :
    ∀ c ∈ List.replicate k '0', isAsciiDigit c = true := fun c hc => by
  rw [List.eq_of_mem_replicate hc]
  rfl

section

variable {ds : List Char} (hds : ∀ c ∈ ds, isAsciiDigit c = true)
include hds

/-- Zeros between the point and the digits. -/
theorem readMagnitude_below {point : Int} (hsome : ds ≠ []) (hpoint : point ≤ 0) :
    readMagnitude negative ('0' :: '.' :: (List.replicate (-point).toNat '0' ++ ds)) =
      .ok (.float (Double.ofDecimal negative (digitsValue ds) (point - ds.length))) := by
  have hread := readMagnitude_places negative (isWhole_toDigits 0)
    (List.forall_mem_append.mpr ⟨isAsciiDigit_of_mem_zeros (-point).toNat, hds⟩) (by simp [hsome])
  have hvalue : digitsValue ('0' :: (List.replicate (-point).toNat '0' ++ ds)) =
      digitsValue ds := digitsValue_zeros_append ((-point).toNat + 1) ds
  have hexponent : -(((List.replicate (-point).toNat '0' ++ ds).length : Nat) : Int) =
      point - ds.length := by
    rw [List.length_append, List.length_replicate]
    omega
  rw [← hexponent, ← hvalue]
  exact hread

/-- The first digits, or all of them with zeros behind, may stand in front of a point. -/
theorem isWhole_take_zeros {n : Nat} (hsome : ds ≠ []) (hhead : ds.head? ≠ some '0')
    (hn : n ≠ 0) : IsWhole (ds.take n ++ List.replicate (n - ds.length) '0') := by
  have htake : (ds.take n).head? ≠ some '0' := by rwa [List.head?_take, if_neg hn]
  have hnonempty : ds.take n ≠ [] := by simp [hn, hsome]
  refine ⟨List.forall_mem_append.mpr ⟨fun c hc => hds c (List.mem_of_mem_take hc),
    isAsciiDigit_of_mem_zeros _⟩, by simp [hn, hsome], .inr ?_⟩
  rwa [List.head?_append_of_ne_nil _ hnonempty]

/-- The point among the digits, or behind them and zeros. -/
theorem readMagnitude_among {n : Nat} (hsome : ds ≠ []) (hhead : ds.head? ≠ some '0')
    (hn : n ≠ 0) :
    readMagnitude negative (ds.take n ++ List.replicate (n - ds.length) '0' ++
        '.' :: (if (ds.drop n).isEmpty then ['0'] else ds.drop n)) =
      .ok (.float (Double.ofDecimal negative (digitsValue ds) (n - ds.length))) := by
  have hwhole := isWhole_take_zeros hds hsome hhead hn
  -- either digits are left for behind the point, or zeros fill up to it and one more stands behind
  by_cases hlong : n < ds.length
  · have hdrop : ds.drop n ≠ [] := by simpa using hlong
    have hread := readMagnitude_places negative hwhole
      (fun c hc => hds c (List.mem_of_mem_drop hc)) hdrop
    have hexponent : -(((ds.drop n).length : Nat) : Int) = n - ds.length := by
      rw [List.length_drop]
      omega
    rw [if_neg (by simpa using hlong), hread, hexponent, show n - ds.length = 0 by omega,
      List.replicate_zero, List.append_nil, List.take_append_drop]
  · have hread := readMagnitude_places negative hwhole (isAsciiDigit_of_mem_zeros 1) (by simp)
    have hvalue : digitsValue (ds.take n ++ List.replicate (n - ds.length) '0' ++
        List.replicate 1 '0') = digitsValue ds * 10 ^ (n - ds.length + 1) := by
      rw [List.take_of_length_le (by omega), List.append_assoc, List.replicate_append_replicate,
        digitsValue_append_zeros]
    rw [if_pos (by simpa using hlong)]
    rw [hvalue, Double.ofDecimal_mul_pow] at hread
    rw [show ((n : Int) - ds.length) = -((List.replicate 1 '0').length : Nat) +
      (n - ds.length + 1 : Nat) by simp; omega]
    exact hread

end

/-- Digits in the form with an exponent are read as the decimal that they say. -/
theorem readMagnitude_exponentForm {d : Char} {ds : List Char}
    (hds : ∀ c ∈ d :: ds, isAsciiDigit c = true) (power : Int) (zeros : Nat) :
    readMagnitude negative ((match d :: ds with
        | [] => []
        | [d] => [d]
        | d :: ds => d :: '.' :: ds) ++ 'e' :: (if power < 0 then '-' else '+') ::
        (List.replicate zeros '0' ++ Nat.toDigits 10 power.natAbs)) =
      .ok (.float (Double.ofDecimal negative (digitsValue (d :: ds)) (power - ds.length))) := by
  have hwhole : IsWhole [d] :=
    ⟨fun c hc => hds c (List.mem_cons.mpr (.inl (List.mem_singleton.mp hc))), by simp, .inl rfl⟩
  have hpower := readExponent?_power power zeros
  cases ds with
  | nil =>
    rw [List.length_nil, Nat.cast_zero, sub_zero]
    exact readMagnitude_exponent negative hwhole hpower
  | cons d' ds =>
    exact readMagnitude_places_exponent negative hwhole
      (fun c hc => hds c (List.mem_cons_of_mem _ hc)) (by simp) hpower

/-- Digits laid out with a point or an exponent read back as the decimal they are of. -/
theorem readMagnitude_layoutDigits {ds : List Char} (hds : ∀ c ∈ ds, isAsciiDigit c = true)
    (hsome : ds ≠ []) (hhead : ds.head? ≠ some '0') (l : Layout) (point : Int) :
    readMagnitude negative (layoutDigits l ds point) =
      .ok (.float (Double.ofDecimal negative (digitsValue ds) (point - ds.length))) := by
  simp only [layoutDigits]
  split
  · -- without an exponent the point stands in front of the digits or among them
    split
    · rename_i hpoint
      exact readMagnitude_below negative hds hsome hpoint
    · rename_i hpoint
      have hread := readMagnitude_among negative hds hsome hhead (n := point.toNat) (by omega)
      rwa [Int.toNat_of_nonneg (by omega)] at hread
  · cases ds with
    | nil => exact absurd rfl hsome
    | cons d ds =>
      refine (readMagnitude_exponentForm negative hds (point - 1) _).trans ?_
      rw [List.length_cons]
      congr 3
      push_cast
      ring

/-! ## Numbers -/

omit negative in
/-- None of the words has a digit. -/
theorem lookup_words_of_digit {cs : List Char} {c : Char} (hc : c ∈ cs)
    (hdigit : isAsciiDigit c = true) : words.lookup (String.ofList cs) = none := by
  have hwords : ∀ w ∈ words, w.1.toList.all fun c => !isAsciiDigit c := by
    intro w hw
    simp only [words, List.mem_cons, List.not_mem_nil, or_false] at hw
    rcases hw with rfl | rfl | rfl | rfl | rfl | rfl <;> decide
  refine List.lookup_eq_none_iff.mpr fun w hw => bne_iff_ne.mpr fun heq => ?_
  have hnone := List.all_eq_true.mp (hwords w hw) c
  rw [← heq, String.toList_ofList] at hnone
  simpa [hdigit] using hnone hc

/-- What reads as a magnitude starts with a digit. -/
theorem exists_digit_of_readMagnitude {cs : List Char} {v : Value}
    (h : readMagnitude negative cs = .ok v) :
    ∃ c rest, cs = c :: rest ∧ isAsciiDigit c = true := by
  cases cs with
  | nil => cases h
  | cons c rest =>
    refine ⟨c, rest, rfl, ?_⟩
    by_contra hc
    have hspan : spanDigits (c :: rest) = ([], c :: rest) :=
      spanDigits_append (c :: rest) (List.forall_mem_nil _) (by simpa using hc)
    simp [readMagnitude, hspan] at h

/-- A number reads as its magnitude with its sign. -/
theorem readScalar_signed {cs : List Char} {v : Value} (h : readMagnitude negative cs = .ok v) :
    readScalar (if negative then '-' :: cs else cs) = .ok v := by
  obtain ⟨c, rest, rfl, hc⟩ := exists_digit_of_readMagnitude negative h
  have hne : c ≠ '-' := by
    rintro rfl
    exact absurd hc (by decide)
  cases negative with
  | true =>
    rw [if_pos rfl, readScalar, lookup_words_of_digit (List.mem_cons_of_mem _ List.mem_cons_self) hc]
    exact h
  | false =>
    rw [if_neg Bool.false_ne_true, readScalar, lookup_words_of_digit List.mem_cons_self hc, ← h]
    exact fun ds heq => hne (List.cons.inj heq).1

/-- An integer is written with its sign and the digits of its absolute value. -/
theorem toList_toString_int (n : Int) : (toString n).toList =
    if n < 0 then '-' :: Nat.toDigits 10 n.natAbs else Nat.toDigits 10 n.natAbs := by
  rw [Int.toString_eq_repr, Int.repr_eq_if]
  by_cases hneg : n < 0
  · rw [if_neg (by omega), if_pos hneg, Nat.repr_eq_ofList_toDigits,
      show (-n).toNat = n.natAbs by omega]
    simp
  · rw [if_pos (by omega), if_neg hneg, Nat.repr_eq_ofList_toDigits, String.toList_ofList,
      show n.toNat = n.natAbs by omega]

/-- An integer reads back, if it does not have too many digits. -/
theorem readScalar_int {n : Int} (hn : (Nat.toDigits 10 n.natAbs).length ≤ digitLimit) :
    readScalar (toString n).toList = .ok (.int n) := by
  have hinteger : readMagnitude (decide (n < 0)) (Nat.toDigits 10 n.natAbs) = .ok (.int n) := by
    rw [readMagnitude_whole _ (isWhole_toDigits _), readInteger, if_neg (by omega),
      digitsValue_toDigits]
    by_cases hneg : n < 0
    · rw [if_pos (decide_eq_true hneg), Int.ofNat_natAbs_of_nonpos hneg.le, neg_neg]
    · rw [if_neg (by simpa using hneg), Int.natAbs_of_nonneg (by omega)]
  have hread := readScalar_signed (decide (n < 0)) hinteger
  rw [toList_toString_int]
  simpa using hread

/-! ## Doubles -/

section

open Double

variable {x : Double}

/-- No digits make a zero, with the sign. -/
theorem ofDecimal_zero (exponent : Int) : ofDecimal negative 0 exponent = zero negative := by
  simp [ofDecimal]

/-- A zero is told by its sign. -/
theorem eq_zero_of_isZero (h : x.isZero = true) : x = zero x.isNegative := by
  obtain ⟨hexponent, hsignificand⟩ := Bool.and_eq_true_iff.mp h
  have hfields := x.ofFields_fields
  rw [beq_iff_eq.mp hexponent, beq_iff_eq.mp hsignificand] at hfields
  exact hfields.symm

/-- An infinity is told by its sign. -/
theorem eq_infinity_of_isInfinite (h : x.isInfinite = true) : x = infinity x.isNegative := by
  obtain ⟨hexponent, hsignificand⟩ := Bool.and_eq_true_iff.mp h
  have hfields := x.ofFields_fields
  rw [beq_iff_eq.mp hexponent, beq_iff_eq.mp hsignificand] at hfields
  exact hfields.symm

/-- The digits of a number other than zero, without the zeros at their end. -/
theorem exists_zeros_of_pos {d : Nat} (hd : 0 < d) :
    ∃ kept k, Nat.toDigits 10 d = kept ++ List.replicate k '0' ∧ kept ≠ [] ∧
      ((Nat.toDigits 10 d).reverse.dropWhile (· == '0')).reverse = kept := by
  have hzeros : ∀ c ∈ (Nat.toDigits 10 d).rtakeWhile (· == '0'), c = '0' :=
    fun c hc => beq_iff_eq.mp (List.mem_rtakeWhile_imp (p := (· == '0')) hc)
  have hsplit := List.rdropWhile_append_rtakeWhile (p := (· == '0')) (l := Nat.toDigits 10 d)
  refine ⟨_, ((Nat.toDigits 10 d).rtakeWhile (· == '0')).length, ?_, fun hnone => ?_, rfl⟩
  · rw [← List.eq_replicate_of_mem hzeros]
    exact hsplit.symm
  · obtain ⟨c, cs, hcs⟩ := List.exists_cons_of_ne_nil (Nat.toDigits_ne_nil (n := d) (b := 10))
    have hc : c = '0' :=
      beq_iff_eq.mp (List.rdropWhile_eq_nil_iff.mp hnone c (by rw [hcs]; exact List.mem_cons_self))
    exact head?_toDigits_ne hd (by rw [hcs, hc]; rfl)

/-- A zero is a zero, whatever its sign. -/
theorem isZero_zero : (zero negative).isZero = true := by
  cases negative <;> decide

/-- The shortest digits of a float that is finite and not zero are a positive number. -/
theorem shortest_pos (hfinite : x.exponentField ≠ 2047) (hzero : x.isZero = false) :
    0 < x.shortest.1 := by
  refine Nat.pos_of_ne_zero fun hnone => ?_
  have hread := ofDecimal_shortest hfinite hzero
  rw [hnone, ofDecimal_zero] at hread
  rw [← hread, isZero_zero] at hzero
  cases hzero

/-- The shortest digits of a double, without the zeros at their end, are those of a decimal that
reads back. -/
theorem decimalDigits_spec (hfinite : x.exponentField ≠ 2047) (hzero : x.isZero = false) :
    (∀ c ∈ x.decimalDigits.1, isAsciiDigit c = true) ∧ x.decimalDigits.1 ≠ [] ∧
      x.decimalDigits.1.head? ≠ some '0' ∧
      ofDecimal x.isNegative (digitsValue x.decimalDigits.1)
        (x.decimalDigits.2 - x.decimalDigits.1.length) = x := by
  have hpos := shortest_pos hfinite hzero
  have hread := ofDecimal_shortest hfinite hzero
  obtain ⟨kept, k, hdigits, hsome, hkept⟩ := exists_zeros_of_pos hpos
  have hfirst : x.decimalDigits.1 = kept := by
    rw [decimalDigits, hkept, List.isEmpty_eq_false_iff.mpr hsome]
    rfl
  have hsecond : x.decimalDigits.2 = x.shortest.2 + (kept.length + k : Nat) := by
    rw [decimalDigits, hdigits, List.length_append, List.length_replicate]
  have hvalue : x.shortest.1 = digitsValue kept * 10 ^ k := by
    rw [← digitsValue_append_zeros, ← hdigits, digitsValue_toDigits]
  -- the zeros at the end are dropped from the digits and counted in the exponent
  rw [hfirst, hsecond]
  refine ⟨fun c hc => isAsciiDigit_of_mem_toDigits (n := x.shortest.1) ?_, hsome, ?_, ?_⟩
  · rw [hdigits]
    exact List.mem_append_left _ hc
  · have hhead := head?_toDigits_ne hpos
    rwa [hdigits, List.head?_append_of_ne_nil _ hsome] at hhead
  · rw [hvalue, ofDecimal_mul_pow] at hread
    rwa [show x.shortest.2 + (kept.length + k : Nat) - (kept.length : Int) = x.shortest.2 + k by
      push_cast
      ring]

/-- The infinities are read by their names. -/
theorem readScalar_infinity :
    readScalar (if negative then '-' :: "Infinity".toList else "Infinity".toList) =
      .ok (.float (infinity negative)) := by
  cases negative with
  | true => rfl
  | false => rfl

/-- A double that is a number reads back. -/
theorem readScalar_writeFloat (hnan : x.isNaN = false) :
    readScalar (writeFloat x) = .ok (.float x) := by
  rw [writeFloat, textWith, if_neg (by rw [hnan]; exact Bool.false_ne_true), String.toList_ofList]
  by_cases hinfinite : x.isInfinite = true
  · rw [if_pos hinfinite, readScalar_infinity, ← eq_infinity_of_isInfinite hinfinite]
  rw [if_neg hinfinite]
  by_cases hzero : x.isZero = true
  · have hread := readMagnitude_places x.isNegative (isWhole_toDigits 0)
      (isAsciiDigit_of_mem_zeros 1) (by simp)
    have hvalue : digitsValue (Nat.toDigits 10 0 ++ List.replicate 1 '0') = 0 := rfl
    rw [hvalue, ofDecimal_zero, ← eq_zero_of_isZero hzero] at hread
    rw [if_pos hzero]
    exact readScalar_signed x.isNegative hread
  · -- the greatest exponent is kept for the infinities and for what is no number
    have hfinite : x.exponentField ≠ 2047 := by
      intro hexponent
      rw [isNaN, hexponent, beq_self_eq_true, Bool.true_and, bne_eq_false_iff_eq] at hnan
      rw [isInfinite, hexponent, hnan] at hinfinite
      exact hinfinite rfl
    obtain ⟨hds, hsome, hhead, hread⟩ := decimalDigits_spec hfinite (by simpa using hzero)
    rw [if_neg hzero, readScalar_signed x.isNegative
      (readMagnitude_layoutDigits x.isNegative hds hsome hhead _ _), hread]

end

end NotebookTree.Json
