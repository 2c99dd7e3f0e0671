/-!
# Double precision numbers as bit patterns

A `Double` is the sixty-four bits of an IEEE binary64 number. Reading a decimal and choosing its
shortest decimal text are exact computations on natural numbers, so both can be reasoned about:
`ofRatio` rounds a quotient to the nearest double, ties to even, and `shortest` finds the fewest
digits whose decimal reads back as the same double.

## Main definitions

* `Double.ofRatio`, `Double.ofDecimal`: the nearest double of a quotient or a decimal.
* `Double.fraction?`: the exact value of a finite double.
* `Double.shortest`: digits and exponent of the shortest decimal that reads back.

Reference: how numbers are read by the decoder of JSON behind `parse_from_string`, and written by
the encoder behind `ast_to_json`.
-/

namespace NotebookTree

/-- A binary64 number, given by its bits. -/
structure Double where
  bits : UInt64
  deriving DecidableEq

namespace Double

/-- The bit pattern with a sign, a biased exponent and a trailing significand. -/
def ofFields (negative : Bool) (exponent significand : Nat) : Double :=
  ⟨UInt64.ofNat ((if negative then Nat.pow 2 63 else 0) + exponent * Nat.pow 2 52 + significand)⟩

/-- Zero with a sign. -/
def zero (negative : Bool) : Double := ofFields negative 0 0

/-- Infinity with a sign. -/
def infinity (negative : Bool) : Double := ofFields negative 2047 0

/-- The quiet not-a-number. -/
def nan : Double := ofFields false 2047 (Nat.pow 2 51)

/-- Whether the sign bit is set. -/
def isNegative (x : Double) : Bool := Nat.pow 2 63 ≤ x.bits.toNat

/-- The biased exponent. -/
def exponentField (x : Double) : Nat := x.bits.toNat / Nat.pow 2 52 % 2048

/-- The trailing significand. -/
def significandField (x : Double) : Nat := x.bits.toNat % Nat.pow 2 52

/-- Whether the number is a not-a-number. -/
def isNaN (x : Double) : Bool := x.exponentField == 2047 && x.significandField != 0

/-- Whether the number is infinite. -/
def isInfinite (x : Double) : Bool := x.exponentField == 2047 && x.significandField == 0

/-- Whether the number is a zero of either sign. -/
def isZero (x : Double) : Bool := x.exponentField == 0 && x.significandField == 0

/-- A quotient rounded to the nearest natural number, a half to the even neighbour. -/
def roundDiv (num den : Nat) : Nat :=
  let q := num / den
  let r := num % den
  if 2 * r < den then q
  else if den < 2 * r then q + 1
  else if q % 2 == 0 then q else q + 1

/-- `num / den * 2 ^ (-shift)` as a quotient of natural numbers. -/
def scaleDown (num den : Nat) (shift : Int) : Nat × Nat :=
  if 0 ≤ shift then (num, den * Nat.pow 2 shift.toNat) else (num * Nat.pow 2 (-shift).toNat, den)

/-- The exponent of the greatest power of two that is at most `num / den`. -/
def floorLog2 (num den : Nat) : Int :=
  let e : Int := (num.log2 : Int) - (den.log2 : Int)
  let s := scaleDown num den e
  if s.1 < s.2 then e - 1 else e

/-- The double nearest to `num / den`; a tie goes to the even significand. -/
def ofRatio (negative : Bool) (num den : Nat) : Double :=
  if num == 0 then zero negative
  else
    let q := max (floorLog2 num den - 52) (-1074)
    let s := scaleDown num den q
    let m := roundDiv s.1 s.2
    let m' := if m == Nat.pow 2 53 then Nat.pow 2 52 else m
    let q' := if m == Nat.pow 2 53 then q + 1 else q
    if 971 < q' then infinity negative
    else if m' < Nat.pow 2 52 then ofFields negative 0 m'
    else ofFields negative (q' + 1075).toNat (m' - Nat.pow 2 52)

/-- The double nearest to `digits * 10 ^ exponent`. -/
def ofDecimal (negative : Bool) (digits : Nat) (exponent : Int) : Double :=
  let size : Int := (Nat.toDigits 10 digits).length
  if digits == 0 || exponent + size < -400 then zero negative
  else if 400 < exponent + size then infinity negative
  else if 0 ≤ exponent then ofRatio negative (digits * Nat.pow 10 exponent.toNat) 1
  else ofRatio negative digits (Nat.pow 10 (-exponent).toNat)

/-- The magnitude of a finite double as a quotient. -/
def fraction? (x : Double) : Option (Nat × Nat) :=
  if x.exponentField == 2047 then none
  else
    let m := if x.exponentField == 0 then x.significandField else Nat.pow 2 52 + x.significandField
    let q : Int := if x.exponentField == 0 then -1074 else (x.exponentField : Int) - 1075
    some (if 0 ≤ q then (m * Nat.pow 2 q.toNat, 1) else (m, Nat.pow 2 (-q).toNat))

/-- `num / den / 10 ^ exponent` as a quotient. -/
def scaleDecimal (num den : Nat) (exponent : Int) : Nat × Nat :=
  if 0 ≤ exponent then (num, den * Nat.pow 10 exponent.toNat)
  else (num * Nat.pow 10 (-exponent).toNat, den)

/-- The exponent of the greatest power of ten that is at most `num / den`. -/
def floorLog10 (num den : Nat) : Int :=
  let e : Int := ((Nat.toDigits 10 num).length : Int) - ((Nat.toDigits 10 den).length : Int)
  let s := scaleDecimal num den e
  if s.1 < s.2 then e - 1 else e

/-- The point of the grid `10 ^ exponent` next to `num / den` that reads back as `x`, if one of the
two neighbours does; of two, the nearer. -/
def gridPoint? (x : Double) (num den : Nat) (exponent : Int) : Option Nat :=
  let s := scaleDecimal num den exponent
  let below := s.1 / s.2
  let above := below + 1
  let reads (d : Nat) : Bool := ofDecimal x.isNegative d exponent == x
  let first := if 2 * (s.1 % s.2) ≤ s.2 then below else above
  let second := if 2 * (s.1 % s.2) ≤ s.2 then above else below
  if reads first then some first else if reads second then some second else none

/-- Tries grids with more and more digits, `fuel` of them at most. -/
def shortestFrom (x : Double) (num den : Nat) (top : Int) : (fuel count : Nat) → Nat × Int
  | 0, _ => (0, 0)
  | fuel + 1, count =>
    let e := top - (count : Int) + 1
    match gridPoint? x num den e with
    | some d => (d, e)
    | none => shortestFrom x num den top fuel (count + 1)

/-- Digits and exponent of the shortest decimal that reads back as `x`; seventeen digits always
suffice. -/
def shortest (x : Double) : Nat × Int :=
  match x.fraction? with
  | none => (0, 0)
  | some (num, den) =>
    if num == 0 then (0, 0) else shortestFrom x num den (floorLog10 num den) 17 1

/-- The digits of a decimal without the zeros at its end, and where its point stands: the number is
`0.d₁d₂…` times ten to that power. -/
def decimalDigits (x : Double) : List Char × Int :=
  let p := x.shortest
  let digits := Nat.toDigits 10 p.1
  let kept := (digits.reverse.dropWhile (· == '0')).reverse
  (if kept.isEmpty then ['0'] else kept, p.2 + (digits.length : Int))

/-- How the text of a number is laid out. -/
structure Layout where
  /-- The least power of ten whose numbers are written positionally. -/
  positionalFrom : Int
  /-- The first power of ten from which the exponent form is used. -/
  positionalBelow : Int
  /-- Digits of the exponent at least. -/
  exponentDigits : Nat

/-- Numbers from `1e-4` up to `1e16` are written positionally, whole ones with `.0`; the others with
a signed exponent of two digits or more. -/
def standardLayout : Layout := ⟨-4, 16, 2⟩

/-- The text of a finite magnitude under a layout, from its digits and the place of its point. -/
def layoutDigits (l : Layout) (digits : List Char) (point : Int) : List Char :=
  let power := point - 1
  if l.positionalFrom ≤ power ∧ power < l.positionalBelow then
    if point ≤ 0 then '0' :: '.' :: (List.replicate (-point).toNat '0' ++ digits)
    else
      let n := point.toNat
      let whole := digits.take n ++ List.replicate (n - digits.length) '0'
      let rest := digits.drop n
      whole ++ '.' :: (if rest.isEmpty then ['0'] else rest)
  else
    -- with an exponent the point stands behind the first digit
    let head := match digits with
      | [] => []
      | [d] => [d]
      | d :: ds => d :: '.' :: ds
    let sign := if power < 0 then '-' else '+'
    let e := Nat.toDigits 10 power.natAbs
    head ++ 'e' :: sign :: (List.replicate (l.exponentDigits - e.length) '0' ++ e)

/-- The text of a number, with the words for the values that are not finite. -/
def textWith (nanWord infinityWord : String) (x : Double) : String :=
  if x.isNaN then nanWord
  else
    let body :=
      if x.isInfinite then infinityWord.toList
      else if x.isZero then ['0', '.', '0']
      else
        let p := x.decimalDigits
        layoutDigits standardLayout p.1 p.2
    String.ofList (if x.isNegative then '-' :: body else body)

/-- The plain text of a number. -/
def text (x : Double) : String := x.textWith "nan" "inf"

/-- The exact comparison of a finite double with an integer. -/
def equalsInt (x : Double) (n : Int) : Bool :=
  match x.fraction? with
  | none => false
  | some (num, den) =>
    if n == 0 then num == 0
    else num == n.natAbs * den && (x.isNegative == (n < 0))

/-- Numeric equality: zeros of both signs agree, a not-a-number equals nothing. -/
def equals (x y : Double) : Bool :=
  !x.isNaN && (x == y || (x.isZero && y.isZero))

end Double

end NotebookTree
