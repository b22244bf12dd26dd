/-!
# Double precision numbers as bit patterns

A `Double` is its 64 bits, so that two of them are equal exactly when they are the same number (zeros
of different sign differ, a NaN equals itself). The finite ones are `± m · 2^q` with the
significand `m` and the exponent `q`.

* `Double.ofRatio` is the double nearest to a quotient of natural numbers, ties to even.
* `Double.mul` and `Double.div` round the exact result once.
* `Double.roundToNat` rounds half away from zero and stays inside `0 … max`.
-/

namespace EditorBridge.Number

/-- A double precision number, given by its bits. -/
structure Double where
  bits : UInt64
  deriving DecidableEq, Repr, Inhabited

namespace Double

/-! ## 1. Taking a number apart -/

/-- Whether the sign bit is set. -/
def isNegative (d : Double) : Bool := 9223372036854775808 ≤ d.bits.toNat

/-- The bits without the sign. -/
def magnitude (d : Double) : Nat := d.bits.toNat % 9223372036854775808

/-- The exponent field. -/
def biased (d : Double) : Nat := d.magnitude / 4503599627370496

/-- The fraction field. -/
def fraction (d : Double) : Nat := d.magnitude % 4503599627370496

/-- Whether the number is infinite, of either sign. -/
def isInfinite (d : Double) : Bool := d.magnitude == 9218868437227405312

/-- Whether the pattern stands for no number. -/
def isNaN (d : Double) : Bool := 9218868437227405312 < d.magnitude

/-- Whether the pattern is a zero, of either sign. -/
def isZero (d : Double) : Bool := d.magnitude == 0

/-- The significand `m` of a finite number `± m · 2^q`. -/
def significand (d : Double) : Nat :=
  if d.biased = 0 then d.fraction else d.fraction + 4503599627370496

/-- The exponent `q` of a finite number `± m · 2^q`. -/
def exponent (d : Double) : Int := if d.biased = 0 then -1074 else (d.biased : Int) - 1075

/-! ## 2. Putting a number together -/

/-- The pattern with a sign and the given lower bits. -/
def ofMagnitude (negative : Bool) (n : Nat) : Double :=
  ⟨UInt64.ofNat ((if negative then 9223372036854775808 else 0) + n)⟩

/-- Infinity. -/
def infinity (negative : Bool) : Double := ofMagnitude negative 9218868437227405312

/-- The pattern used for "no number". -/
def nan : Double := ofMagnitude false 9221120237041090560

/-- The quotient rounded to the nearest natural number, a tie to the even one. -/
def roundHalfEven (num den : Nat) : Nat :=
  let q := num / den
  let r := num % den
  if 2 * r < den then q
  else if 2 * r > den then q + 1
  else if q % 2 = 0 then q else q + 1

/-- `num / den` scaled by `2^(-q)`, as a pair of natural numbers. -/
def scaled (num den : Nat) (q : Int) : Nat × Nat :=
  match q with
  | .ofNat k => (num, den * Nat.pow 2 k)
  | .negSucc k => (num * Nat.pow 2 (k + 1), den)

/-- The exponent with which `num / den` has a significand of 53 bits, but never below the one of the
    smallest numbers. -/
def exponentFor (num den : Nat) : Int :=
  let guess : Int := (Nat.log2 num : Int) - Nat.log2 den - 52
  let (n, d) := scaled num den guess
  let q := if n < d * 4503599627370496 then guess - 1 else guess
  max q (-1074)

/-- The double nearest to `± num / den`; infinite when that is too large. -/
def ofRatio (negative : Bool) (num den : Nat) : Double :=
  if num = 0 then ofMagnitude negative 0
  else
    let q := exponentFor num den
    let (n, d) := scaled num den q
    let bits := (q + 1074).toNat * 4503599627370496 + roundHalfEven n d
    if 9218868437227405312 ≤ bits then infinity negative else ofMagnitude negative bits

/-- The double nearest to a natural number. -/
def ofNat (n : Nat) : Double := ofRatio false n 1

/-- The double nearest to `± c · 10^e`. Powers of ten that decide the answer by themselves are not
    computed. -/
def ofDecimal (negative : Bool) (c : Nat) (e : Int) : Double :=
  if c = 0 then ofMagnitude negative 0
  else
    match e with
    | .ofNat k => if 400 < k then infinity negative else ofRatio negative (c * Nat.pow 10 k) 1
    | .negSucc k => if 400 + Nat.log2 c < k then ofMagnitude negative 0 else ofRatio negative c (Nat.pow 10 (k + 1))

/-- The number with the other sign. -/
def neg (d : Double) : Double := ofMagnitude (!d.isNegative) d.magnitude

/-! ## 3. Arithmetic on finite numbers -/

/-- `m · 2^q` as a quotient of natural numbers. -/
def ratioOf (m : Nat) (q : Int) : Nat × Nat :=
  match q with
  | .ofNat k => (m * Nat.pow 2 k, 1)
  | .negSucc k => (m, Nat.pow 2 (k + 1))

/-- The absolute value of a finite number as a quotient. -/
def ratio (d : Double) : Nat × Nat := ratioOf d.significand d.exponent

/-- The product of two finite numbers, rounded once. -/
def mul (a b : Double) : Double :=
  let (m, d) := ratioOf (a.significand * b.significand) (a.exponent + b.exponent)
  ofRatio (a.isNegative != b.isNegative) m d

/-- The quotient of two finite numbers, the second not zero, rounded once. -/
def div (a b : Double) : Double :=
  let (m, d) := a.ratio
  let (m', d') := b.ratio
  ofRatio (a.isNegative != b.isNegative) (m * d') (d * m')

/-- The nearest natural number, a half going up; negative numbers and NaN give zero, and nothing
    exceeds `max`. -/
def roundToNat (max : Nat) (d : Double) : Nat :=
  if d.isNaN || d.isNegative then 0
  else if d.isInfinite then max
  else
    let (m, n) := d.ratio
    min max ((2 * m + n) / (2 * n))

end Double

end EditorBridge.Number
