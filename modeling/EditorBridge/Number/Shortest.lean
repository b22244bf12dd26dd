import EditorBridge.Number.Double
import EditorBridge.Text.Numeral

/-!
# The fewest digits that read back

`Double.shortest` finds, for a finite non-zero number, the decimal `d · 10^k` with the fewest digits
among those that round to the number, and among these the nearest one (the even one on a tie). A
grid of step `10^k` has such a decimal only if one of the number's two neighbours on the grid is one.

`Layout` says how the digits are set: between two powers of ten positionally, elsewhere with an
exponent.
-/

namespace EditorBridge.Number

open EditorBridge.Text

namespace Double

/-! ## 1. The numbers that round to a double -/

/-- The distance to the lower border of the rounding interval, in quarters of the last place: the
    spacing below a power of two is half as wide. -/
def lowerQuarters (d : Double) : Nat :=
  if d.fraction = 0 ∧ 1 < d.biased then 1 else 2

/-- Whether `num / den` rounds to the number `m · 2^q` of even or odd `m`. All is compared in
    quarters of the last place. -/
def roundsTo (d : Double) (num den : Nat) : Bool :=
  let (n, e) := scaled num den (d.exponent - 2)
  let mid := 4 * d.significand
  let lo := mid - d.lowerQuarters
  let hi := mid + 2
  if d.significand % 2 = 0 then lo * e ≤ n && n ≤ hi * e
  else lo * e < n && n < hi * e

/-! ## 2. Searching the grids -/

/-- `c · 10^k` as a quotient. -/
def decimalRatio (c : Nat) (k : Int) : Nat × Nat :=
  match k with
  | .ofNat j => (c * Nat.pow 10 j, 1)
  | .negSucc j => (c, Nat.pow 10 (j + 1))

/-- The number's lower neighbour on the grid of step `10^k`, and whether the number lies below (`lt`),
    at (`eq`) or above (`gt`) the middle between its two neighbours. -/
def onGrid (d : Double) (k : Int) : Nat × Ordering :=
  let (m, n) := d.ratio
  let (p, r) := decimalRatio 1 k
  let num := m * r
  let den := n * p
  (num / den, compare (2 * (num % den)) den)

/-- The neighbour on one grid that rounds to the number, the nearer one if both do. -/
def hit? (d : Double) (k : Int) : Option Nat :=
  let (c, side) := d.onGrid k
  let ok (c : Nat) : Bool := let (p, r) := decimalRatio c k; d.roundsTo p r
  match ok c, ok (c + 1) with
  | true, true =>
    match side with
    | .lt => some c
    | .gt => some (c + 1)
    | .eq => some (if c % 2 = 0 then c else c + 1)
  | true, false => some c
  | false, true => some (c + 1)
  | false, false => none

/-- The first grid, going to finer ones, with a decimal that rounds to the number. -/
def searchGrids (d : Double) : Nat → Int → Nat × Int
  | 0, k => ((d.onGrid k).1, k)
  | fuel + 1, k =>
    match d.hit? k with
    | some c => (c, k)
    | none => searchGrids d fuel (k - 1)

/-- The fewest digits, and the power of ten that their last one stands for. -/
def shortest (d : Double) : Nat × Int :=
  let log2 : Int := (Nat.log2 d.significand : Int) + d.exponent
  searchGrids d 40 ((log2 * 30103).fdiv 100000 + 2)

end Double

/-! ## 3. Setting the digits -/

/-- How a number is set. -/
structure Layout where
  /-- Positional when the first digit stands for `10^n` with `low ≤ n < high`; `none`: always. -/
  positional : Option (Int × Int)
  /-- Whether a whole number set positionally keeps `.0`. -/
  keepPoint : Bool
  /-- Whether a positive exponent has a plus sign. -/
  plusExponent : Bool

namespace Layout

/-- A run of zeros. -/
def zeros (n : Nat) : List Char := List.replicate n '0'

/-- `digits · 10^k` in positional notation. -/
def positionalText (l : Layout) (digits : List Char) (k : Int) : List Char :=
  let point := if l.keepPoint then ['.', '0'] else []
  match k with
  | .ofNat j => digits ++ zeros j ++ point
  | .negSucc j =>
    let places := j + 1
    if places < digits.length then
      digits.take (digits.length - places) ++ ['.'] ++ digits.drop (digits.length - places)
    else ['0', '.'] ++ zeros (places - digits.length) ++ digits

/-- `digits · 10^k` with an exponent. -/
def exponentText (l : Layout) (digits : List Char) (k : Int) : List Char :=
  let e : Int := k + digits.length - 1
  let sign := if e < 0 then ['-'] else if l.plusExponent then ['+'] else []
  let tail := match digits with
    | [] => []
    | [d] => [d]
    | d :: ds => d :: '.' :: ds
  tail ++ ['e'] ++ sign ++ Numeral.digits e.natAbs

/-- The text of a number. -/
def text (l : Layout) (d : Double) : String :=
  if d.isNaN then "NaN"
  else
    let sign := if d.isNegative then ['-'] else []
    if d.isInfinite then String.ofList (sign ++ ['i', 'n', 'f'])
    else if d.isZero then
      String.ofList (sign ++ ['0'] ++ if l.keepPoint then ['.', '0'] else [])
    else
      let (c, k) := d.shortest
      let digits := Numeral.digits c
      let first : Int := k + digits.length - 1
      let inside := match l.positional with
        | none => true
        | some (low, high) => low ≤ first && first < high
      String.ofList (sign ++ if inside then l.positionalText digits k else l.exponentText digits k)

/-- Plain decimal notation: positional whatever the size, whole numbers without a point. -/
def plain : Layout := ⟨none, false, false⟩

/-- The notation of numbers in data and messages: positional from `0.00001` up to, not including,
    `10^16`, with a point; beyond that an exponent with its sign. -/
def precise : Layout := ⟨some (-5, 16), true, true⟩

end Layout

end EditorBridge.Number
