import EditorBridge.Json.Basic
import EditorBridge.Text.Numeral
import EditorBridge.Text.Utf8

/-!
# JSON text as written

The reader first finds the shape of a text and leaves its strings and numbers as they were written.
`Source.eval?` then gives the value, with the checks that only matter for values that are used:

* a string must be UTF-8 and its surrogates must come in pairs (`stringText?`);
* a number must be finite (`Literal.value?`);
* arrays and objects must not nest deeper than the budget.

A member that nobody reads is therefore never refused for one of these.
-/

namespace EditorBridge.Json

open EditorBridge.Text EditorBridge.Number

/-! ## 1. Strings -/

/-- A piece of a string as written: a byte, or the code unit of a `\u` escape. -/
inductive Piece where
  | byte (b : UInt8)
  | unit (n : Nat)
  deriving DecidableEq, Repr

/-- The bytes that a string stands for; `none` at a surrogate without its partner. -/
def pieceBytes : List Piece → Option (List UInt8)
  | [] => some []
  | .byte b :: r => (pieceBytes r).map (b :: ·)
  | .unit n :: r =>
    if 0xDC00 ≤ n ∧ n ≤ 0xDFFF then none
    else if 0xD800 ≤ n ∧ n ≤ 0xDBFF then
      match r with
      | .unit m :: r =>
        if 0xDC00 ≤ m ∧ m ≤ 0xDFFF then
          (pieceBytes r).map
            (String.utf8EncodeChar (Char.ofNat (0x10000 + (n - 0xD800) * 1024 + (m - 0xDC00))) ++ ·)
        else none
      | _ => none
    else (pieceBytes r).map (String.utf8EncodeChar (Char.ofNat n) ++ ·)

/-- The text of a string as written. -/
def stringText? (ps : List Piece) : Option String := (pieceBytes ps).bind Utf8.decode?

/-! ## 2. Numbers -/

/-- A number as written. The fraction and the exponent are empty digit lists when absent, which they
    never are when present. -/
structure Literal where
  negative : Bool
  whole : List Nat
  fraction : List Nat
  exponent : Option (Bool × List Nat)
  deriving Repr

namespace Literal

/-- Appends whole digits to a significand of 64 bits: the digits that no longer fit only raise the
    power of ten. Once one does not fit, none of the later ones is taken. -/
def takeWhole (significand : Nat) : List Nat → Nat × Nat
  | [] => (significand, 0)
  | d :: ds =>
    if significand * 10 + d ≤ Numeral.maxU64 then takeWhole (significand * 10 + d) ds
    else (significand, ds.length + 1)

/-- Appends digits after the point: they lower the power of ten until one does not fit. -/
def takeFraction (significand : Nat) : List Nat → Nat × Nat
  | [] => (significand, 0)
  | d :: ds =>
    if significand * 10 + d ≤ Numeral.maxU64 then
      let (s, k) := takeFraction (significand * 10 + d) ds
      (s, k + 1)
    else (significand, 0)

/-- The exponent as written, at most about `2^31`. -/
def exponentValue (ds : List Nat) : Option Nat :=
  ds.foldl (fun acc d => acc.bind fun e => if e * 10 + d ≤ 2147483647 then some (e * 10 + d) else none)
    (some 0)

/-- `significand · 10^e`: the significand is rounded, multiplied or divided by a rounded power of ten
    of at most `10^308`, and rounded again after each step. `none` when too large. -/
def scaleTen : Nat → Double → Int → Option Double
  | 0, d, _ => some d
  | fuel + 1, d, e =>
    if e.natAbs ≤ 308 then
      let p := Double.ofNat (Nat.pow 10 e.natAbs)
      if 0 ≤ e then
        let r := d.mul p
        if r.isInfinite then none else some r
      else some (d.div p)
    else if d.isZero then some d
    else if 0 ≤ e then none
    else scaleTen fuel (d.div (Double.ofNat (Nat.pow 10 308))) (e + 308)

/-- The number as a double. -/
def toDouble? (l : Literal) : Option Double :=
  let (s, up) := takeWhole 0 l.whole
  let (s, down) := takeFraction s l.fraction
  let base : Int := (up : Int) - down
  let zero := if l.negative then (Double.ofNat 0).neg else Double.ofNat 0
  let signed (d : Double) := if l.negative then d.neg else d
  let scaled (e : Int) := (scaleTen (e.natAbs / 308 + 2) (Double.ofNat s) e).map signed
  match l.exponent with
  | none => scaled base
  | some (minus, ds) =>
    match exponentValue ds with
    | some e => scaled (if minus then base - e else base + e)
    | none => if s ≠ 0 ∧ !minus then none else some zero

/-- The value of a number: an integer if it is written as one and fits 64 bits; `-0` is a double. -/
def value? (l : Literal) : Option Json :=
  let double := l.toDouble?.map Json.float
  if l.fraction.isEmpty && l.exponent.isNone then
    match takeWhole 0 l.whole with
    | (n, 0) =>
      if !l.negative then some (.int n)
      else if n ≠ 0 ∧ n ≤ 9223372036854775808 then some (.int (-(n : Int)))
      else double
    | _ => double
  else double

end Literal

/-! ## 3. Values -/

/-- A JSON text as written. -/
inductive Source where
  | null
  | bool (b : Bool)
  | number (l : Literal)
  | string (ps : List Piece)
  | array (xs : List Source)
  | object (ms : List (List Piece × Source))
  deriving Inhabited

namespace Source

mutual

/-- The value of a text whose arrays and objects nest at most `depth` deep. -/
def eval? (depth : Nat) : Source → Option Json
  | .null => some .null
  | .bool b => some (.bool b)
  | .number l => l.value?
  | .string ps => (stringText? ps).map .str
  | .array xs => if depth = 0 then none else (evalElements (depth - 1) xs).map .arr
  | .object ms => if depth = 0 then none else (evalMembers (depth - 1) ms).map .ofMembers

/-- The values of array elements. -/
def evalElements (depth : Nat) : List Source → Option (List Json)
  | [] => some []
  | x :: xs => (x.eval? depth).bind fun v => (evalElements depth xs).map (v :: ·)

/-- The keys and values of members, in the order written. -/
def evalMembers (depth : Nat) : List (List Piece × Source) → Option (List (String × Json))
  | [] => some []
  | (k, x) :: ms =>
    (stringText? k).bind fun key =>
      (x.eval? depth).bind fun v => (evalMembers depth ms).map ((key, v) :: ·)

end

end Source

/-- How deep arrays and objects may nest. -/
def maxDepth : Nat := 127

end EditorBridge.Json
