/-!
# Decimal numerals

`Numeral.digits` writes a natural number in decimal, `Numeral.ofInt` an integer. Reading takes ASCII
digits only: `readUnsigned` allows one leading `+`, `readSigned` one leading `+` or `-`; both refuse an
empty run of digits and a number outside the range.
-/

namespace EditorBridge.Text.Numeral

/-! ## 1. Writing -/

/-- The character of one decimal digit. -/
def digitChar (d : Nat) : Char := Char.ofNat (48 + d)

/-- The decimal digits of a number, most significant first. -/
def digits (n : Nat) : List Char :=
  if n < 10 then [digitChar n] else digits (n / 10) ++ [digitChar (n % 10)]

/-- The decimal text of a natural number. -/
def ofNat (n : Nat) : String := String.ofList (digits n)

/-- The decimal text of an integer. -/
def ofInt : Int → String
  | .ofNat n => ofNat n
  | .negSucc n => String.ofList ('-' :: digits (n + 1))

/-! ## 2. Reading -/

/-- The value of a decimal digit. -/
def digitValue? (c : Char) : Option Nat :=
  if '0' ≤ c ∧ c ≤ '9' then some (c.toNat - 48) else none

/-- The number that digits spell after `acc` has been read; `none` at a character that is no
    digit. -/
def valueFrom (acc : Nat) : List Char → Option Nat
  | [] => some acc
  | c :: cs => (digitValue? c).bind fun d => valueFrom (acc * 10 + d) cs

/-- The number that a non-empty run of digits spells. -/
def value? (cs : List Char) : Option Nat :=
  if cs.isEmpty then none else valueFrom 0 cs

/-- Without one leading plus sign. -/
def dropPlus : List Char → List Char
  | '+' :: cs => cs
  | cs => cs

/-- An unsigned number of at most `max`. -/
def readUnsigned (max : Nat) (cs : List Char) : Option Nat :=
  (value? (dropPlus cs)).filter (· ≤ max)

/-- A signed number from `lo` to `hi`. -/
def readSigned (lo hi : Int) (cs : List Char) : Option Int :=
  let n : Option Int := match cs with
    | '-' :: r => (value? r).map fun n => -(n : Int)
    | cs => (value? (dropPlus cs)).map Int.ofNat
  n.filter fun n => lo ≤ n ∧ n ≤ hi

/-! ## 3. The ranges of machine words -/

/-- The largest 16-bit number. -/
def maxU16 : Nat := 65535

/-- The largest 32-bit number. -/
def maxU32 : Nat := 4294967295

/-- The largest 64-bit number. -/
def maxU64 : Nat := 18446744073709551615

/-- The smallest signed 32-bit number. -/
def minI32 : Int := -2147483648

/-- The largest signed 32-bit number. -/
def maxI32 : Int := 2147483647

/-- The smallest signed 64-bit number. -/
def minI64 : Int := -9223372036854775808

/-- The largest signed 64-bit number. -/
def maxI64 : Int := 9223372036854775807

end EditorBridge.Text.Numeral
