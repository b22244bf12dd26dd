import EditorBridge.Text.Numeral

/-!
# Durations

A duration counts milliseconds. Its text uses the largest unit that leaves a whole number before the
point, and drops the zeros at the end of the fraction: `0ns`, `50ms`, `1.5s`, `30s`.
-/

namespace EditorBridge

open Text

/-- A number of milliseconds. -/
structure Duration where
  millis : Nat
  deriving DecidableEq, Repr, Inhabited

namespace Duration

/-- The three digits of a fraction of a second. -/
def fractionDigits (millis : Nat) : List Char :=
  [Numeral.digitChar (millis / 100 % 10), Numeral.digitChar (millis / 10 % 10),
    Numeral.digitChar (millis % 10)]

/-- The text of a duration. -/
def text (d : Duration) : String :=
  if d.millis = 0 then "0ns"
  else if d.millis < 1000 then Numeral.ofNat d.millis ++ "ms"
  else
    let fraction := ((fractionDigits d.millis).reverse.dropWhile (· == '0')).reverse
    let point := if fraction.isEmpty then [] else ['.']
    Numeral.ofNat (d.millis / 1000) ++ String.ofList (point ++ fraction) ++ "s"

end Duration

end EditorBridge
