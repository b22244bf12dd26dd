import EditorBridge.Duration

/-!
# The port of a session

The bridge listens on a port drawn from the range for private use, and the language server connects to
it. `draw` spreads a unit interval over the range `[low, high + 1)` and clamps it into `[low, high]`,
so that rounding down gives every whole number of the range the same weight.
-/

namespace EditorBridge

open Text

namespace Port

/-- The first private port. -/
def first : Nat := 49152

/-- The last private port. -/
def last : Nat := 65535

/-- The lesser of two numbers; a NaN counts for nothing. -/
def lesser (a b : Float) : Float := if a.isNaN then b else if b.isNaN then a else if a ≤ b then a else b

/-- The greater of two numbers; a NaN counts for nothing. -/
def greater (a b : Float) : Float := if a.isNaN then b else if b.isNaN then a else if a ≤ b then b else a

/-- The number that the place `unit` of the unit interval stands for between two bounds, given in
    either order; nothing if neither bound is a number. -/
def draw? (a b unit : Float) : Option Float :=
  let low := lesser a b
  let high := greater a b
  if low.isNaN || high.isNaN then none
  else
    let value := low + unit * (high - low + 1)
    some (if value < low then low else if high < value then high else value)

/-- The port that the place `unit` of the unit interval stands for. -/
def choose (unit : Float) : Nat :=
  match draw? (Float.ofNat first) (Float.ofNat last) unit with
  | some value => max first (min last value.floor.toUInt64.toNat)
  | none => first

end Port

/-- Why no server is connected. -/
inductive TransportError where
  | listen (port : Nat) (cause : String)
  | accept (port : Nat) (cause : String)
  | noConnection (port : Nat) (waited : Duration)
  deriving DecidableEq, Repr

/-- The wording of a transport error. -/
def TransportError.message : TransportError → String
  | listen port cause => "failed to listen on 127.0.0.1:" ++ Numeral.ofNat port ++ ": " ++ cause
  | accept port cause =>
    "failed to accept the language server connection on port " ++ Numeral.ofNat port ++ ": " ++ cause
  | noConnection port waited =>
    "language server did not connect to port " ++ Numeral.ofNat port ++ " within " ++ waited.text

end EditorBridge
