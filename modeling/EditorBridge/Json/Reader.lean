import EditorBridge.Json.Source

/-!
# Reading JSON text

`Source.parse?` finds the shape of a whole text: one value with white space around it and nothing
else. `Json.parse?` also evaluates it.

The grammar is the strict one: no leading zeros, no trailing commas, no bare controls in strings.
Bytes above `7F` are taken as they are; whether they spell text is decided on evaluation.
-/

namespace EditorBridge.Json

open EditorBridge.Text

/-! ## 1. Tokens -/

/-- White space between tokens. -/
def isSpace (b : UInt8) : Bool := b = 0x20 || b = 0x09 || b = 0x0A || b = 0x0D

/-- Without leading white space. -/
def skipSpace (bs : List UInt8) : List UInt8 := bs.dropWhile isSpace

/-- The value of a hexadecimal digit of either case. -/
def hexValue? (b : UInt8) : Option Nat :=
  if 0x30 ≤ b ∧ b ≤ 0x39 then some (b.toNat - 48)
  else if 0x41 ≤ b ∧ b ≤ 0x46 then some (b.toNat - 55)
  else if 0x61 ≤ b ∧ b ≤ 0x66 then some (b.toNat - 87)
  else none

/-- The byte that a one-letter escape stands for. -/
def escaped? (b : UInt8) : Option UInt8 :=
  if b = 0x22 ∨ b = 0x5C ∨ b = 0x2F then some b
  else if b = 0x62 then some 0x08
  else if b = 0x66 then some 0x0C
  else if b = 0x6E then some 0x0A
  else if b = 0x72 then some 0x0D
  else if b = 0x74 then some 0x09
  else none

/-- The rest of a string after its opening quote, up to and without the closing one. -/
def stringRest? : List UInt8 → Option (List Piece × List UInt8)
  | [] => none
  | b :: r =>
    if b = 0x22 then some ([], r)
    else if b = 0x5C then
      match r with
      | [] => none
      | e :: r =>
        if e = 0x75 then
          match r with
          | h₁ :: h₂ :: h₃ :: h₄ :: r =>
            match hexValue? h₁, hexValue? h₂, hexValue? h₃, hexValue? h₄ with
            | some a, some b, some c, some d =>
              (stringRest? r).map fun (ps, r) => (.unit (((a * 16 + b) * 16 + c) * 16 + d) :: ps, r)
            | _, _, _, _ => none
          | _ => none
        else
          (escaped? e).bind fun x => (stringRest? r).map fun (ps, r) => (.byte x :: ps, r)
    else if b < 0x20 then none
    else (stringRest? r).map fun (ps, r) => (.byte b :: ps, r)

/-- Whether a byte is a decimal digit. -/
def isDigit (b : UInt8) : Bool := 0x30 ≤ b && b ≤ 0x39

/-- The leading decimal digits and what follows them. -/
def spanDigits (bs : List UInt8) : List Nat × List UInt8 :=
  ((bs.takeWhile isDigit).map fun b => b.toNat - 48, bs.dropWhile isDigit)

/-- The whole digits of a number: `0`, or digits that do not begin with it. -/
def wholeDigits? (bs : List UInt8) : Option (List Nat × List UInt8) :=
  match spanDigits bs with
  | ([], _) => none
  | (0 :: _ :: _, _) => none
  | r => some r

/-- The digits after a point; none when there is no point. -/
def fractionDigits? (bs : List UInt8) : Option (List Nat × List UInt8) :=
  match bs with
  | 0x2E :: r =>
    match spanDigits r with
    | ([], _) => none
    | r => some r
  | bs => some ([], bs)

/-- An exponent: whether it is negative, and its digits. -/
def exponentDigits? (bs : List UInt8) : Option (Option (Bool × List Nat) × List UInt8) :=
  let signed (minus : Bool) (r : List UInt8) :=
    match spanDigits r with
    | ([], _) => none
    | (ds, r) => some (some (minus, ds), r)
  let marked (r : List UInt8) :=
    match r with
    | 0x2D :: r => signed true r
    | 0x2B :: r => signed false r
    | r => signed false r
  match bs with
  | 0x65 :: r => marked r
  | 0x45 :: r => marked r
  | bs => some (none, bs)

/-- A number after its sign. -/
def literal? (negative : Bool) (bs : List UInt8) : Option (Literal × List UInt8) := do
  let (whole, r) ← wholeDigits? bs
  let (fraction, r) ← fractionDigits? r
  let (exponent, r) ← exponentDigits? r
  return (⟨negative, whole, fraction, exponent⟩, r)

/-- The bytes after a fixed word. -/
def afterWord? (word : List UInt8) (bs : List UInt8) : Option (List UInt8) :=
  if word.isPrefixOf bs then some (bs.drop word.length) else none

/-! ## 2. Values -/

mutual

/-- A value that starts here, after any white space. Each call and each element takes one unit of
    fuel. -/
def value? : Nat → List UInt8 → Option (Source × List UInt8)
  | 0, _ => none
  | fuel + 1, bs =>
    match skipSpace bs with
    | [] => none
    | b :: r =>
      if b = 0x6E then (afterWord? [0x75, 0x6C, 0x6C] r).map fun r => (.null, r)
      else if b = 0x74 then (afterWord? [0x72, 0x75, 0x65] r).map fun r => (.bool true, r)
      else if b = 0x66 then (afterWord? [0x61, 0x6C, 0x73, 0x65] r).map fun r => (.bool false, r)
      else if b = 0x2D then (literal? true r).map fun (l, r) => (.number l, r)
      else if isDigit b then (literal? false (b :: r)).map fun (l, r) => (.number l, r)
      else if b = 0x22 then (stringRest? r).map fun (ps, r) => (.string ps, r)
      else if b = 0x5B then
        match skipSpace r with
        | 0x5D :: r => some (.array [], r)
        | r => (elements? fuel r).map fun (xs, r) => (.array xs, r)
      else if b = 0x7B then
        match skipSpace r with
        | 0x7D :: r => some (.object [], r)
        | r => (members? fuel r).map fun (ms, r) => (.object ms, r)
      else none

/-- One or more elements and the closing bracket. -/
def elements? : Nat → List UInt8 → Option (List Source × List UInt8)
  | 0, _ => none
  | fuel + 1, bs =>
    (value? fuel bs).bind fun (x, r) =>
      match skipSpace r with
      | 0x2C :: r => (elements? fuel r).map fun (xs, r) => (x :: xs, r)
      | 0x5D :: r => some ([x], r)
      | _ => none

/-- One or more members and the closing brace. -/
def members? : Nat → List UInt8 → Option (List (List Piece × Source) × List UInt8)
  | 0, _ => none
  | fuel + 1, bs =>
    match skipSpace bs with
    | 0x22 :: r =>
      (stringRest? r).bind fun (k, r) =>
        match skipSpace r with
        | 0x3A :: r =>
          (value? fuel r).bind fun (x, r) =>
            match skipSpace r with
            | 0x2C :: r => (members? fuel r).map fun (ms, r) => ((k, x) :: ms, r)
            | 0x7D :: r => some ([(k, x)], r)
            | _ => none
        | _ => none
    | _ => none

end

/-- The shape of a whole text. Fuel of two units per byte is never used up. -/
def Source.parse? (bs : List UInt8) : Option Source :=
  match value? (2 * bs.length + 1) bs with
  | some (x, r) => if (skipSpace r).isEmpty then some x else none
  | none => none

/-- The value of a whole text. -/
def parse? (bs : List UInt8) : Option Json := (Source.parse? bs).bind (Source.eval? maxDepth)

end EditorBridge.Json
