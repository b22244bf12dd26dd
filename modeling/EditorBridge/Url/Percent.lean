import EditorBridge.Text.Utf8

/-!
# Percent encoding

A byte that a part of a URL may not hold is written `%XX`. Which ASCII characters these are depends on
the part (`Percent.inPath`, `inQuery`, …); every byte above `7F` is one in each part.
-/

namespace EditorBridge.Url.Percent

open EditorBridge.Text

/-! ## 1. What is encoded where -/

/-- The controls and everything that is not ASCII. -/
def inOpaque (c : Char) : Bool := c.toNat < 0x20 || 0x7F ≤ c.toNat

/-- Encoded in a query. -/
def inQuery (c : Char) : Bool := inOpaque c || c == ' ' || c == '"' || c == '#' || c == '<' || c == '>'

/-- Encoded in the query of a special scheme. -/
def inSpecialQuery (c : Char) : Bool := inQuery c || c == '\''

/-- Encoded in a fragment. -/
def inFragment (c : Char) : Bool := inOpaque c || c == ' ' || c == '"' || c == '<' || c == '>' || c == '`'

/-- Encoded in a path. -/
def inPath (c : Char) : Bool := inFragment c || c == '#' || c == '?' || c == '\x7b' || c == '\x7d'

/-- Encoded in a user name or a password. -/
def inUserInfo (c : Char) : Bool :=
  inPath c || c == '/' || c == ':' || c == ';' || c == '=' || c == '@' || c == '[' || c == '\\' ||
    c == ']' || c == '^' || c == '|'

/-- Encoded when the name of a file becomes one segment of a path. -/
def inSegment (c : Char) : Bool := inPath c || c == '/' || c == '%' || c == '\\'

/-! ## 2. Encoding and decoding -/

/-- One upper-case hexadecimal digit. -/
def hexDigit (d : Nat) : Char := if d < 10 then Char.ofNat (48 + d) else Char.ofNat (55 + d)

/-- A byte as a percent sign and two digits. -/
def byteText (b : UInt8) : List Char := ['%', hexDigit (b.toNat / 16), hexDigit (b.toNat % 16)]

/-- The text with the characters of a set encoded. -/
def encode (set : Char → Bool) (cs : List Char) : List Char :=
  cs.flatMap fun c => if set c then (String.utf8EncodeChar c).flatMap byteText else [c]

/-- The value of a hexadecimal digit. -/
def hexValue? (b : UInt8) : Option Nat :=
  if 0x30 ≤ b ∧ b ≤ 0x39 then some (b.toNat - 48)
  else if 0x41 ≤ b ∧ b ≤ 0x46 then some (b.toNat - 55)
  else if 0x61 ≤ b ∧ b ≤ 0x66 then some (b.toNat - 87)
  else none

/-- The bytes with every `%XX` replaced; a percent sign without two digits stays. -/
def decode : List UInt8 → List UInt8
  | [] => []
  | 0x25 :: a :: b :: r =>
    match hexValue? a, hexValue? b with
    | some x, some y => UInt8.ofNat (x * 16 + y) :: decode r
    | _, _ => 0x25 :: decode (a :: b :: r)
  | b :: r => b :: decode r

end EditorBridge.Url.Percent
