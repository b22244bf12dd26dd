import EditorBridge.Json.Basic
import EditorBridge.Number.Shortest
import EditorBridge.Text.Quoted
import EditorBridge.Text.Utf8

/-!
# JSON text

`Json.print` writes a value without spaces, members in their order. In a string only the quote, the
backslash and the controls below `20` are escaped: five of these have a letter, the others four
hexadecimal digits.
-/

namespace EditorBridge.Json

open EditorBridge.Text EditorBridge.Number

/-! ## 1. Strings -/

/-- How one character stands in a JSON string. -/
def escapeChar (c : Char) : List Char :=
  if c = '"' then ['\\', '"']
  else if c = '\\' then ['\\', '\\']
  else if c = '\n' then ['\\', 'n']
  else if c = '\r' then ['\\', 'r']
  else if c = '\t' then ['\\', 't']
  else if c = '\x08' then ['\\', 'b']
  else if c = '\x0c' then ['\\', 'f']
  else if c.toNat < 32 then
    ['\\', 'u', '0', '0', Quoted.hexDigit (c.toNat / 16), Quoted.hexDigit (c.toNat % 16)]
  else [c]

/-- A string between its quotes. -/
def stringChars (s : String) : List Char := '"' :: (s.toList.flatMap escapeChar ++ ['"'])

/-! ## 2. Values -/

mutual

/-- The text of a value, as characters. -/
def chars : Json → List Char
  | .null => ['n', 'u', 'l', 'l']
  | .bool true => ['t', 'r', 'u', 'e']
  | .bool false => ['f', 'a', 'l', 's', 'e']
  | .int n => (Numeral.ofInt n).toList
  | .float d =>
    if d.isNaN || d.isInfinite then ['n', 'u', 'l', 'l'] else (Layout.precise.text d).toList
  | .str s => stringChars s
  | .arr [] => ['[', ']']
  | .arr (x :: xs) => '[' :: (chars x ++ elementChars xs)
  | .obj [] => ['{', '}']
  | .obj ((k, v) :: ms) => '{' :: (stringChars k ++ ':' :: (chars v ++ memberChars ms))

/-- The elements after the first one, and the closing bracket. -/
def elementChars : List Json → List Char
  | [] => [']']
  | x :: xs => ',' :: (chars x ++ elementChars xs)

/-- The members after the first one, and the closing brace. -/
def memberChars : List (String × Json) → List Char
  | [] => ['}']
  | (k, v) :: ms => ',' :: (stringChars k ++ ':' :: (chars v ++ memberChars ms))

end

/-- The text of a value. -/
def print (j : Json) : String := String.ofList (chars j)

/-- The text of a value as bytes. -/
def printBytes (j : Json) : List UInt8 := Utf8.encodeChars (chars j)

end EditorBridge.Json
