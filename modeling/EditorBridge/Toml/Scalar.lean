import EditorBridge.Toml.Value

/-!
# Reading TOML strings and numbers

Each reader takes one thing off the front of a text and yields it with the rest.

* Strings come in four kinds: between double quotes with escapes, between single quotes without, and
  either between three quotes, then over several lines. The first line break of the latter is dropped,
  and a backslash at the end of a line swallows all white space up to the next other character.
* Integers are decimal with a sign, or hexadecimal, octal or binary without one; single underscores may
  stand between digits. They have to fit 64 bits.
* A number with a fraction or an exponent is a double. One that is too large is refused; one below the
  smallest is minus infinity.
-/

namespace EditorBridge.Toml

open EditorBridge.Text EditorBridge.Number

/-! ## 1. Characters -/

/-- White space inside a line. -/
def isSpace (c : Char) : Bool := c == ' ' || c == '\t'

/-- A character that may stand in a comment or a string: no control other than the tab. -/
def isPlain (c : Char) : Bool := c == '\t' || (0x20 ≤ c.toNat && c.toNat != 0x7F)

/-- Without leading white space. -/
def skipSpace (cs : List Char) : List Char := cs.dropWhile isSpace

/-! ## 2. Escapes -/

/-- The value of a hexadecimal digit of either case. -/
def hexDigit? (c : Char) : Option Nat :=
  if '0' ≤ c ∧ c ≤ '9' then some (c.toNat - 48)
  else if 'A' ≤ c ∧ c ≤ 'F' then some (c.toNat - 55)
  else if 'a' ≤ c ∧ c ≤ 'f' then some (c.toNat - 87)
  else none

/-- The number that hexadecimal digits spell. -/
def hexNumber? (cs : List Char) : Option Nat :=
  cs.foldl (fun acc c => acc.bind fun n => (hexDigit? c).map (n * 16 + ·)) (some 0)

/-- The character with a code point given in hexadecimal; none for a surrogate or beyond the last
    character. -/
def charOfHex? (cs : List Char) : Option Char :=
  (hexNumber? cs).bind fun n => if Nat.isValidChar n then some (Char.ofNat n) else none

/-- The character that a one-letter escape stands for. -/
def escaped? (c : Char) : Option Char :=
  if c = '"' ∨ c = '\\' then some c
  else if c = 'b' then some '\x08'
  else if c = 'f' then some '\x0c'
  else if c = 'n' then some '\n'
  else if c = 'r' then some '\r'
  else if c = 't' then some '\t'
  else none

/-! ## 3. Strings on one line -/

/-- Puts a character in front of what was read. -/
def before (c : Char) (r : Option (List Char × List Char)) : Option (List Char × List Char) :=
  r.map fun (cs, r) => (c :: cs, r)

/-- The rest of a string in double quotes, after the opening quote. -/
def basicRest? : List Char → Option (List Char × List Char)
  | [] => none
  | '"' :: r => some ([], r)
  | '\\' :: 'u' :: a :: b :: c :: d :: r =>
    (charOfHex? [a, b, c, d]).bind fun x => before x (basicRest? r)
  | '\\' :: 'U' :: a :: b :: c :: d :: e :: f :: g :: h :: r =>
    (charOfHex? [a, b, c, d, e, f, g, h]).bind fun x => before x (basicRest? r)
  | '\\' :: c :: r => (escaped? c).bind fun x => before x (basicRest? r)
  | c :: r => if isPlain c then before c (basicRest? r) else none

/-- The rest of a string in single quotes, after the opening quote. -/
def literalRest? : List Char → Option (List Char × List Char)
  | [] => none
  | '\'' :: r => some ([], r)
  | c :: r => if isPlain c then before c (literalRest? r) else none

/-! ## 4. Strings over several lines -/

/-- The end of a string after three quotes: up to two more quotes still belong to it. -/
def closing (quote : Char) (r : List Char) : List Char × List Char :=
  let extra := ((r.takeWhile (· == quote)).take 2)
  (extra, r.drop extra.length)

/-- Whether a backslash followed by `cs` ends its line. -/
def endsLine (cs : List Char) : Bool :=
  match skipSpace cs with
  | '\n' :: _ => true
  | '\r' :: '\n' :: _ => true
  | _ => false

/-- The rest of a string in three double quotes. While `skipping`, white space and line breaks are
    dropped. -/
def basicLines? (skipping : Bool) : List Char → Option (List Char × List Char)
  | [] => none
  | '"' :: '"' :: '"' :: r => some (closing '"' r)
  | '\r' :: '\n' :: r => if skipping then basicLines? true r else before '\n' (basicLines? false r)
  | '\n' :: r => if skipping then basicLines? true r else before '\n' (basicLines? false r)
  | '\\' :: 'u' :: a :: b :: c :: d :: r =>
    (charOfHex? [a, b, c, d]).bind fun x => before x (basicLines? false r)
  | '\\' :: 'U' :: a :: b :: c :: d :: e :: f :: g :: h :: r =>
    (charOfHex? [a, b, c, d, e, f, g, h]).bind fun x => before x (basicLines? false r)
  | '\\' :: c :: r =>
    if endsLine (c :: r) then basicLines? true r
    else (escaped? c).bind fun x => before x (basicLines? false r)
  | c :: r =>
    if skipping && isSpace c then basicLines? true r
    else if isPlain c then before c (basicLines? false r)
    else none

/-- The rest of a string in three single quotes. -/
def literalLines? : List Char → Option (List Char × List Char)
  | [] => none
  | '\'' :: '\'' :: '\'' :: r => some (closing '\'' r)
  | '\r' :: '\n' :: r => before '\n' (literalLines? r)
  | '\n' :: r => before '\n' (literalLines? r)
  | c :: r => if isPlain c then before c (literalLines? r) else none

/-- Without one leading line break. -/
def dropBreak : List Char → List Char
  | '\n' :: r => r
  | '\r' :: '\n' :: r => r
  | r => r

/-- A string of any kind. -/
def string? : List Char → Option (List Char × List Char)
  | '"' :: '"' :: '"' :: r => basicLines? false (dropBreak r)
  | '"' :: r => basicRest? r
  | '\'' :: '\'' :: '\'' :: r => literalLines? (dropBreak r)
  | '\'' :: r => literalRest? r
  | _ => none

/-! ## 5. Integers -/

/-- Digits with single underscores between them, without the underscores. A run ends before an
    underscore that no digit follows. -/
def digitRun (isDigit : Char → Bool) : List Char → List Char × List Char
  | '_' :: c :: r =>
    if isDigit c then
      let (ds, rest) := digitRun isDigit r
      (c :: ds, rest)
    else ([], '_' :: c :: r)
  | c :: r =>
    if isDigit c then
      let (ds, rest) := digitRun isDigit r
      (c :: ds, rest)
    else ([], c :: r)
  | [] => ([], [])

/-- Digits of which the first is not an underscore. -/
def digits? (isDigit : Char → Bool) (cs : List Char) : Option (List Char × List Char) :=
  match cs with
  | c :: _ => if isDigit c then some (digitRun isDigit cs) else none
  | [] => none

/-- A sign, if there is one, and what follows: whether it is a minus. -/
def sign (cs : List Char) : Bool × List Char :=
  match cs with
  | '+' :: r => (false, r)
  | '-' :: r => (true, r)
  | r => (false, r)

/-- Decimal digits without a leading zero, or a single zero. -/
def decimal? (cs : List Char) : Option (List Char × List Char) :=
  match cs with
  | '0' :: r => some (['0'], r)
  | cs => digits? Char.isDigit cs

/-- The number that digits spell in a base of at most sixteen. -/
def numberIn (base : Nat) (cs : List Char) : Nat :=
  cs.foldl (fun n c => n * base + (hexDigit? c).getD 0) 0

/-- An integer in another base than ten, after its mark. -/
def based? (base : Nat) (cs : List Char) : Option (Int × List Char) :=
  (digits? (fun c => (hexDigit? c).any (· < base)) cs).bind fun (ds, r) =>
    if numberIn base ds ≤ 9223372036854775807 then some (numberIn base ds, r) else none

/-- An integer. -/
def integer? (cs : List Char) : Option (Int × List Char) :=
  match cs with
  | '0' :: 'x' :: r => based? 16 r
  | '0' :: 'o' :: r => based? 8 r
  | '0' :: 'b' :: r => based? 2 r
  | cs =>
    let (minus, r) := sign cs
    (decimal? r).bind fun (ds, r) =>
      let n : Int := if minus then -(numberIn 10 ds : Int) else numberIn 10 ds
      if Numeral.minI64 ≤ n ∧ n ≤ Numeral.maxI64 then some (n, r) else none

/-! ## 6. Doubles -/

/-- The digits after a point. -/
def fractionDigits? (cs : List Char) : Option (List Char × List Char) :=
  match cs with
  | '.' :: r => digits? Char.isDigit r
  | _ => none

/-- An exponent after its mark. -/
def exponent? (cs : List Char) : Option (Int × List Char) :=
  let rest (r : List Char) :=
    let (minus, r) := sign r
    (digits? Char.isDigit r).map fun (ds, r) =>
      ((if minus then -(numberIn 10 ds : Int) else (numberIn 10 ds : Int)), r)
  match cs with
  | 'e' :: r => rest r
  | 'E' :: r => rest r
  | _ => none

/-- What follows a word. -/
def afterWord? (word cs : List Char) : Option (List Char) :=
  if word.isPrefixOf cs then some (cs.drop word.length) else none

/-- Infinity or the value that is no number, after a sign. -/
def special? (minus : Bool) (cs : List Char) : Option (Double × List Char) :=
  match afterWord? ['i', 'n', 'f'] cs with
  | some r => some (Double.infinity minus, r)
  | none => (afterWord? ['n', 'a', 'n'] cs).map fun r => (Double.nan, r)

/-- A number with a fraction, an exponent or both. -/
def pointed? (minus : Bool) (cs : List Char) : Option (Double × List Char) := do
  let (whole, r) ← decimal? cs
  let value (fraction : List Char) (e : Int) (r : List Char) : Option (Double × List Char) :=
    let d := Double.ofDecimal minus (numberIn 10 (whole ++ fraction)) (e - fraction.length)
    if d = Double.infinity false then none else some (d, r)
  match exponent? r with
  | some (e, r) => value [] e r
  | none =>
    let (fraction, r) ← fractionDigits? r
    match exponent? r with
    | some (e, r) => value fraction e r
    | none => value fraction 0 r

/-- A double. -/
def real? (cs : List Char) : Option (Double × List Char) :=
  let (minus, r) := sign cs
  match pointed? minus r with
  | some x => some x
  | none => special? minus r

/-! ## 7. Scalars -/

/-- A value that is neither an array nor a table. A date begins like a number and a number with a point
    begins like an integer, so the longer readings are tried first. -/
def scalar? (cs : List Char) : Option (Value × List Char) :=
  match string? cs with
  | some (s, r) => some (.text (String.ofList s), r)
  | none =>
    match Datetime.read? cs with
    | some (t, r) => some (.moment t, r)
    | none =>
      match real? cs with
      | some (d, r) => some (.real d, r)
      | none =>
        match integer? cs with
        | some (n, r) => some (.integer n, r)
        | none =>
          match afterWord? ['t', 'r', 'u', 'e'] cs with
          | some r => some (.truth true, r)
          | none => (afterWord? ['f', 'a', 'l', 's', 'e'] cs).map fun r => (.truth false, r)

end EditorBridge.Toml
