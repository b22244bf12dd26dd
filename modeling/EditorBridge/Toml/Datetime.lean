import EditorBridge.Text.Numeral

/-!
# Dates and times

A moment is a date, a time of day, or both, with an offset from universal time if both are there.
`Datetime.read?` takes one off the front of a text; `Datetime.text` writes it in the one normal form: a
`T` between the two parts, no zeros at the end of a fraction, `Z` or a signed offset.
-/

namespace EditorBridge.Toml

open EditorBridge.Text

/-! ## 1. Moments -/

/-- A day of the calendar. -/
structure Date where
  year : Nat
  month : Nat
  day : Nat
  deriving DecidableEq, Repr

/-- A time of day, to the nanosecond. -/
structure Clock where
  hour : Nat
  minute : Nat
  second : Nat
  nanosecond : Nat
  deriving DecidableEq, Repr

/-- How far local time is from universal time. -/
inductive Offset where
  | utc
  | minutes (n : Int)
  deriving DecidableEq, Repr

/-- A date, a time, or both. -/
inductive Datetime where
  | date (d : Date)
  | time (t : Clock)
  | both (d : Date) (t : Clock) (offset : Option Offset)
  deriving DecidableEq, Repr

/-! ## 2. Writing -/

/-- At least `width` digits. -/
def padded (width n : Nat) : List Char :=
  List.replicate (width - (Numeral.digits n).length) '0' ++ Numeral.digits n

/-- `1979-05-27`. -/
def Date.chars (d : Date) : List Char := padded 4 d.year ++ '-' :: padded 2 d.month ++ '-' :: padded 2 d.day

/-- `07:32:00.5`. -/
def Clock.chars (t : Clock) : List Char :=
  let fraction :=
    if t.nanosecond = 0 then []
    else '.' :: ((padded 9 t.nanosecond).reverse.dropWhile (· == '0')).reverse
  padded 2 t.hour ++ ':' :: padded 2 t.minute ++ ':' :: padded 2 t.second ++ fraction

/-- `Z` or `+01:30`. -/
def Offset.chars : Offset → List Char
  | utc => ['Z']
  | minutes n =>
    (if n < 0 then '-' else '+') :: padded 2 (n.natAbs / 60) ++ ':' :: padded 2 (n.natAbs % 60)

/-- The text of a moment. -/
def Datetime.text : Datetime → String
  | date d => String.ofList d.chars
  | time t => String.ofList t.chars
  | both d t offset => String.ofList (d.chars ++ 'T' :: t.chars ++ (offset.map Offset.chars).getD [])

/-! ## 3. Reading -/

/-- A number of exactly `count` digits that lies between `lo` and `hi`. -/
def fixed? (count lo hi : Nat) (cs : List Char) : Option (Nat × List Char) :=
  if (cs.take count).length = count then
    match Numeral.value? (cs.take count) with
    | some n => if lo ≤ n ∧ n ≤ hi then some (n, cs.drop count) else none
    | none => none
  else none

/-- What follows a given character. -/
def after? (c : Char) : List Char → Option (List Char)
  | [] => none
  | d :: r => if d = c then some r else none

/-- Whether February has a 29th day. -/
def isLeap (year : Nat) : Bool := year % 4 == 0 && (year % 100 != 0 || year % 400 == 0)

/-- The number of days in a month. -/
def daysIn (year month : Nat) : Nat :=
  if month = 2 then if isLeap year then 29 else 28
  else if month = 4 ∨ month = 6 ∨ month = 9 ∨ month = 11 then 30
  else 31

/-- A date that exists. -/
def Date.read? (cs : List Char) : Option (Date × List Char) := do
  let (year, r) ← fixed? 4 0 9999 cs
  let (month, r) ← fixed? 2 1 12 (← after? '-' r)
  let (day, r) ← fixed? 2 1 (daysIn year month) (← after? '-' r)
  return (⟨year, month, day⟩, r)

/-- The billionths that the digits of a fraction stand for; digits after the ninth do not count. -/
def nanoseconds (ds : List Char) : Nat :=
  let kept := ds.take 9
  (Numeral.value? kept).getD 0 * Nat.pow 10 (9 - kept.length)

/-- A fraction of a second after its point; zero where there is none. -/
def fraction? (cs : List Char) : Nat × List Char :=
  match cs with
  | '.' :: r =>
    if (r.takeWhile Char.isDigit).isEmpty then (0, cs)
    else (nanoseconds (r.takeWhile Char.isDigit), r.dropWhile Char.isDigit)
  | cs => (0, cs)

/-- A time of day. The second 60 is a leap second. -/
def Clock.read? (cs : List Char) : Option (Clock × List Char) := do
  let (hour, r) ← fixed? 2 0 23 cs
  let (minute, r) ← fixed? 2 0 59 (← after? ':' r)
  let (second, r) ← fixed? 2 0 60 (← after? ':' r)
  let (nanosecond, r) := fraction? r
  return (⟨hour, minute, second, nanosecond⟩, r)

/-- An offset, if there is one here. -/
def Offset.read? (cs : List Char) : Option (Offset × List Char) :=
  let shift (sign : Int) (r : List Char) := do
    let (hour, r) ← fixed? 2 0 23 r
    let (minute, r) ← fixed? 2 0 59 (← after? ':' r)
    return (Offset.minutes (sign * (hour * 60 + minute : Nat)), r)
  match cs with
  | 'Z' :: r => some (.utc, r)
  | 'z' :: r => some (.utc, r)
  | '+' :: r => shift 1 r
  | '-' :: r => shift (-1) r
  | _ => none

/-- A moment that starts here. -/
def Datetime.read? (cs : List Char) : Option (Datetime × List Char) :=
  match Date.read? cs with
  | none => (Clock.read? cs).map fun (t, r) => (.time t, r)
  | some (d, r) =>
    let clock : Option (Clock × List Char) := match r with
      | c :: r => if c = 'T' ∨ c = 't' ∨ c = ' ' then Clock.read? r else none
      | [] => none
    match clock with
    | none => some (.date d, r)
    | some (t, r) =>
      match Offset.read? r with
      | some (o, r) => some (.both d t (some o), r)
      | none => some (.both d t none, r)

end EditorBridge.Toml
