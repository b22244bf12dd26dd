import EditorBridge.Url.Basic

/-!
# Hosts of URLs

The host of a special scheme is an IPv6 address in brackets, an IPv4 address (any name whose last
label is a number has to be one) or a domain name, which is put into lower case and, where it is not
ASCII, into its ASCII form. Every other scheme takes its host as it is.

Outside ASCII a domain name may hold only characters of some alphabets (`mapped?`), of which each is
valid or stands for one that is, and which do not combine. A name with any other character is refused.
-/

namespace EditorBridge.Url.Host

open EditorBridge.Text

/-! ## 1. IPv4 -/

/-- Whether a character is an ASCII digit. -/
def isDigit (c : Char) : Bool := '0' ≤ c && c ≤ '9'

/-- Whether a character is an ASCII letter. -/
def isLetter (c : Char) : Bool := ('a' ≤ c && c ≤ 'z') || ('A' ≤ c && c ≤ 'Z')

/-- The value of a digit in the given base. -/
def digitIn? (base : Nat) (c : Char) : Option Nat :=
  let v : Option Nat :=
    if isDigit c then some (c.toNat - 48)
    else if 'a' ≤ c ∧ c ≤ 'f' then some (c.toNat - 87)
    else if 'A' ≤ c ∧ c ≤ 'F' then some (c.toNat - 55)
    else none
  v.filter (· < base)

/-- The number that digits spell in a base. -/
def numberIn? (base : Nat) (cs : List Char) : Option Nat :=
  cs.foldl (fun acc c => acc.bind fun n => (digitIn? base c).map fun d => n * base + d) (some 0)

/-- One part of an IPv4 address: decimal, octal after `0` or hexadecimal after `0x`. -/
def part? : List Char → Option Nat
  | [] => none
  | '0' :: 'x' :: r => numberIn? 16 r
  | '0' :: 'X' :: r => numberIn? 16 r
  | '0' :: c :: r => numberIn? 8 (c :: r)
  | cs => numberIn? 10 cs

/-- The labels of a domain, without an empty last one. -/
def labels (cs : List Char) : List (List Char) :=
  let ls := splitAt '.' cs
  if ls.length > 1 && ls.getLast?.any List.isEmpty then ls.dropLast else ls

/-- Whether the last label is a number, so that the host must be an IPv4 address. -/
def endsInNumber (cs : List Char) : Bool :=
  match (labels cs).getLast? with
  | none => false
  | some l => (!l.isEmpty && l.all isDigit) || (part? l).isSome

/-- The address of an IPv4 host: all parts but the last are bytes, the last one fills the rest. -/
def ipv4? (cs : List Char) : Option Nat :=
  let ls := labels cs
  if ls.length > 4 then none
  else
    match (ls.map part?).foldr (fun p acc => p.bind fun n => acc.map (n :: ·)) (some []) with
    | none => none
    | some ns =>
      match ns.reverse with
      | [] => none
      | last :: firsts =>
        if firsts.any (255 < ·) || Nat.pow 256 (4 - firsts.length) ≤ last then none
        else some (firsts.reverse.zipIdx.foldl (fun acc p => acc + p.1 * Nat.pow 256 (3 - p.2)) last)

/-- An IPv4 address in dotted notation. -/
def ipv4Text (n : Nat) : String :=
  Numeral.ofNat (n / 16777216) ++ "." ++ Numeral.ofNat (n / 65536 % 256) ++ "." ++
    Numeral.ofNat (n / 256 % 256) ++ "." ++ Numeral.ofNat (n % 256)

/-! ## 2. IPv6 -/

/-- Up to four hexadecimal digits and what follows. -/
def hexPiece (cs : List Char) : Nat × Nat × List Char :=
  let ds := (cs.take 4).takeWhile fun c => (digitIn? 16 c).isSome
  ((numberIn? 16 ds).getD 0, ds.length, cs.drop ds.length)

/-- One decimal byte of an embedded IPv4 address and what follows. -/
def decimalByte? (cs : List Char) : Option (Nat × List Char) :=
  let ds := cs.takeWhile isDigit
  match ds, Numeral.value? ds with
  | '0' :: _ :: _, _ => none
  | _, some n => if n ≤ 255 then some (n, cs.drop ds.length) else none
  | _, none => none

/-- An IPv4 address at the end of an IPv6 address, as two pieces. -/
def embeddedIpv4? (cs : List Char) : Option (List Nat) := do
  let dot (cs : List Char) : Option (List Char) :=
    match cs with
    | '.' :: r => some r
    | _ => none
  let (a, r) ← decimalByte? cs
  let (b, r) ← decimalByte? (← dot r)
  let (c, r) ← decimalByte? (← dot r)
  let (d, r) ← decimalByte? (← dot r)
  if r.isEmpty then some [a * 256 + b, c * 256 + d] else none

/-- The pieces of an IPv6 address, with those before a `::` apart. `gap` tells whether one has been
    seen, and `before` and `after` hold the pieces around it, reversed. -/
def ipv6Pieces? : Nat → Option (List Nat) → List Nat → List Char → Option (Option (List Nat) × List Nat)
  | 0, _, _, _ => none
  | fuel + 1, before, now, cs =>
    let count := (before.getD []).length + now.length
    match cs with
    | [] => some (before, now)
    | ':' :: r =>
      if before.isSome || count ≥ 8 then none
      else ipv6Pieces? fuel (some now) [] r
    | cs =>
      if count ≥ 8 then none
      else
        let (n, len, r) := hexPiece cs
        match r with
        | [] => if len = 0 then none else some (before, n :: now)
        | '.' :: _ =>
          if len = 0 || count > 6 then none
          else (embeddedIpv4? cs).map fun ps => (before, ps.reverse ++ now)
        | ':' :: r =>
          if len = 0 || r.isEmpty then none else ipv6Pieces? fuel before (n :: now) r
        | _ => none

/-- The eight pieces of an IPv6 address. -/
def ipv6? (cs : List Char) : Option (List Nat) :=
  let start : Option (List Char) :=
    match cs with
    | ':' :: ':' :: r => some (':' :: r)
    | ':' :: _ => none
    | cs => some cs
  match start.bind (ipv6Pieces? (cs.length + 2) none []) with
  | none => none
  | some (none, now) => if now.length = 8 then some now.reverse else none
  | some (some before, now) =>
    let count := before.length + now.length
    if 8 < count then none
    else some (before.reverse ++ List.replicate (8 - count) 0 ++ now.reverse)

/-- The length of the run of zeros at the head. -/
def zeroRun (ps : List Nat) : Nat := (ps.takeWhile (· == 0)).length

/-- The place and length of the first longest run of zeros that is longer than one. -/
def longestZeros (ps : List Nat) : Option (Nat × Nat) :=
  (List.range ps.length).foldl
    (fun best i =>
      let n := zeroRun (ps.drop i)
      if n < 2 then best
      else
        match best with
        | some (_, m) => if m < n then some (i, n) else best
        | none => some (i, n))
    none

/-- Pieces in hexadecimal, separated by colons. -/
def piecesText (ps : List Nat) : String :=
  String.intercalate ":" (ps.map fun p => String.ofList (Nat.toDigits 16 p))

/-- An IPv6 address in brackets, its longest run of zeros left out. -/
def ipv6Text (ps : List Nat) : String :=
  match longestZeros ps with
  | some (i, n) => "[" ++ piecesText (ps.take i) ++ "::" ++ piecesText (ps.drop (i + n)) ++ "]"
  | none => "[" ++ piecesText ps ++ "]"

/-! ## 3. Domain names -/

/-- A letter of an ASCII form, by its value below 36. -/
def asciiDigit (d : Nat) : Char := if d < 26 then Char.ofNat (97 + d) else Char.ofNat (22 + d)

/-- The bias for the next number, from the distance just written. -/
def adaptLoop : Nat → Nat → Nat → Nat
  | 0, delta, k => k + 36 * delta / (delta + 38)
  | fuel + 1, delta, k =>
    if 455 < delta then adaptLoop fuel (delta / 35) (k + 36) else k + 36 * delta / (delta + 38)

/-- The bias after a distance, the first distance being damped more. -/
def adapt (delta points : Nat) (first : Bool) : Nat :=
  let d := if first then delta / 700 else delta / 2
  adaptLoop 64 (d + d / points) 0

/-- The least value that the last digit of a number does not have. -/
def threshold (bias k : Nat) : Nat := if k ≤ bias then 1 else if bias + 26 ≤ k then 26 else k - bias

/-- A number in digits whose weights follow the bias. -/
def variableDigits (bias : Nat) : Nat → Nat → Nat → List Char
  | 0, _, q => [asciiDigit q]
  | fuel + 1, k, q =>
    let t := threshold bias k
    if q < t then [asciiDigit q]
    else asciiDigit (t + (q - t) % (36 - t)) :: variableDigits bias fuel (k + 36) ((q - t) / (36 - t))

/-- The state while the characters above ASCII are written. -/
structure AsciiForm where
  delta : Nat
  bias : Nat
  handled : Nat
  first : Bool
  out : List Char

/-- Writes every occurrence of code point `n` in `cs`; the distance grows at each smaller one. -/
def AsciiForm.writePoint (n : Nat) (s : AsciiForm) (cs : List Char) : AsciiForm :=
  cs.foldl
    (fun s c =>
      if c.toNat < n then { s with delta := s.delta + 1 }
      else if c.toNat = n then
        { delta := 0
          bias := adapt s.delta (s.handled + 1) s.first
          handled := s.handled + 1
          first := false
          out := s.out ++ variableDigits s.bias 64 36 s.delta }
      else s)
    s

/-- The code points above `n` that occur, one after the other. -/
def asciiFormFrom (cs : List Char) : Nat → Nat → AsciiForm → AsciiForm
  | 0, _, s => s
  | fuel + 1, n, s =>
    match ((cs.map Char.toNat).filter (n ≤ ·)).min? with
    | none => s
    | some m =>
      let s := { s with delta := s.delta + (m - n) * (s.handled + 1) }
      let s := s.writePoint m cs
      asciiFormFrom cs fuel (m + 1) { s with delta := s.delta + 1 }

/-- The ASCII form of a label: itself, or `xn--`, its ASCII characters and the places of the others. -/
def asciiLabel (cs : List Char) : List Char :=
  if cs.all (·.toNat < 128) then cs
  else
    let basic := cs.filter (·.toNat < 128)
    let head := if basic.isEmpty then [] else basic ++ ['-']
    let s := asciiFormFrom cs cs.length 128 ⟨0, 72, basic.length, true, []⟩
    "xn--".toList ++ head ++ s.out

/-- The value of a letter of an ASCII form. -/
def asciiDigit? (c : Char) : Option Nat :=
  if 'a' ≤ c ∧ c ≤ 'z' then some (c.toNat - 97) else if isDigit c then some (c.toNat - 22) else none

/-- The state while the characters above ASCII are read. -/
structure AsciiReading where
  points : List Nat
  point : Nat
  bias : Nat
  place : Nat
  /-- The place at which the number being read began. -/
  begun : Nat
  weight : Nat
  k : Nat

/-- Reads one digit; the last one of a number puts a character at its place. -/
def AsciiReading.take? (s : AsciiReading) (c : Char) : Option AsciiReading :=
  (asciiDigit? c).map fun d =>
    let place := s.place + d * s.weight
    let t := threshold s.bias s.k
    if d < t then
      let count := s.points.length + 1
      let point := s.point + place / count
      let next := place % count + 1
      { points := s.points.insertIdx (place % count) point
        point
        bias := adapt (place - s.begun) count (s.begun == 0)
        place := next
        begun := next
        weight := 1
        k := 36 }
    else { s with place, weight := s.weight * (36 - t), k := s.k + 36 }

/-- The code points of a label whose ASCII form is `xn--` and `cs`. -/
def readAsciiForm? (cs : List Char) : Option (List Nat) :=
  let digits := (cs.reverse.takeWhile (· ≠ '-')).reverse
  let basic := (cs.take (cs.length - digits.length)).dropLast
  match digits.foldlM AsciiReading.take? ⟨basic.map Char.toNat, 128, 72, 0, 0, 1, 36⟩ with
  | some s => if s.weight = 1 then some s.points else none
  | none => none

/-- What stands for a character in a domain name; nothing for a character that none may hold here. -/
def mapped? (c : Char) : Option (List Char) :=
  let n := c.toNat
  let plus (d : Nat) : Option (List Char) := some [Char.ofNat (n + d)]
  if n < 128 then some [c.toLower]
  -- a soft hyphen is passed over
  else if n = 0xAD then some []
  -- full stops
  else if n = 0x3002 ∨ n = 0xFF0E ∨ n = 0xFF61 then some ['.']
  -- fullwidth forms of ASCII
  else if 0xFF01 ≤ n ∧ n ≤ 0xFF5E then some [(Char.ofNat (n - 0xFEE0)).toLower]
  -- Latin, Greek and Cyrillic capitals
  else if 0xC0 ≤ n ∧ n ≤ 0xDE ∧ n ≠ 0xD7 then plus 32
  else if 0x391 ≤ n ∧ n ≤ 0x3AB ∧ n ≠ 0x3A2 then plus 32
  else if 0x410 ≤ n ∧ n ≤ 0x42F then plus 32
  else if 0x400 ≤ n ∧ n ≤ 0x40F then plus 80
  -- small letters, kana, Han characters and Hangul syllables
  else if (0xDF ≤ n ∧ n ≤ 0xFF ∧ n ≠ 0xF7) ∨ (0x3AC ≤ n ∧ n ≤ 0x3CE) ∨ (0x430 ≤ n ∧ n ≤ 0x45F) ∨
      (0x3041 ≤ n ∧ n ≤ 0x3096) ∨ (0x30A1 ≤ n ∧ n ≤ 0x30FA) ∨ n = 0x30FC ∨
      (0x4E00 ≤ n ∧ n ≤ 0x9FA5) ∨ (0xAC00 ≤ n ∧ n ≤ 0xD7A3) then some [c]
  else none

/-- Whether a label that begins with `xn--` goes on with the ASCII form of one that is not ASCII. -/
def isAsciiForm (cs : List Char) : Bool :=
  match readAsciiForm? cs with
  | some points =>
    points.any (128 ≤ ·) && points.all fun n => n.isValidChar && mapped? (Char.ofNat n) == some [Char.ofNat n]
  | none => false

/-- A label of a domain name in ASCII. -/
def label? (cs : List Char) : Option (List Char) :=
  match cs with
  | 'x' :: 'n' :: '-' :: '-' :: form => if isAsciiForm form then some cs else none
  | cs => some (asciiLabel cs)

/-- The characters that no domain name holds. -/
def isForbidden (c : Char) : Bool :=
  c.toNat ≤ 0x20 || c.toNat == 0x7F || "#/:<>?@[\\]^|%".toList.contains c

/-- The ASCII form of a domain name. -/
def domain? (cs : List Char) : Except UrlError (List Char) :=
  match Utf8.decode? (Percent.decode (Utf8.encodeChars cs)) with
  | none => .error .badDomainName
  | some s =>
    let name := (s.toList.mapM mapped?).map List.flatten
    match (name.filter fun cs => !cs.any isForbidden).bind fun cs => (splitAt '.' cs).mapM label? with
    | some labels => .ok (List.intercalate ['.'] labels)
    | none => .error .badDomainName

/-! ## 4. Hosts -/

/-- An address in brackets, if the host begins with one. -/
def bracketed? : List Char → Option (Except UrlError String)
  | '[' :: r =>
    some (match r.reverse with
      | ']' :: inner =>
        match ipv6? inner.reverse with
        | some ps => .ok (ipv6Text ps)
        | none => .error .badIpv6
      | _ => .error .badIpv6)
  | _ => none

/-- The host of a special scheme. -/
def special (cs : List Char) : Except UrlError String :=
  match bracketed? cs with
  | some r => r
  | none => do
    let name ← domain? cs
    if name.isEmpty then .error .emptyHost
    else if endsInNumber name then
      match ipv4? name with
      | some n => .ok (ipv4Text n)
      | none => .error .badIpv4
    else .ok (String.ofList name)

/-- The host of any other scheme. -/
def plain (cs : List Char) : Except UrlError String :=
  match bracketed? cs with
  | some r => r
  | none =>
    if cs.any fun c => "\x00\t\n\r #/:<>?@[\\]^|".toList.contains c then .error .badHostCharacter
    else .ok (String.ofList (Percent.encode Percent.inOpaque cs))

end EditorBridge.Url.Host
