/-!
# UTF-8, with the place where reading fails

* `Utf8.encode` writes a text as bytes, character by character.
* `Utf8.decode` reads a whole byte list; its error holds the index of the first byte that cannot
  be read and, unless the input merely stops early, how many bytes are broken there.

The rule for the second byte of a sequence (`secondOk`) shuts out overlong forms, surrogates and
everything above `10FFFF`; the other following bytes only have to be continuation bytes.
-/

namespace EditorBridge.Text.Utf8

/-! ## 1. Writing -/

/-- The bytes of a list of characters. -/
def encodeChars (cs : List Char) : List UInt8 := cs.flatMap String.utf8EncodeChar

/-- The bytes of a text. -/
def encode (s : String) : List UInt8 := encodeChars s.toList

@[simp] theorem encodeChars_nil : encodeChars [] = [] := rfl

@[simp] theorem encodeChars_cons (c : Char) (cs : List Char) :
    encodeChars (c :: cs) = String.utf8EncodeChar c ++ encodeChars cs := rfl

/-! ## 2. The bytes of one character -/

/-- A byte that continues a sequence. -/
def isContinuation (b : UInt8) : Bool := 0x80 ≤ b && b ≤ 0xBF

/-- How many bytes follow a leading byte; `none` for a byte that leads nothing. -/
def following (b : UInt8) : Option Nat :=
  if b < 0x80 then some 0
  else if 0xC2 ≤ b && b ≤ 0xDF then some 1
  else if 0xE0 ≤ b && b ≤ 0xEF then some 2
  else if 0xF0 ≤ b && b ≤ 0xF4 then some 3
  else none

/-- Whether `c` may come second after the leading byte `b`. -/
def secondOk (b c : UInt8) : Bool :=
  if b = 0xE0 then 0xA0 ≤ c && c ≤ 0xBF
  else if b = 0xED then 0x80 ≤ c && c ≤ 0x9F
  else if b = 0xF0 then 0x90 ≤ c && c ≤ 0xBF
  else if b = 0xF4 then 0x80 ≤ c && c ≤ 0x8F
  else isContinuation c

/-- The six low bits of a continuation byte. -/
def low6 (b : UInt8) : Nat := b.toNat % 64

/-- The character of a sequence of two bytes. -/
def char₂ (b c : UInt8) : Char := Char.ofNat (b.toNat % 32 * 64 + low6 c)

/-- The character of a sequence of three bytes. -/
def char₃ (b c d : UInt8) : Char := Char.ofNat ((b.toNat % 16 * 64 + low6 c) * 64 + low6 d)

/-- The character of a sequence of four bytes. -/
def char₄ (b c d e : UInt8) : Char :=
  Char.ofNat (((b.toNat % 8 * 64 + low6 c) * 64 + low6 d) * 64 + low6 e)

/-! ## 3. Reading -/

/-- The first place where bytes stop being text: its index, and the number of broken bytes there
    (`none`: the input ends inside a character). -/
structure Broken where
  index : Nat
  length : Option Nat
  deriving Repr, DecidableEq

/-- The wording for a broken place. -/
def Broken.message (e : Broken) : String :=
  match e.length with
  | some n => s!"invalid utf-8 sequence of {n} bytes from index {e.index}"
  | none => s!"incomplete utf-8 byte sequence from index {e.index}"

/-- The characters of bytes whose first one has index `i` in the whole input. -/
def decodeFrom (i : Nat) : List UInt8 → Except Broken (List Char)
  | [] => .ok []
  | b :: r =>
    match following b with
    | none => .error ⟨i, some 1⟩
    | some 0 => (decodeFrom (i + 1) r).map (Char.ofNat b.toNat :: ·)
    | some 1 =>
      match r with
      | [] => .error ⟨i, none⟩
      | c :: r =>
        if secondOk b c then (decodeFrom (i + 2) r).map (char₂ b c :: ·)
        else .error ⟨i, some 1⟩
    | some 2 =>
      match r with
      | [] => .error ⟨i, none⟩
      | c :: r =>
        if secondOk b c then
          match r with
          | [] => .error ⟨i, none⟩
          | d :: r =>
            if isContinuation d then (decodeFrom (i + 3) r).map (char₃ b c d :: ·)
            else .error ⟨i, some 2⟩
        else .error ⟨i, some 1⟩
    | some _ =>
      match r with
      | [] => .error ⟨i, none⟩
      | c :: r =>
        if secondOk b c then
          match r with
          | [] => .error ⟨i, none⟩
          | d :: r =>
            if isContinuation d then
              match r with
              | [] => .error ⟨i, none⟩
              | e :: r =>
                if isContinuation e then (decodeFrom (i + 4) r).map (char₄ b c d e :: ·)
                else .error ⟨i, some 3⟩
            else .error ⟨i, some 2⟩
        else .error ⟨i, some 1⟩

/-- The characters of a whole byte list. -/
def decodeChars (bs : List UInt8) : Except Broken (List Char) := decodeFrom 0 bs

/-- The text that a byte list spells. -/
def decode (bs : List UInt8) : Except Broken String := (decodeChars bs).map String.ofList

/-- The text that a byte list spells, without the reason of a failure. -/
def decode? (bs : List UInt8) : Option String := (decode bs).toOption

end EditorBridge.Text.Utf8
