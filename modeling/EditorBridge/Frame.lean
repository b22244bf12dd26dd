import EditorBridge.Text.Blank
import EditorBridge.Text.Numeral
import EditorBridge.Text.Utf8

/-!
# Frames

A frame is a header and a body. The header is a run of lines, ended by a blank one; its last
`Content-Length` line holds the number of bytes of the body. `Frame.encode` writes a frame;
`Frame.read` reads one off the bytes that have arrived so far.

Blank lines before a header are passed over. A line is blank if only carriage returns stand before
its line feed. When no more bytes will come, a last line without a line feed still counts.
-/

namespace EditorBridge.Frame

open EditorBridge.Text

/-! ## 1. Writing -/

/-- The frame around a body. -/
def encode (body : List UInt8) : List UInt8 :=
  Utf8.encodeChars ("Content-Length: ".toList ++ Numeral.digits body.length ++ "\r\n\r\n".toList) ++ body

/-! ## 2. What can be wrong -/

/-- The largest body that is read. -/
def maxBodyBytes : Nat := 67108864

/-- Why a stream cannot be read on. -/
inductive Error where
  | notText (broken : Utf8.Broken)
  | badLength
  | noLength
  | tooLong (length : Nat)
  | endInHeader
  | endInBody
  deriving DecidableEq, Repr

namespace Error

/-- Whether the stream stopped too early, rather than holding something wrong. -/
def isEarlyEnd : Error → Bool
  | endInHeader => true
  | endInBody => true
  | _ => false

/-- The wording of an error. -/
def message : Error → String
  | notText broken => broken.message
  | badLength => "invalid Content-Length header"
  | noLength => "message without Content-Length header"
  | tooLong n =>
    "Content-Length " ++ Numeral.ofNat n ++ " exceeds the " ++ Numeral.ofNat maxBodyBytes ++ " byte limit"
  | endInHeader => "stream ended inside a message header"
  | endInBody => "early eof"

end Error

/-! ## 3. Header lines -/

/-- What a header line says. -/
inductive HeaderLine where
  | blank
  | length (n : Nat)
  | other
  deriving DecidableEq, Repr

/-- An ASCII letter in lower case. -/
def lowerAscii (c : Char) : Char :=
  if 'A' ≤ c ∧ c ≤ 'Z' then Char.ofNat (c.toNat + 32) else c

/-- Whether a header name, without the white space around it, is `Content-Length` in any case. -/
def isLengthName (name : List Char) : Bool :=
  (trim name).map lowerAscii == "content-length".toList

/-- What the characters of a line say. The name ends at the first colon. -/
def HeaderLine.ofChars (line : List Char) : Except Error HeaderLine :=
  let text := trimEndWhile (fun c => c == '\r' || c == '\n') line
  if text.isEmpty then .ok .blank
  else
    match text.dropWhile (· != ':') with
    | _ :: value =>
      if isLengthName (text.takeWhile (· != ':')) then
        match Numeral.readUnsigned Numeral.maxU64 (trim value) with
        | some n => .ok (.length n)
        | none => .error .badLength
      else .ok .other
    | [] => .ok .other

/-- What a line says, given by its bytes. -/
def HeaderLine.ofBytes (line : List UInt8) : Except Error HeaderLine :=
  match Utf8.decodeChars line with
  | .ok cs => ofChars cs
  | .error broken => .error (.notText broken)

/-! ## 4. Reading -/

/-- What the bytes at hand amount to. -/
inductive Step where
  /-- A whole frame; `rest` follows it. -/
  | frame (body rest : List UInt8)
  /-- Nothing is left. -/
  | finished
  /-- The frame is not complete yet. -/
  | wait
  | failed (e : Error)
  deriving DecidableEq, Repr

/-- The body, once the header is complete. `ended` tells whether no more bytes will come. -/
def readBody (ended : Bool) (length : Option Nat) (bs : List UInt8) : Step :=
  match length with
  | none => .failed .noLength
  | some n =>
    if maxBodyBytes < n then .failed (.tooLong n)
    else if n ≤ bs.length then .frame (bs.take n) (bs.drop n)
    else if ended then .failed .endInBody
    else .wait

/-- A frame, when the line `cur` (reversed) has been begun. `seen` tells whether a header line came
    before it, and `length` is the last length among those. -/
def readHeader (ended : Bool) (seen : Bool) (length : Option Nat) (cur : List UInt8) :
    List UInt8 → Step
  | [] =>
    if !ended then .wait
    else if cur.isEmpty then if seen then .failed .endInHeader else .finished
    else
      match HeaderLine.ofBytes cur.reverse with
      | .error e => .failed e
      | .ok .blank => if seen then readBody ended length [] else .finished
      | .ok _ => .failed .endInHeader
  | b :: r =>
    if b = 0x0A then
      match HeaderLine.ofBytes (b :: cur).reverse with
      | .error e => .failed e
      | .ok .blank => if seen then readBody ended length r else readHeader ended false length [] r
      | .ok (.length n) => readHeader ended true (some n) [] r
      | .ok .other => readHeader ended true length [] r
    else readHeader ended seen length (b :: cur) r

/-- One frame off the bytes that have arrived. -/
def read (ended : Bool) (bs : List UInt8) : Step := readHeader ended false none [] bs

/-! ## 5. Whole streams -/

/-- How a stream ends. -/
inductive Ending where
  | clean
  | failed (e : Error)
  /-- The last frame is not complete, and more bytes may come. -/
  | waiting
  deriving DecidableEq, Repr

/-- The bodies of all frames of a stream and its ending. Each frame takes one unit of fuel. -/
def readMany (ended : Bool) : Nat → List UInt8 → List (List UInt8) × Ending
  | 0, _ => ([], .waiting)
  | fuel + 1, bs =>
    match read ended bs with
    | .frame body rest =>
      let (bodies, ending) := readMany ended fuel rest
      (body :: bodies, ending)
    | .finished => ([], .clean)
    | .wait => ([], .waiting)
    | .failed e => ([], .failed e)

/-- The bodies of a whole stream. A frame is never empty, so that its bytes are fuel enough. -/
def readAll (bs : List UInt8) : List (List UInt8) × Ending := readMany true (bs.length + 1) bs

end EditorBridge.Frame
