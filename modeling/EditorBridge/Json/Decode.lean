import EditorBridge.Json.Basic
import EditorBridge.Number.Shortest
import EditorBridge.Text.Quoted
import EditorBridge.Url.Basic

/-!
# Reading typed values out of JSON

A decoder is a function `Json → Except DecodeError α`. Records decode from an object, whose members are
looked up by name, or from an array of all fields in declaration order; unknown members are passed
over.

The first thing wrong decides the error: in an object the members present are read in the order of
their keys and missing ones are reported only after that, in declaration order; in an array the
fields are read one after another, and elements left over are reported last.
-/

namespace EditorBridge

open Text Number

/-! ## 1. Errors -/

/-- What was found where something else was expected. -/
inductive Found where
  | null
  | boolean (b : Bool)
  | integer (n : Int)
  | floating (d : Double)
  | string (s : String)
  | sequence
  | map

/-- The wording for a value found. -/
def Found.text : Found → String
  | null => "null"
  | boolean b => "boolean `" ++ (if b then "true" else "false") ++ "`"
  | integer n => "integer `" ++ Numeral.ofInt n ++ "`"
  | floating d => "floating point `" ++ Layout.precise.text d ++ "`"
  | string s => "string " ++ Quoted.quote s
  | sequence => "sequence"
  | map => "map"

/-- What a value is found to be. -/
def Found.of : Json → Found
  | .null => null
  | .bool b => boolean b
  | .int n => integer n
  | .float d => floating d
  | .str s => string s
  | .arr _ => sequence
  | .obj _ => map

/-- Why a JSON value does not decode. -/
inductive DecodeError where
  | missingField (field : String)
  | duplicateField (field : String)
  | wrongType (found : Found) (expected : String)
  | wrongValue (found : Found) (expected : String)
  | wrongLength (length : Nat) (expected : String)
  | noVariant (kind : String)
  | badUrl (cause : UrlError) (text : String)

/-- The wording of a decoding error. -/
def DecodeError.message : DecodeError → String
  | missingField f => "missing field `" ++ f ++ "`"
  | duplicateField f => "duplicate field `" ++ f ++ "`"
  | wrongType found expected => "invalid type: " ++ found.text ++ ", expected " ++ expected
  | wrongValue found expected => "invalid value: " ++ found.text ++ ", expected " ++ expected
  | wrongLength n expected => "invalid length " ++ Numeral.ofNat n ++ ", expected " ++ expected
  | noVariant kind => "data did not match any variant of untagged enum " ++ kind
  | badUrl cause t => cause.message ++ ": " ++ Quoted.quote t

/-- A reader of JSON values. -/
abbrev Decoder (α : Type) := Json → Except DecodeError α

namespace Decode

/-! ## 2. Scalars -/

/-- The error for a value of another type. -/
def expected {α : Type} (what : String) (j : Json) : Except DecodeError α :=
  .error (.wrongType (.of j) what)

/-- Any value. -/
def any : Decoder Json := .ok

/-- A string. -/
def string : Decoder String
  | .str s => .ok s
  | j => expected "a string" j

/-- A boolean. -/
def boolean : Decoder Bool
  | .bool b => .ok b
  | j => expected "a boolean" j

/-- An integer from `lo` to `hi`, called `what`. -/
def integer (what : String) (lo hi : Int) : Decoder Int
  | .int n => if lo ≤ n ∧ n ≤ hi then .ok n else .error (.wrongValue (.integer n) what)
  | j => expected what j

/-- A signed 64-bit integer. -/
def i64 : Decoder Int64 := fun j =>
  (integer "i64" Numeral.minI64 Numeral.maxI64 j).map Int64.ofInt

/-- A signed 32-bit integer. -/
def i32 : Decoder Int32 := fun j =>
  (integer "i32" Numeral.minI32 Numeral.maxI32 j).map Int32.ofInt

/-- An unsigned 32-bit integer. -/
def u32 : Decoder UInt32 := fun j =>
  (integer "u32" 0 Numeral.maxU32 j).map fun n => UInt32.ofNat n.toNat

/-- Null, for the empty result. -/
def unit : Decoder Unit
  | .null => .ok ()
  | j => expected "unit" j

/-! ## 3. Options and lists -/

/-- Null, or a value. -/
def nullable {α : Type} (read : Decoder α) : Decoder (Option α)
  | .null => .ok none
  | j => (read j).map some

/-- The elements of a list, the first error winning. -/
def elements {α : Type} (read : Decoder α) : List Json → Except DecodeError (List α)
  | [] => .ok []
  | j :: js => do
    let x ← read j
    let xs ← elements read js
    return x :: xs

/-- An array of values. -/
def list {α : Type} (read : Decoder α) : Decoder (List α)
  | .arr js => elements read js
  | j => expected "a sequence" j

/-! ## 4. Records -/

/-- A member that may be missing. -/
def present {α : Type} (ms : List (String × Json)) (field : String) (read : Decoder α) :
    Except DecodeError (Option α) :=
  match Json.member? field ms with
  | none => .ok none
  | some j => (read j).map some

/-- A member that has been looked for and must be there. -/
def required {α : Type} (field : String) : Option α → Except DecodeError α
  | some x => .ok x
  | none => .error (.missingField field)

/-- The field at place `i` of an array; `shape` names the record and how many fields it has. -/
def element {α : Type} (shape : String) (js : List Json) (i : Nat) (read : Decoder α) :
    Except DecodeError α :=
  match js[i]? with
  | none => .error (.wrongLength js.length shape)
  | some j => read j

/-- The field at place `i` of an array, or `default` when the array ends before it. -/
def elementOr {α : Type} (default : α) (js : List Json) (i : Nat) (read : Decoder α) :
    Except DecodeError α :=
  match js[i]? with
  | none => .ok default
  | some j => read j

/-- No element is left after the `n` fields. -/
def noMore (js : List Json) (n : Nat) : Except DecodeError Unit :=
  if n < js.length then .error (.wrongLength js.length "fewer elements in array") else .ok ()

/-- A record: from the members of an object, or from the elements of an array. -/
def record {α : Type} (what : String)
    (ofMembers : List (String × Json) → Except DecodeError α)
    (ofElements : List Json → Except DecodeError α) : Decoder α
  | .obj ms => ofMembers ms
  | .arr js => ofElements js
  | j => expected what j

end Decode

end EditorBridge
