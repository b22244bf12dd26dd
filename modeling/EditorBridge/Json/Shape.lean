import EditorBridge.Json.Decode

/-!
# Shapes of large records

A `Shape` describes records with many optional members of which the bridge only needs to know that they
decode and how they are written back. `Shape.normalize` does both: it refuses what does not have the
shape and leaves out what the shape does not know.
-/

namespace EditorBridge

open Decode

/-- What a value has to look like. -/
inductive Shape where
  | any
  | string
  | boolean
  | i32
  | list (element : Shape)
  /-- A record: its name, whether it may also be an array of its fields, and its fields with whether
      they are required. -/
  | record (name : String) (asArray : Bool) (fields : List (String × Bool × Shape))
  /-- The first shape of several that fits. -/
  | firstOf (name : String) (shapes : List Shape)

namespace Shape

mutual

/-- The value with everything unknown left out, or why it does not have the shape. -/
def normalize : Shape → Decoder Json
  | .any, j => .ok j
  | .string, j => (Decode.string j).map .str
  | .boolean, j => (Decode.boolean j).map .bool
  | .i32, j => (integer "i32" Text.Numeral.minI32 Text.Numeral.maxI32 j).map .int
  | .list s, j =>
    match j with
    | .arr js => (js.mapM fun x => normalize s x).map .arr
    | j => expected "a sequence" j
  | .record name asArray fields, j =>
    match j, asArray with
    | .obj ms, _ => do
      let found ← ms.mapM fun m => normalizeMember fields m.1 m.2
      let found := found.flatten
      absentRequired fields found
      return .ofMembers found
    | .arr js, true => do
      let count := Text.Numeral.ofNat fields.length
      let unit := if fields.length = 1 then " element" else " elements"
      let found ← normalizeElements ("struct " ++ name ++ " with " ++ count ++ unit) js 0 fields
      noMore js fields.length
      return .ofMembers found
    | j, _ => expected ("struct " ++ name) j
  | .firstOf name shapes, j =>
    match firstFit shapes j with
    | some r => .ok r
    | none => .error (.noVariant name)

/-- The member of a record with the given key: nothing if it is unknown or null. -/
def normalizeMember : List (String × Bool × Shape) → String → Json →
    Except DecodeError (List (String × Json))
  | [], _, _ => .ok []
  | (field, isRequired, s) :: fields, key, j =>
    if field = key then
      if !isRequired && j.isNull then .ok []
      else (normalize s j).map fun v => [(key, v)]
    else normalizeMember fields key j

/-- The fields of a record given as an array, from place `i` on. -/
def normalizeElements (shape : String) (js : List Json) :
    Nat → List (String × Bool × Shape) → Except DecodeError (List (String × Json))
  | _, [] => .ok []
  | i, (field, isRequired, s) :: fields => do
    let j ← element shape js i Decode.any
    let here ←
      if !isRequired && j.isNull then .ok []
      else (normalize s j).map fun v => [(field, v)]
    let later ← normalizeElements shape js (i + 1) fields
    return here ++ later

/-- The value in the first shape that fits. -/
def firstFit : List Shape → Json → Option Json
  | [], _ => none
  | s :: ss, j =>
    match normalize s j with
    | .ok v => some v
    | .error _ => firstFit ss j

/-- The first required field that is not there. -/
def absentRequired : List (String × Bool × Shape) → List (String × Json) → Except DecodeError Unit
  | [], _ => .ok ()
  | (field, isRequired, _) :: fields, found =>
    if isRequired && (Json.member? field found).isNone then .error (.missingField field)
    else absentRequired fields found

end

end Shape

end EditorBridge
