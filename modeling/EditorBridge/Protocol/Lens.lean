import EditorBridge.Json.Decode
import EditorBridge.Url.Parse

/-!
# Positions, commands, code lenses and document links

The values that editor and language server exchange about a document. Each type has its encoder
(`toJson`, members in key order, absent options left out) beside its decoder (`decode`).
-/

namespace EditorBridge

open Decode

/-! ## 1. Positions and ranges -/

/-- A place in a document, counted from zero. -/
structure Position where
  line : UInt32
  character : UInt32
  deriving DecidableEq, Repr, Inhabited

namespace Position

/-- Earlier lines first, then earlier characters. -/
def le (p q : Position) : Bool :=
  p.line < q.line || (p.line == q.line && p.character ≤ q.character)

/-- The JSON form. -/
def toJson (p : Position) : Json :=
  .obj [("character", .int p.character.toNat), ("line", .int p.line.toNat)]

/-- Reads a position. -/
def decode : Decoder Position :=
  record "struct Position"
    (fun ms => do
      let character ← present ms "character" u32
      let line ← present ms "line" u32
      let line ← required "line" line
      let character ← required "character" character
      return { line, character })
    (fun js => do
      let shape := "struct Position with 2 elements"
      let line ← element shape js 0 u32
      let character ← element shape js 1 u32
      noMore js 2
      return { line, character })

end Position

/-- A stretch of a document, both ends included. -/
structure Range where
  start : Position
  stop : Position
  deriving DecidableEq, Repr, Inhabited

namespace Range

/-- Whether a place lies in the range. -/
def contains (r : Range) (p : Position) : Bool := r.start.le p && p.le r.stop

/-- The JSON form. -/
def toJson (r : Range) : Json := .obj [("end", r.stop.toJson), ("start", r.start.toJson)]

/-- Reads a range. -/
def decode : Decoder Range :=
  record "struct Range"
    (fun ms => do
      let stop ← present ms "end" Position.decode
      let start ← present ms "start" Position.decode
      let start ← required "start" start
      let stop ← required "end" stop
      return { start, stop })
    (fun js => do
      let shape := "struct Range with 2 elements"
      let start ← element shape js 0 Position.decode
      let stop ← element shape js 1 Position.decode
      noMore js 2
      return { start, stop })

end Range

/-! ## 2. Commands -/

/-- A command that an editor can run. -/
structure Command where
  title : String
  command : String
  arguments : Option (List Json)
  deriving Inhabited

namespace Command

/-- A member that is written only when it has a value. -/
def optionalMember (key : String) : Option Json → List (String × Json)
  | some j => [(key, j)]
  | none => []

/-- The JSON form. -/
def toJson (c : Command) : Json :=
  .obj (optionalMember "arguments" (c.arguments.map .arr) ++
    [("command", .str c.command), ("title", .str c.title)])

/-- Reads a command. -/
def decode : Decoder Command :=
  record "struct Command"
    (fun ms => do
      let arguments ← present ms "arguments" (nullable (list any))
      let command ← present ms "command" string
      let title ← present ms "title" string
      let title ← required "title" title
      let command ← required "command" command
      return { title, command, arguments := arguments.join })
    (fun js => do
      let shape := "struct Command with 3 elements"
      let title ← element shape js 0 string
      let command ← element shape js 1 string
      let arguments ← element shape js 2 (nullable (list any))
      noMore js 3
      return { title, command, arguments })

end Command

/-! ## 3. Code lenses and document links -/

/-- A command shown above a range of the document. -/
structure CodeLens where
  range : Range
  command : Option Command
  data : Option Json
  deriving Inhabited

namespace CodeLens

open Command (optionalMember)

/-- The JSON form. -/
def toJson (l : CodeLens) : Json :=
  .obj (optionalMember "command" (l.command.map Command.toJson) ++
    optionalMember "data" l.data ++ [("range", l.range.toJson)])

/-- Reads a code lens. -/
def decode : Decoder CodeLens :=
  record "struct CodeLens"
    (fun ms => do
      let command ← present ms "command" (nullable Command.decode)
      let data ← present ms "data" (nullable any)
      let range ← present ms "range" Range.decode
      let range ← required "range" range
      return { range, command := command.join, data := data.join })
    (fun js => do
      let shape := "struct CodeLens with 3 elements"
      let range ← element shape js 0 Range.decode
      let command ← element shape js 1 (nullable Command.decode)
      let data ← element shape js 2 (nullable any)
      noMore js 3
      return { range, command, data })

end CodeLens

/-- Reads a URL. -/
def Url.decode : Decoder Url
  | .str s =>
    match Url.parse s with
    | .ok u => .ok u
    | .error e => .error (.badUrl e s)
  | j => expected "a string representing an URL" j

/-- A range of the document that links somewhere. -/
structure DocumentLink where
  range : Range
  target : Option Url
  tooltip : Option String
  data : Option Json
  deriving Inhabited

namespace DocumentLink

open Command (optionalMember)

/-- The JSON form. -/
def toJson (l : DocumentLink) : Json :=
  .obj (optionalMember "data" l.data ++ [("range", l.range.toJson)] ++
    optionalMember "target" (l.target.map fun u => .str u.text) ++
    optionalMember "tooltip" (l.tooltip.map .str))

/-- Reads a document link. -/
def decode : Decoder DocumentLink :=
  record "struct DocumentLink"
    (fun ms => do
      let data ← present ms "data" (nullable any)
      let range ← present ms "range" Range.decode
      let target ← present ms "target" (nullable Url.decode)
      let tooltip ← present ms "tooltip" (nullable string)
      let range ← required "range" range
      return { range, target := target.join, tooltip := tooltip.join, data := data.join })
    (fun js => do
      let shape := "struct DocumentLink with 4 elements"
      let range ← element shape js 0 Range.decode
      let target ← element shape js 1 (nullable Url.decode)
      let tooltip ← element shape js 2 (nullable string)
      let data ← element shape js 3 (nullable any)
      noMore js 4
      return { range, target, tooltip, data })

end DocumentLink

end EditorBridge
