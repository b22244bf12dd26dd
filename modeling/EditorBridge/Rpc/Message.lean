import EditorBridge.Frame
import EditorBridge.Json.Printer
import EditorBridge.Json.Reader
import EditorBridge.Protocol.Execution

/-!
# Messages

A message is the JSON text inside a frame. `Message.ofBody?` decodes the members of what the server sends,
and `Message.sort` tells requests, notifications and responses apart by which of method and id are there;
a body that does not decode is no message. `Outgoing.body` writes what the bridge sends.

Of an incoming message only the five members `id`, `method`, `params`, `result` and `error` are looked
at. Each may be missing or null, which is the same, but none may come twice; a message may also be an
array of up to five elements in this order. Other members are passed over without a look at their value.
-/

namespace EditorBridge.Rpc

open Json (Source Piece stringText? maxDepth)

/-! ## 1. Identifiers and errors -/

/-- What ties a response to its request. -/
inductive MessageId where
  | number (n : Int64)
  | text (s : String)
  deriving DecidableEq, Repr

/-- The JSON form of an identifier. -/
def MessageId.toJson : MessageId → Json
  | number n => .int n.toInt
  | text s => .str s

/-- The error of a response. -/
structure ResponseError where
  code : Int64
  message : String
  data : Option Json

namespace ResponseError

/-- The name of an error code. -/
def codeName (code : Int64) : String :=
  if code = -32700 then "Parse error"
  else if code = -32600 then "Invalid request"
  else if code = -32601 then "Method not found"
  else if code = -32602 then "Invalid params"
  else if code = -32603 then "Internal error"
  else if code = -32800 then "Canceled"
  else if code = -32801 then "Content modified"
  else "Server error"

/-- The wording of an error. -/
def text (e : ResponseError) : String := codeName e.code ++ ": " ++ e.message

/-- The JSON form of an error. -/
def toJson (e : ResponseError) : Json :=
  .obj ([("code", .int e.code.toInt), ("message", .str e.message)] ++
    match e.data with
    | some d => [("data", d)]
    | none => [])

/-- The answer to a request for a method that the bridge does not have. -/
def methodNotFound : ResponseError := ⟨-32601, "Method not found", none⟩

end ResponseError

/-! ## 2. Reading a message -/

/-- The members of an incoming message as written; nothing where one is missing or null. -/
structure Envelope where
  id : Option Source
  method : Option Source
  params : Option Source
  result : Option Source
  error : Option Source

namespace Envelope

/-- No member has been seen. -/
def blank : Envelope := ⟨none, none, none, none, none⟩

/-- The names of the members, in the order of the array form. -/
def names : List String := ["id", "method", "params", "result", "error"]

/-- A member; a null stands for a missing one. -/
def value : Source → Option Source
  | .null => none
  | x => some x

/-- Puts the value of a member in its place. -/
def put (e : Envelope) (name : String) (x : Source) : Envelope :=
  if name = "id" then { e with id := value x }
  else if name = "method" then { e with method := value x }
  else if name = "params" then { e with params := value x }
  else if name = "result" then { e with result := value x }
  else if name = "error" then { e with error := value x }
  else e

/-- Reads the members of an object, none of the five names coming twice. -/
def ofMembers (seen : List String) (e : Envelope) : List (List Piece × Source) → Option Envelope
  | [] => some e
  | (k, x) :: ms =>
    match stringText? k with
    | none => none
    | some name =>
      if seen.contains name then none
      else if names.contains name then ofMembers (name :: seen) (e.put name x) ms
      else ofMembers seen e ms

/-- The members of a message. -/
def of? : Source → Option Envelope
  | .object ms => ofMembers [] blank ms
  | .array xs =>
    if names.length < xs.length then none
    else some ((names.zip xs).foldl (fun e m => e.put m.1 m.2) blank)
  | _ => none

end Envelope

/-- An identifier: an integer of 64 bits or a string. -/
def readId? (x : Source) : Option MessageId :=
  match x.eval? (maxDepth - 1) with
  | some (.int n) =>
    if Text.Numeral.minI64 ≤ n ∧ n ≤ Text.Numeral.maxI64 then some (.number (Int64.ofInt n)) else none
  | some (.str s) => some (.text s)
  | _ => none

/-- A method. -/
def readMethod? (x : Source) : Option String := (x.eval? (maxDepth - 1)).bind Json.str?

/-- Any value inside a message. -/
def readValue? (x : Source) : Option Json := x.eval? (maxDepth - 1)

/-- Reads a member if it is there. -/
def optionally {α : Type} (read : Source → Option α) : Option Source → Option (Option α)
  | none => some none
  | some x => (read x).map some

/-- The members of an error as written. -/
structure ErrorParts where
  code : Option Source
  message : Option Source
  data : Option Source

namespace ErrorParts

/-- Reads the members of an error; no other name and no name twice. -/
def ofMembers (e : ErrorParts) : List (List Piece × Source) → Option ErrorParts
  | [] => some e
  | (k, x) :: ms =>
    match stringText? k with
    | some "code" => if e.code.isSome then none else ofMembers { e with code := some x } ms
    | some "message" => if e.message.isSome then none else ofMembers { e with message := some x } ms
    | some "data" => if e.data.isSome then none else ofMembers { e with data := some x } ms
    | _ => none

/-- The members of an error: an object of code, message and perhaps data, or an array of all three. -/
def of? : Source → Option ErrorParts
  | .object ms => ofMembers ⟨none, none, none⟩ ms
  | .array [c, m, d] => some ⟨some c, some m, some d⟩
  | _ => none

/-- The error that the members make; data may be null. -/
def error? (e : ErrorParts) : Option ResponseError := do
  let code ← (← (← e.code).eval? (maxDepth - 2)).int?
  let message ← (← (← e.message).eval? (maxDepth - 2)).str?
  let data ← optionally (·.eval? (maxDepth - 2)) (e.data.bind Envelope.value)
  if Text.Numeral.minI64 ≤ code ∧ code ≤ Text.Numeral.maxI64 then
    some ⟨Int64.ofInt code, message, data⟩
  else none

end ErrorParts

/-- The error of a response. -/
def readError? (x : Source) : Option ResponseError := (ErrorParts.of? x).bind ErrorParts.error?

/-- A decoded message; nothing where a member is missing or null. -/
structure Message where
  id : Option MessageId
  method : Option String
  params : Option Json
  result : Option Json
  error : Option ResponseError

/-- The message in a body; nothing if it does not decode. -/
def Message.ofBody? (body : List UInt8) : Option Message := do
  let e ← (Source.parse? body).bind Envelope.of?
  let id ← optionally readId? e.id
  let method ← optionally readMethod? e.method
  let params ← optionally readValue? e.params
  let result ← optionally readValue? e.result
  let error ← optionally readError? e.error
  return { id, method, params, result, error }

/-- What the server sends. -/
inductive Incoming where
  | request (method : String) (id : MessageId) (params : Option Json)
  | notification (method : String) (params : Json)
  | response (id : Int64) (outcome : Except ResponseError Json)
  /-- Neither: no method, and no number for an identifier. -/
  | stray

/-- Sorts a decoded message. An error wins over a result, and a missing result is null. -/
def Message.sort (m : Message) : Incoming :=
  match m.method, m.id with
  | some method, some id => .request method id m.params
  | some method, none => .notification method (m.params.getD .null)
  | none, some (.number n) =>
    match m.error with
    | some e => .response n (.error e)
    | none => .response n (.ok (m.result.getD .null))
  | none, _ => .stray

/-- What a body holds; nothing if it does not decode. -/
def Incoming.ofBody? (body : List UInt8) : Option Incoming := (Message.ofBody? body).map Message.sort

/-! ## 3. Writing a message -/

/-- What the bridge sends. -/
inductive Outgoing where
  | request (id : Int64) (method : String) (params : Option Json)
  | notification (method : String) (params : Option Json)
  | response (id : MessageId) (outcome : Except ResponseError Json)

namespace Outgoing

/-- The version that every message carries. -/
def version : String × Json := ("jsonrpc", .str "2.0")

/-- A member that is left out when there is nothing to write. -/
def optionalMember (name : String) : Option Json → List (String × Json)
  | some j => [(name, j)]
  | none => []

/-- The JSON form of a message, members in the order in which they are written. -/
def toJson : Outgoing → Json
  | request id method params =>
    .obj ([version, ("id", .int id.toInt), ("method", .str method)] ++ optionalMember "params" params)
  | notification method params =>
    .obj ([version, ("method", .str method)] ++ optionalMember "params" params)
  | response id (.ok result) => .obj [version, ("id", id.toJson), ("result", result)]
  | response id (.error e) => .obj [version, ("id", id.toJson), ("error", e.toJson)]

/-- The body of a message. -/
def body (m : Outgoing) : List UInt8 := m.toJson.printBytes

/-- The frame of a message. -/
def frame (m : Outgoing) : List UInt8 := Frame.encode m.body

/-- The notification for the server. -/
def ofOutbound (o : Outbound) : Outgoing := notification o.method o.params

end Outgoing

/-! ## 4. Requests of the server -/

/-- The answer to a request of the server. Registrations and progress tokens are accepted, each item of
    a configuration is null, and no other method is known. -/
def answer (method : String) (params : Option Json) : Except ResponseError Json :=
  if method = "client/registerCapability" ∨ method = "client/unregisterCapability" ∨
      method = "window/workDoneProgress/create" then .ok .null
  else if method = "workspace/configuration" then
    let items := (((params.bind (Json.get? "items")).bind Json.arr?).map List.length).getD 0
    .ok (.arr (List.replicate items .null))
  else .error .methodNotFound

end EditorBridge.Rpc
