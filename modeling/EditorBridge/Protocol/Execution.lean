import EditorBridge.Protocol.Lens

/-!
# Running commands of a model

What the bridge tells the server (`Outbound`) and what the server reports back: chunks of output
(`ExecutionOutput`) and the commands of a document (`CommandListing`).
-/

namespace EditorBridge

open Decode

/-! ## 1. From the bridge to the server -/

/-- The index that stands for every command of a document. -/
def allCommands : Int64 := -1

/-- Which command of which document to run, and from which place. It travels as an array of its four
    parts. -/
structure ExecuteParams where
  uri : String
  index : Int64
  line : UInt32
  character : UInt32
  deriving DecidableEq, Repr

namespace ExecuteParams

/-- All commands of a document. -/
def all (uri : Url) : ExecuteParams := ⟨uri.text, allCommands, 0, 0⟩

/-- The JSON form. -/
def toJson (p : ExecuteParams) : Json :=
  .arr [.str p.uri, .int p.index.toInt, .int p.line.toNat, .int p.character.toNat]

/-- Reads parameters; nothing but an array of four will do. -/
def decode : Decoder ExecuteParams
  | .arr js => do
    let shape := "tuple struct ExecuteParams with 4 elements"
    let uri ← element shape js 0 string
    let index ← element shape js 1 i64
    let line ← element shape js 2 u32
    let character ← element shape js 3 u32
    noMore js 4
    return { uri, index, line, character }
  | j => expected "tuple struct ExecuteParams" j

end ExecuteParams

/-- A notification to the server. -/
inductive Outbound where
  | execute (params : ExecuteParams)
  | listCommands (uri : String)
  | openModel (link : String)
  | stopExecution
  deriving DecidableEq, Repr

namespace Outbound

/-- The method that carries a notification. -/
def method : Outbound → String
  | execute _ => "ExecuteAlloyCommand"
  | listCommands _ => "ListAlloyCommands"
  | openModel _ => "OpenModel"
  | stopExecution => "StopExecution"

/-- The parameters of a notification; stopping has none. -/
def params : Outbound → Option Json
  | execute p => some p.toJson
  | listCommands uri => some (.str uri)
  | openModel link => some (.str link)
  | stopExecution => none

end Outbound

/-! ## 2. From the server to the bridge -/

/-- One chunk of output for the result panel. -/
structure ExecutionOutput where
  message : String
  messageType : Int64
  bold : Bool
  deriving DecidableEq, Repr

namespace ExecutionOutput

/-- The JSON form. -/
def toJson (o : ExecutionOutput) : Json :=
  .obj [("bold", .bool o.bold), ("message", .str o.message), ("messageType", .int o.messageType.toInt)]

/-- Reads a chunk; it is not bold unless it says so. -/
def decode : Decoder ExecutionOutput :=
  record "struct ExecutionOutput"
    (fun ms => do
      let bold ← present ms "bold" boolean
      let message ← present ms "message" string
      let messageType ← present ms "messageType" i64
      let message ← required "message" message
      let messageType ← required "messageType" messageType
      return { message, messageType, bold := bold.getD false })
    (fun js => do
      let shape := "struct ExecutionOutput with 3 elements"
      let message ← element shape js 0 string
      let messageType ← element shape js 1 i64
      let bold ← elementOr false js 2 boolean
      noMore js 3
      return { message, messageType, bold })

end ExecutionOutput

/-- A command that the server offers. -/
structure ListedCommand where
  title : String
  command : Command
  deriving Inhabited

namespace ListedCommand

/-- The JSON form. -/
def toJson (c : ListedCommand) : Json :=
  .obj [("command", c.command.toJson), ("title", .str c.title)]

/-- Reads an offered command. -/
def decode : Decoder ListedCommand :=
  record "struct ListedCommand"
    (fun ms => do
      let command ← present ms "command" Command.decode
      let title ← present ms "title" string
      let title ← required "title" title
      let command ← required "command" command
      return { title, command })
    (fun js => do
      let shape := "struct ListedCommand with 2 elements"
      let title ← element shape js 0 string
      let command ← element shape js 1 Command.decode
      noMore js 2
      return { title, command })

end ListedCommand

/-- The commands of a document. -/
structure CommandListing where
  commands : List ListedCommand
  deriving Inhabited

namespace CommandListing

/-- The JSON form. -/
def toJson (l : CommandListing) : Json :=
  .obj [("commands", .arr (l.commands.map ListedCommand.toJson))]

/-- Reads a listing. -/
def decode : Decoder CommandListing :=
  record "struct CommandListing"
    (fun ms => do
      let commands ← present ms "commands" (list ListedCommand.decode)
      let commands ← required "commands" commands
      return { commands })
    (fun js => do
      let commands ← element "struct CommandListing with 1 element" js 0 (list ListedCommand.decode)
      noMore js 1
      return { commands })

end CommandListing

/-- A message of the server for its user or its log. -/
structure ShownMessage where
  kind : Int32
  message : String
  deriving DecidableEq, Repr

namespace ShownMessage

/-- Reads a message; `what` is the name of the record in errors. -/
def decode (what : String) : Decoder ShownMessage :=
  record ("struct " ++ what)
    (fun ms => do
      let message ← present ms "message" string
      let kind ← present ms "type" i32
      let kind ← required "type" kind
      let message ← required "message" message
      return { kind, message })
    (fun js => do
      let shape := "struct " ++ what ++ " with 2 elements"
      let kind ← element shape js 0 i32
      let message ← element shape js 1 string
      noMore js 2
      return { kind, message })

end ShownMessage

end EditorBridge
