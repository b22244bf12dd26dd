import EditorBridge.Json.Basic

/-!
# Messages of the result panel

The script of the panel posts objects `{method, data}`. Three methods mean something; a link has to be
a string under `data.link`. `PanelMessage.toJson` writes what `PanelMessage.ofJson?` reads.
-/

namespace EditorBridge

/-- A message that the panel's script can post. -/
inductive PanelMessage where
  | model (link : String)
  | instanceCreated (link : String)
  | stop
  deriving DecidableEq, Repr

namespace PanelMessage

/-- The link of a message. -/
def link? (j : Json) : Option String := (j.get? "data").bind fun d => (d.get? "link").bind Json.str?

/-- The meaning of a posted value, if it has one. -/
def ofJson? (j : Json) : Option PanelMessage :=
  match (j.get? "method").bind Json.str? with
  | some "model" => (link? j).map model
  | some "instanceCreated" => (link? j).map instanceCreated
  | some "stop" => some stop
  | _ => none

/-- A posted value with the given meaning. -/
def toJson : PanelMessage → Json
  | model link => .obj [("data", .obj [("link", .str link)]), ("method", .str "model")]
  | instanceCreated link =>
    .obj [("data", .obj [("link", .str link)]), ("method", .str "instanceCreated")]
  | stop => .obj [("method", .str "stop")]

end PanelMessage

end EditorBridge
