import EditorBridge.Document
import EditorBridge.Json.Basic
import EditorBridge.Text.Numeral

/-!
# Telling the server about documents

What happens to a document, as the notification that tells the server: its text is sent whole when the
document is opened and each time it changes.
-/

namespace EditorBridge

/-- What happens to a document. -/
inductive DocumentChange where
  | opened (version : Int32) (text : String)
  | changed (version : Int32) (text : String)
  /-- Saved, with the text if the server is to have it. -/
  | saved (text : Option String)
  | closed
  deriving DecidableEq, Repr

namespace DocumentChange

/-- The method of the notification. -/
def method : DocumentChange → String
  | opened .. => "textDocument/didOpen"
  | changed .. => "textDocument/didChange"
  | saved _ => "textDocument/didSave"
  | closed => "textDocument/didClose"

/-- The member that names a document. -/
def named (d : TextDocument) : List (String × Json) := [("uri", .str d.uri.text)]

/-- The parameters of the notification. -/
def params (d : TextDocument) : DocumentChange → Json
  | opened version text =>
    .obj
      [("textDocument", .obj
        ([("languageId", .str d.languageId), ("text", .str text)] ++ named d ++
          [("version", .int version.toInt)]))]
  | changed version text =>
    .obj
      [("contentChanges", .arr [.obj [("text", .str text)]]),
        ("textDocument", .obj (named d ++ [("version", .int version.toInt)]))]
  | saved text =>
    .obj ((text.map fun t => ("text", Json.str t)).toList ++ [("textDocument", .obj (named d))])
  | closed => .obj [("textDocument", .obj (named d))]

end DocumentChange

end EditorBridge
