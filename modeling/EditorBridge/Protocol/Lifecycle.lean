import EditorBridge.Json.Basic

/-!
# The messages that begin and end a session

The parameters of the handshake, and the two notifications that frame a session: `initialized` after the
handshake and `exit` at the end.
-/

namespace EditorBridge.Lifecycle

/-- What the bridge can do, in the terms of the protocol. -/
def clientCapabilities : Json :=
  .obj
    [("textDocument", .obj
      [("codeLens", .obj []), ("documentLink", .obj []),
        ("synchronization", .obj [("didSave", .bool true)])]),
    ("window", .obj [("workDoneProgress", .bool true)])]

/-- The name and version under which the bridge introduces itself. -/
def clientInfo : Json := .obj [("name", .str "alloy-bridge"), ("version", .str "0.1.0")]

/-- The parameters of the handshake of a process. -/
def handshakeParams (processId : Nat) : Json :=
  .obj
    [("capabilities", clientCapabilities), ("clientInfo", clientInfo), ("processId", .int processId),
      ("rootUri", .null)]

/-- The notification after the handshake. -/
def initializedMethod : String := "initialized"

/-- The parameters of the notification after the handshake. -/
def initializedParams : Option Json := some (.obj [])

/-- The notification that asks the server to end. -/
def exitMethod : String := "exit"

end EditorBridge.Lifecycle
