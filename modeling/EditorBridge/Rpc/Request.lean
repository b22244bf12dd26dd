import EditorBridge.Protocol.Capabilities
import EditorBridge.Rpc.Message

/-!
# Requests of the bridge

The four requests that the bridge makes, their parameters, what their results decode to, and how a call
can fail.
-/

namespace EditorBridge.Rpc

open Decode

/-- A request to the server. -/
inductive Request where
  | codeLenses (uri : Url)
  | documentLinks (uri : Url)
  | handshake (params : Json)
  | shutdown

/-- What a request yields. -/
inductive Reply where
  | lenses (ls : List CodeLens)
  | links (ls : List DocumentLink)
  | handshake (result : Json)
  | done
  deriving Inhabited

/-- Why a call fails. -/
inductive CallError where
  | closed
  | malformed (method : String) (cause : DecodeError)
  | server (method : String) (error : ResponseError)

/-- The wording of a failed call. -/
def CallError.message : CallError → String
  | closed => "connection to the language server is closed"
  | malformed method cause => "malformed result for " ++ method ++ ": " ++ cause.message
  | server method e => method ++ " failed: " ++ e.text

namespace Request

/-- The method of a request. -/
def method : Request → String
  | codeLenses _ => "textDocument/codeLens"
  | documentLinks _ => "textDocument/documentLink"
  | handshake _ => "initialize"
  | shutdown => "shutdown"

/-- The parameters that name a document. -/
def documentParams (uri : Url) : Json := .obj [("textDocument", .obj [("uri", .str uri.text)])]

/-- The parameters of a request. -/
def params : Request → Option Json
  | codeLenses uri => some (documentParams uri)
  | documentLinks uri => some (documentParams uri)
  | handshake p => some p
  | shutdown => none

/-- Reads the result of a request. A null stands for an empty list. -/
def readReply : Request → Decoder Reply
  | codeLenses _, j => (nullable (list CodeLens.decode) j).map fun ls => .lenses (ls.getD [])
  | documentLinks _, j => (nullable (list DocumentLink.decode) j).map fun ls => .links (ls.getD [])
  | handshake _, j => (Capabilities.handshakeResult.normalize j).map .handshake
  | shutdown, j => (Decode.unit j).map fun _ => .done

/-- What a response means for a request. -/
def outcome (r : Request) : Except ResponseError Json → Except CallError Reply
  | .error e => .error (.server r.method e)
  | .ok j =>
    match r.readReply j with
    | .ok reply => .ok reply
    | .error cause => .error (.malformed r.method cause)

end Request

end EditorBridge.Rpc
