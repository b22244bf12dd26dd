import EditorBridge.Config.Basic
import EditorBridge.Panel.Html
import EditorBridge.Server.Port
import EditorBridge.Session.Basic

/-!
# Activating a session

`activate` goes through the stages of an activation: the panel's document is read, a port is listened on,
the server is launched, its connection is awaited, and the handshake is made. Each stage can fail. What
an activation does to the world on the way is a list of `ActivationStep`s; a failure after the launch
ends the process before the activation returns, and one of the handshake cuts off the connection first.
-/

namespace EditorBridge

open Rpc (CallError Connection)

/-! ## 1. What an activation meets -/

/-- What the server's end of the connection does during the handshake. -/
inductive PeerAct where
  | sends (bs : List UInt8)
  | hangsUp
  | deafens

/-- How waiting for the server's connection ends. -/
inductive Acceptance where
  | connected
  | failed (cause : String)
  | nobody
  deriving DecidableEq, Repr

/-- The world around an activation. -/
structure World where
  /-- The text of a file, or why it cannot be read. -/
  fileText : String → Except String String
  /-- The port drawn for the session. -/
  port : Nat
  /-- Why the port cannot be listened on. -/
  listenFailure : Option String
  /-- Why the server cannot be launched. -/
  launchFailure : Option LaunchError
  acceptance : Acceptance
  /-- The identifier of the bridge's own process. -/
  processId : Nat
  /-- What the peer does before the time for the handshake is over. -/
  peer : List PeerAct

/-! ## 2. What can go wrong -/

/-- Why a session is not activated. -/
inductive SessionError where
  | panelDocument (path cause : String)
  | transport (cause : TransportError)
  | launch (cause : LaunchError)
  | handshakeTimeout (limit : Duration)
  | handshake (cause : CallError)

/-- The wording of an error. -/
def SessionError.message : SessionError → String
  | panelDocument path cause => "failed to read the panel document " ++ path ++ ": " ++ cause
  | transport cause => cause.message
  | launch cause => cause.message
  | handshakeTimeout limit => "the language server did not answer `initialize` within " ++ limit.text
  | handshake cause => "`initialize` failed: " ++ cause.message

/-- What an activation does to the world. -/
inductive ActivationStep where
  /-- The server is launched and told the port. -/
  | launched (port : Nat)
  /-- The user is shown an error. -/
  | shown (message : String)
  /-- The tasks of the connection are stopped. -/
  | cutOff
  /-- The process is ended, with this grace. -/
  | terminated (grace : Duration)
  deriving DecidableEq, Repr

/-- What an activation did, and what came of it. -/
structure Activation where
  steps : List ActivationStep
  outcome : Except SessionError Session

namespace Activation

/-! ## 3. The stages -/

/-- The document of the panel: the file that the configuration names, or the built-in one. -/
def panelDocument (config : Config) (w : World) : Except SessionError String :=
  match config.panel.html with
  | none => .ok Panel.html
  | some path =>
    match w.fileText path with
    | .ok text => .ok text
    | .error cause => .error (.panelDocument path cause)

/-- The connection after an act of the peer. -/
def receive (c : Connection) : PeerAct → Connection
  | .sends bs => (c.receive bs).settle
  | .hangsUp => c.hangUp.settle
  | .deafens => c.deafen.settle

/-- The connection once a request has completed, or after all acts of the peer. -/
def await (call : Nat) (c : Connection) : List PeerAct → Connection
  | [] => c
  | act :: acts => if (c.outcome? call).isSome then c else await call (receive c act) acts

/-- The handshake on a fresh connection: the connection after it, and what the server said about itself.
    When the time is over without an answer, that is an error of its own. -/
def handshake (limit : Duration) (w : World) : Connection × Except SessionError Json :=
  let (call, c) := Connection.start.request (.handshake (Lifecycle.handshakeParams w.processId))
  let c := await call c.settle w.peer
  match c.outcome? call with
  | none => (c, .error (.handshakeTimeout limit))
  | some (.error cause) => (c, .error (.handshake cause))
  | some (.ok reply) =>
    match c.notify Lifecycle.initializedMethod Lifecycle.initializedParams with
    | (.error cause, c) => (c, .error (.handshake cause))
    | (.ok (), c) =>
      let result := match reply with
        | .handshake result => result
        | _ => .null
      (c, .ok ((result.get? "capabilities").getD .null))

/-- What the user is told when an activation fails after the launch. -/
def complaint (e : SessionError) : ActivationStep :=
  .shown ("The Alloy language server did not start: " ++ e.message)

/-- An activation that fails before there is a connection. -/
def unconnected (config : Config) (w : World) (e : SessionError) : Activation :=
  ⟨[.launched w.port, complaint e, .terminated config.server.shutdownGrace], .error e⟩

/-- An activation whose handshake fails; the connection is cut off before the process is ended. -/
def unanswered (config : Config) (w : World) (e : SessionError) : Activation :=
  ⟨[.launched w.port, complaint e, .cutOff, .terminated config.server.shutdownGrace], .error e⟩

/-- The session after a handshake. -/
def session (config : Config) (w : World) (html : String) (c : Connection) (capabilities : Json) :
    Session :=
  { port := w.port
    context := .start ⟨config.editor.languageId, config.editor.highlightMode⟩ config.panel.title html
    connection := c
    dispatched := 0
    dispatcher := .running
    process := .start
    capabilities
    grace := config.server.shutdownGrace }

/-- The activation of a connected server. -/
def connected (config : Config) (w : World) (html : String) : Activation :=
  match handshake config.server.acceptTimeout w with
  | (_, .error e) => unanswered config w e
  | (c, .ok capabilities) => ⟨[.launched w.port], .ok (session config w html c capabilities)⟩

/-- The activation of a server that has been launched. -/
def launched (config : Config) (w : World) (html : String) : Activation :=
  match w.acceptance with
  | .connected => connected config w html
  | .failed cause => unconnected config w (.transport (.accept w.port cause))
  | .nobody => unconnected config w (.transport (.noConnection w.port config.server.acceptTimeout))

end Activation

/-- Activates a session. -/
def activate (config : Config) (w : World) : Activation :=
  match Activation.panelDocument config w with
  | .error e => ⟨[], .error e⟩
  | .ok html =>
    match w.listenFailure with
    | some cause => ⟨[], .error (.transport (.listen w.port cause))⟩
    | none =>
      match w.launchFailure with
      | some e => ⟨[.shown e.userMessage], .error (.launch e)⟩
      | none => Activation.launched config w html

end EditorBridge
