import EditorBridge.Context
import EditorBridge.Protocol.Lifecycle
import EditorBridge.Protocol.Synchronization
import EditorBridge.Server.Process

/-!
# Sessions

A `Session` is one activation of the bridge: the connection to the server, the process behind it, and
the context that the features share. Each operation is one step that nothing else interrupts; a request
is made by one step and its outcome is taken up by another (`lensesArrived`, `linksArrived`,
`shutdownAnswered`), since anything may happen in between.

The effects of the context that are notifications go to the connection (`carryOut`); all effects are
handed on to the editor.
-/

namespace EditorBridge

open Rpc (CallError Connection Reply TaskState)

/-- One activation of the bridge. -/
structure Session where
  port : Nat
  context : Context
  connection : Connection
  /-- How many notifications of the server have been dispatched. -/
  dispatched : Nat
  /-- What became of the task that dispatches them. -/
  dispatcher : TaskState
  process : Supervisor
  /-- What the server said about itself in the handshake. -/
  capabilities : Json
  /-- How long the server is given to end. -/
  grace : Duration

namespace Session

/-! ## 1. Effects on the server -/

/-- What an operation of the context finds around it: the server is in reach if the connection takes
    messages. -/
def surroundings (s : Session) (env : Surroundings) : Surroundings :=
  { env with reachable := s.connection.accepts }

/-- Sends the notifications among some effects. -/
def carryOut (s : Session) (effects : List Effect) : Session :=
  effects.foldl
    (fun s e =>
      match e with
      | .notify o true => { s with connection := (s.connection.notify o.method o.params).2 }
      | _ => s)
    s

/-- Takes over a changed context and sends what it wants sent. -/
def become (s : Session) (r : Context × List Effect) : Session × List Effect :=
  ({ s with context := r.1 }.carryOut r.2, r.2)

/-! ## 2. Commands and the panel -/

/-- Runs a command. -/
def execute (s : Session) (env : Surroundings) (name : String) (arguments : List Json) :
    Session × Except CommandError (List Effect) :=
  match s.context.run (s.surroundings env) name arguments with
  | .ok effects => (s.carryOut effects, .ok effects)
  | .error e => (s, .error e)

/-- Acts on a value that the panel's script has posted. -/
def handlePanelMessage (s : Session) (env : Surroundings) (message : Json) : Session × List Effect :=
  s.become (s.context.handlePanelMessage (s.surroundings env) message)

/-- One turn of the relay of a panel. -/
def relayTurn? (s : Session) (env : Surroundings) (panel : Nat) : Option (Session × List Effect) :=
  (s.context.relayTurn? (s.surroundings env) panel).map s.become

/-- A quick pick is closed with an item, or without one. -/
def closePick? (s : Session) (number : Nat) (chosen : Option ListedCommand) :
    Option (Session × List Effect) :=
  (s.context.closePick? number chosen).map s.become

/-- Changes the highlight mode. -/
def setMode (s : Session) (mode : HighlightMode) : Session := { s with context := s.context.setMode mode }

/-! ## 3. Lenses and links -/

/-- The outcome of a request, once there is one. -/
def outcome? (s : Session) (call : Nat) : Option (Except CallError Reply) := s.connection.outcome? call

/-- Asks for the lenses of a document. -/
def askLenses (s : Session) (uri : Url) : Session × Nat :=
  let (call, c) := s.connection.request (.codeLenses uri)
  ({ s with connection := c }, call)

/-- The lenses of a reply. -/
def lensesOf : Except CallError Reply → Except CallError (List CodeLens)
  | .ok (.lenses ls) => .ok ls
  | .ok _ => .ok []
  | .error e => .error e

/-- Takes up the reply to a request for lenses. -/
def lensesArrived (s : Session) (uri : Url) (r : Except CallError Reply) :
    Session × Except CallError (List CodeLens) :=
  let (c, shown) := s.context.lensesArrived uri (lensesOf r)
  ({ s with context := c }, shown)

/-- Asks for the links of a document, if they are wanted. -/
def askLinks? (s : Session) (uri : Url) : Option (Session × Nat) :=
  if s.context.linksWanted then
    let (call, c) := s.connection.request (.documentLinks uri)
    some ({ s with connection := c }, call)
  else none

/-- The links of a reply. -/
def linksOf : Except CallError Reply → Except CallError (List DocumentLink)
  | .ok (.links ls) => .ok ls
  | .ok _ => .ok []
  | .error e => .error e

/-! ## 4. Documents -/

/-- Tells the server what happened to a document, if it is one whose text the server is told. -/
def synchronize (s : Session) (d : TextDocument) (change : DocumentChange) :
    Session × Except CallError Unit :=
  if s.context.settings.isSynchronized d then
    let (r, c) := s.connection.notify change.method (some (change.params d))
    ({ s with connection := c }, r)
  else (s, .ok ())

/-- Opens a document as an editor does: the server is told its text, then asked for its lenses. The
    result is the call of that request; none is made for a document whose text the server is not
    told. -/
def openDocument (s : Session) (d : TextDocument) (text : String) :
    Session × Except CallError (Option Nat) :=
  if s.context.settings.isSynchronized d then
    match s.synchronize d (.opened 1 text) with
    | (s, .ok ()) =>
      let (s, call) := s.askLenses d.uri
      (s, .ok (some call))
    | (s, .error e) => (s, .error e)
  else (s, .ok none)

/-! ## 5. Notifications of the server -/

/-- Dispatches the next notification, or finds that none will come. Nothing if the dispatcher cannot
    move. -/
def dispatchNext? (s : Session) (env : Surroundings) : Option (Session × List Effect) :=
  if s.dispatcher = .running then
    match s.connection.notifications[s.dispatched]? with
    | some n =>
      some ({ s with dispatched := s.dispatched + 1 }.become (s.context.dispatch (s.surroundings env) n))
    | none =>
      if s.connection.reader = .running then none
      else some ({ s with dispatcher := .ended }, Context.notificationsEnded)
  else none

/-! ## 6. The end of a session -/

/-- Begins to end the session: no notification is dispatched any more, and the server is asked to shut
    down. -/
def beginShutdown (s : Session) : Session × Nat :=
  let (call, c) := s.connection.dropReceiver.request .shutdown
  ({ s with
      connection := c
      dispatcher := if s.dispatcher = .running then .aborted else s.dispatcher }, call)

/-- Takes up the answer to the shutdown request: a server that agrees is told to end. -/
def shutdownAnswered (s : Session) (r : Except CallError Reply) : Session :=
  match r with
  | .ok _ => { s with connection := (s.connection.notify Lifecycle.exitMethod none).2 }
  | .error _ => s

/-- An event of the process or its monitor; nothing if it cannot happen. -/
def processEvent? (s : Session) (e : Supervisor.Event) : Option Session :=
  (s.process.step? e).map fun p => { s with process := p }

/-- Asks the process to end. -/
def askToEnd (s : Session) : Session := (s.processEvent? (.asks s.grace)).getD s

/-- The session is over: the connection's tasks and the panel's relay are stopped. -/
def finish (s : Session) : Session :=
  { s with
    connection := s.connection.abort
    context := { s.context with panel := s.context.panel.shutdown } }

end Session

end EditorBridge
