import EditorBridge.Document
import EditorBridge.LensCache
import EditorBridge.Panel.Bridge
import EditorBridge.Rpc.Connection
import EditorBridge.Server.Launch

/-!
# The state of a session and its features

A `Context` holds what the features of a session share: the settings, the lenses of each document, the
latest model instance, the panels and the quick picks that are open. What lies outside, the editor and
the reach of the server, is a value of `Surroundings` that an operation is given.

* `Context.run` answers a command and changes nothing in the context.
* `Context.handlePanelMessage`, `showOutput` and `offerCommands` are what the panel and the server
  cause; `dispatch` sorts the notifications of the server to them.
* `lensesArrived` and `linksWanted` are the two halves of the highlight gate.
-/

namespace EditorBridge

open Rpc (CallError Notification)

/-- What an operation finds around it. -/
structure Surroundings where
  active : Option ActiveEditor
  /-- Whether a notification to the server is accepted. -/
  reachable : Bool
  /-- Why the standalone editor does not start. -/
  editorFailure : Option LaunchError
  /-- Whether a panel takes what is posted to it. -/
  takesPost : Nat → Json → Bool

/-- What the features of a session share. -/
structure Context where
  settings : Settings
  lenses : LensCache
  /-- The link of the instance recorded last. -/
  latest : Option String
  panel : Panel.Bridge
  /-- The quick picks that are not answered. -/
  picks : List (Nat × List ListedCommand)
  /-- The number of the next quick pick. -/
  nextPick : Nat

namespace Context

/-- The state at the start of a session. -/
def start (settings : Settings) (title html : String) : Context :=
  { settings, lenses := .empty, latest := none, panel := .empty title html, picks := [], nextPick := 0 }

/-! ## 1. Reaching the server -/

/-- Sends a notification; when the server is out of reach the user is warned. -/
def send (env : Surroundings) (o : Outbound) : List Effect :=
  if env.reachable then [.notify o true]
  else
    let why := CallError.closed.message
    [.notify o false, .warn ("failed to notify the Alloy language server: " ++ why),
      .warning ("The Alloy language server is not reachable: " ++ why)]

/-- Sends a notification; a failure is only logged. -/
def sendQuietly (env : Surroundings) (purpose : String) (o : Outbound) : List Effect :=
  if env.reachable then [.notify o true]
  else [.notify o false, .warn ("failed to " ++ purpose ++ ": " ++ CallError.closed.message)]

/-! ## 2. Commands -/

/-- The active editor, if it holds a saved document in the language of the session. -/
def supportedEditor (c : Context) (env : Surroundings) : Option ActiveEditor :=
  env.active.filter fun e => c.settings.isSupported e.document

/-- What the command under the cursor does: the first fitting lens hands its command to the editor. -/
def runUnderCursor (c : Context) (e : ActiveEditor) : List Effect :=
  match (c.lenses.findAt? e.document.uri e.cursor).bind (·.command) with
  | some command => [.execute command]
  | none => [.warning noCommandUnderCursor]

/-- Opens the standalone editor, with the active document if it is supported and a file. -/
def openEditor (c : Context) (env : Surroundings) : List Effect :=
  let file := (c.supportedEditor env).bind fun e => e.document.uri.filePath?
  match env.editorFailure with
  | none => [.openEditor file true]
  | some e =>
    [.openEditor file false, .warn ("failed to open the Alloy editor: " ++ e.message),
      .error e.userMessage]

/-- What a known command does. -/
def runCommand (c : Context) (env : Surroundings) (arguments : List Json) :
    BridgeCommand → Except CommandError (List Effect)
  | .execute =>
    match ExecuteParams.decode (.arr arguments) with
    | .ok p => .ok (send env (.execute p))
    | .error cause => .error (.badArguments .execute cause)
  | .executeAll =>
    match c.supportedEditor env with
    | some e => .ok (send env (.execute (.all e.document.uri)))
    | none => .ok []
  | .list =>
    match c.supportedEditor env with
    | some e => .ok (send env (.listCommands e.document.uri.text))
    | none => .ok []
  | .executeUnderCursor =>
    match c.supportedEditor env with
    | some e => .ok (c.runUnderCursor e)
    | none => .ok []
  | .openEditor => .ok (c.openEditor env)
  | .openLatestInstance =>
    match c.latest with
    | some link => .ok (send env (.openModel link))
    | none => .ok [.warning noInstancesYet]

/-- What a command does, given by its name and arguments. -/
def run (c : Context) (env : Surroundings) (name : String) (arguments : List Json) :
    Except CommandError (List Effect) :=
  match BridgeCommand.ofName? name with
  | some command => c.runCommand env arguments command
  | none => .error (.unknown name)

/-! ## 3. The highlight gate -/

/-- A reply to a request for the lenses of a document arrives: they replace those in the cache, and are
    shown if the mode shows code lenses. -/
def lensesArrived (c : Context) (uri : Url) (reply : Except CallError (List CodeLens)) :
    Context × Except CallError (List CodeLens) :=
  match reply with
  | .ok ls =>
    ({ c with lenses := c.lenses.replace uri ls },
      .ok (if c.settings.mode.showsCodeLenses then ls else []))
  | .error e => (c, .error e)

/-- Whether document links are asked for at all. -/
def linksWanted (c : Context) : Bool := c.settings.mode.showsLinks

/-- Changes the highlight mode. -/
def setMode (c : Context) (mode : HighlightMode) : Context :=
  { c with settings := { c.settings with mode } }

/-! ## 4. Panel and instances -/

/-- Records the link of an instance. -/
def record (c : Context) (link : String) : Context := { c with latest := some link }

/-- Acts on a value that the panel's script has posted. -/
def handlePanelMessage (c : Context) (env : Surroundings) (message : Json) : Context × List Effect :=
  match PanelMessage.ofJson? message with
  | some (.model link) => (c.record link, sendQuietly env "open model" (.openModel link))
  | some (.instanceCreated link) => (c.record link, [])
  | some .stop => (c, sendQuietly env "stop execution" .stopExecution)
  | none => (c, [])

/-- Makes a panel current. -/
def ensurePanel (c : Context) : Context × Nat × List Effect :=
  let (panel, n, effects) := c.panel.ensure
  ({ c with panel }, n, effects)

/-- Posts a chunk of output, as it came, to a panel. -/
def postOutput (env : Surroundings) (n : Nat) (output : Json) : List Effect :=
  .post n output ::
    if env.takesPost n output then [] else [.warn "result panel did not accept execution output"]

/-- Makes a panel current and posts a chunk of output to it. -/
def showOutput (c : Context) (env : Surroundings) (output : Json) : Context × List Effect :=
  let (c, n, effects) := c.ensurePanel
  (c, effects ++ postOutput env n output)

/-- One turn of the relay of a panel. -/
def relayTurn? (c : Context) (env : Surroundings) (n : Nat) : Option (Context × List Effect) :=
  match c.panel.take? n with
  | none => none
  | some (panel, none) => some ({ c with panel := panel.release n }, [])
  | some (panel, some message) => some ({ c with panel }.handlePanelMessage env message)

/-! ## 5. Quick picks -/

/-- Offers the commands of a listing in a quick pick. -/
def offerCommands (c : Context) (params : Json) : Context × List Effect :=
  match CommandListing.decode params with
  | .error _ => (c, [.warn "malformed command listing"])
  | .ok listing =>
    ({ c with picks := c.picks ++ [(c.nextPick, listing.commands)], nextPick := c.nextPick + 1 },
      [.pick c.nextPick listing.commands])

/-- The items of a quick pick that is open. -/
def pickItems? (c : Context) (number : Nat) : Option (List ListedCommand) :=
  (c.picks.find? fun p => p.1 == number).map (·.2)

/-- A quick pick is closed, with the item chosen if any: the command of that item is to be run. Nothing
    if it is not open. -/
def closePick? (c : Context) (number : Nat) (chosen : Option ListedCommand) :
    Option (Context × List Effect) :=
  (c.pickItems? number).map fun _ =>
    ({ c with picks := c.picks.filter fun p => p.1 != number },
      chosen.toList.map fun item => .execute item.command)

/-! ## 6. Notifications of the server -/

/-- The level at which a message of the server is logged. -/
def messageLevel (kind : Int32) : LogLevel :=
  if kind = 1 then .error else if kind = 2 then .warn else if kind = 3 then .info else .debug

/-- Acts on a notification of the server. -/
def dispatch (c : Context) (env : Surroundings) (n : Notification) : Context × List Effect :=
  if n.method = "alloy/showExecutionOutput" then c.showOutput env n.params
  else if n.method = "alloy/commandsListResult" then c.offerCommands n.params
  else if n.method = "window/logMessage" then
    match ShownMessage.decode "LogMessageParams" n.params with
    | .ok m => (c, [.log ⟨messageLevel m.kind, m.message⟩])
    | .error _ => (c, [])
  else if n.method = "window/showMessage" then
    match ShownMessage.decode "ShowMessageParams" n.params with
    | .ok m =>
      let shown :=
        if m.kind = 1 then [.error m.message] else if m.kind = 2 then [.warning m.message] else []
      (c, .log ⟨messageLevel m.kind, m.message⟩ :: shown)
    | .error _ => (c, [])
  else (c, [])

/-- What happens when the notifications of the server have come to their end. -/
def notificationsEnded : List Effect :=
  [.warn "connection to the Alloy language server closed",
    .warning "The Alloy language server connection was closed."]

end Context

end EditorBridge
