import EditorBridge.Session.Activation
import EditorBridge.Terminal.Host
import EditorBridge.Terminal.Line

/-!
# A session at the terminal

An `Interaction` is a running session with the terminal as its editor: a document may be open, lines are
typed, and the server, the panel and the process go their own ways. It is an automaton (`step?`): an
event is one turn of one of the parts, and any order of events is a possible run.

* A typed line goes to the quick pick that is pending, else it is a command (`takeLine`). A command that
  needs an answer of the server (`lenses`, `links`) keeps the loop from taking anything else until then.
* Commands that the editor is asked to run wait in a queue; the loop takes them one by one
  (`takeCommand`).
* The loop ends with `quit` or with the input. Then the document is closed and the session ended.
-/

namespace EditorBridge.Terminal

open Rpc (CallError)

/-! ## 1. States -/

/-- What the main task is doing. -/
inductive Stage where
  /-- It waits for the first lenses of the document. -/
  | opening (call : Nat)
  /-- It waits for a line or a command. -/
  | prompt
  /-- It waits for lenses to print. -/
  | lenses (call : Nat) (uri : Url)
  /-- It waits for links to print. -/
  | links (call : Nat)
  /-- It waits for the server to agree to the end. -/
  | leaving (call : Nat)
  /-- It waits for the process to end. -/
  | ending
  | over
  deriving DecidableEq, Repr

/-- A running session with the terminal as its editor. -/
structure Interaction where
  session : Session
  host : Host
  /-- The document that was opened at the start. -/
  model : Option TextDocument
  /-- Why the standalone editor does not start here. -/
  editorFailure : Option LaunchError
  stage : Stage
  /-- Why the input could not be read. -/
  inputFailure : Option String
  /-- What has been printed so far. -/
  printed : List Output

/-- What can happen. -/
inductive Event where
  /-- The server sends bytes. -/
  | sends (bs : List UInt8)
  | hangsUp
  | deafens
  /-- The connection reads a frame that has arrived. -/
  | reads
  /-- The connection writes a frame. -/
  | writes
  /-- The next notification of the server is dispatched. -/
  | dispatches
  /-- The relay of a panel takes an event. -/
  | relays (panel : Nat)
  /-- The loop takes a typed line. -/
  | line (text : String)
  | inputEnds
  | inputFails (cause : String)
  /-- The loop takes a queued command. -/
  | command
  /-- The main task takes up the outcome that it waits for. -/
  | resumes
  /-- The server has not answered the request to shut down in time. -/
  | patienceEnds
  | process (e : Supervisor.Event)
  /-- The process has ended. -/
  | finishes

namespace Interaction

/-! ## 2. Printing and effects -/

/-- Prints something. -/
def print (i : Interaction) (os : List Output) : Interaction := { i with printed := i.printed ++ os }

/-- Prints a line on the error output. -/
def complain (i : Interaction) (message : String) : Interaction := i.print [errLine message]

/-- What an operation of the session finds around it. -/
def surroundings (i : Interaction) : Surroundings :=
  { active := i.host.active, reachable := i.session.connection.accepts
    editorFailure := i.editorFailure, takesPost := fun _ message => Host.canPrint message }

/-- Queues the commands among some effects. -/
def queueCommands (i : Interaction) (effects : List Effect) : Interaction :=
  effects.foldl
    (fun i e =>
      match e with
      | .execute c => { i with host := i.host.execute c }
      | _ => i)
    i

/-- A quick pick is closed; its command, if one was chosen, goes into the queue. -/
def closePick (i : Interaction) (p : Host.Picked) : Interaction :=
  match i.session.closePick? p.1 p.2 with
  | some (s, effects) => { i with session := s }.queueCommands effects
  | none => i

/-- Opens the quick pick with a number. -/
def openPick (i : Interaction) (number : Nat) (items : List ListedCommand) : Interaction :=
  let (host, printed, closed) := { i.host with nextPick := number }.pick items pickPlaceholder
  closed.foldl closePick ({ i with host }.print printed)

/-- Creates a panel. The panels before it get no more messages of the user. -/
def createPanel (i : Interaction) (n : Nat) (title : String) : Interaction :=
  let panel := (List.range n).foldl Panel.Bridge.close i.session.context.panel
  { i with
    host := i.host.createPanel title
    session := { i.session with context := { i.session.context with panel } } }

/-- Shows one effect at the terminal. -/
def present (i : Interaction) : Effect → Interaction
  | .warning m => i.print [.err (warningLine m)]
  | .error m => i.print [.err (errorLine m)]
  | .pick n items => i.openPick n items
  | .execute c => { i with host := i.host.execute c }
  | .createPanel n title _ => i.createPanel n title
  | .reveal n =>
    let (host, printed) := i.host.reveal n
    { i with host }.print printed
  | .post _ message => i.print (Host.post message)
  | _ => i

/-- Takes over a changed session and shows the effects. -/
def become (i : Interaction) (r : Session × List Effect) : Interaction :=
  r.2.foldl present { i with session := r.1 }

/-! ## 3. Commands -/

/-- Runs a command by its name. -/
def execute (i : Interaction) (name : String) (arguments : List Json) : Interaction :=
  match i.session.execute i.surroundings name arguments with
  | (s, .ok effects) => i.become (s, effects)
  | (s, .error e) => { i with session := s }.complain e.message

/-- Runs a command of the bridge. -/
def executeBridge (i : Interaction) (c : BridgeCommand) (arguments : List Json) : Interaction :=
  i.execute c.name arguments

/-- Acts on the active document, or says that there is none. -/
def withDocument (i : Interaction) (act : ActiveEditor → Interaction) : Interaction :=
  match i.host.activeOrHint with
  | (some e, _) => act e
  | (none, hint) => i.print hint

/-- A message of the user to the panel: through the newest panel if its relay takes it, else it is acted
    on at once. -/
def postFromPanel (i : Interaction) (message : Json) : Interaction :=
  match i.host.messageTarget?.filter i.session.context.panel.accepts with
  | some n =>
    let panel := i.session.context.panel.send n (.message message)
    { i with session := { i.session with context := { i.session.context with panel } } }
  | none => i.become (i.session.handlePanelMessage i.surroundings message)

/-- The arguments of one command of a document. -/
def runArguments (e : ActiveEditor) (index : Int64) : List Json :=
  [.str e.document.uri.text, .int index.toInt, .int e.cursor.line.toNat, .int e.cursor.character.toNat]

/-- Obeys a typed command other than `quit`. -/
def obey (i : Interaction) : TypedCommand → Interaction
  | .all => i.executeBridge .executeAll []
  | .list => i.executeBridge .list []
  | .under => i.executeBridge .executeUnderCursor []
  | .latest => i.executeBridge .openLatestInstance []
  | .editor => i.executeBridge .openEditor []
  | .run index => i.withDocument fun e => i.executeBridge .execute (runArguments e index)
  | .lenses =>
    i.withDocument fun e =>
      let (session, call) := i.session.askLenses e.document.uri
      { i with session, stage := .lenses call e.document.uri }
  | .links =>
    i.withDocument fun e =>
      match i.session.askLinks? e.document.uri with
      | some (session, call) => { i with session, stage := .links call }
      | none => i.print [outLine "no document links"]
  | .cursor p =>
    match i.host.moveCursor? p with
    | some host => { i with host }
    | none => i.print [Host.noDocument]
  | .stop => i.postFromPanel PanelMessage.stop.toJson
  | .openModel link => i.postFromPanel (PanelMessage.model link).toJson
  | .mode m => { i with session := i.session.setMode m }
  | .help => i.print [outLine TypedCommand.helpText]
  | .quit => i

/-! ## 4. Printing lenses and links -/

/-- The line for a lens. -/
def lensLine (l : CodeLens) : Output :=
  let place (p : Position) := Text.Numeral.ofNat p.line.toNat ++ ":" ++ Text.Numeral.ofNat p.character.toNat
  outLine (place l.range.start ++ "-" ++ place l.range.stop ++ "  " ++ ((l.command.map (·.title)).getD ""))

/-- The line for a link. -/
def linkLine (l : DocumentLink) : Output :=
  let p := l.range.start
  outLine (Text.Numeral.ofNat p.line.toNat ++ ":" ++ Text.Numeral.ofNat p.character.toNat ++ "  " ++
    ((l.target.map Url.text).getD ""))

/-- The lines for a list, or the line for an empty one. -/
def listing {α : Type} (line : α → Output) (none : String) (xs : List α) : List Output :=
  if xs.isEmpty then [outLine none] else xs.map line

/-! ## 5. The beginning and the end -/

/-- What is printed when a session is ready. -/
def readyLine (port : Nat) : Output :=
  outLine (bold "Alloy language server ready" ++ " on port " ++ Text.Numeral.ofNat port ++
    " (type `help` for commands)")

/-- An interaction begins: the document, if there is one, is opened. -/
def start (session : Session) (model : Option (TextDocument × String))
    (editorFailure : Option LaunchError) : Interaction :=
  let i : Interaction :=
    { session, host := .start (model.map fun m => ⟨m.1, ⟨0, 0⟩⟩), model := model.map (·.1), editorFailure
      stage := .prompt, inputFailure := none, printed := [readyLine session.port] }
  match model with
  | none => i
  | some (d, text) =>
    match session.openDocument d text with
    | (session, .ok (some call)) => { i with session, stage := .opening call }
    | (session, .ok none) => { i with session }
    | (session, .error e) => { i with session }.complain e.message

/-- The loop has ended: the document is closed and the server asked to shut down. -/
def leave (i : Interaction) : Interaction :=
  let closed := match i.model with
    | some d => (i.session.synchronize d .closed).1
    | none => i.session
  let (session, call) := closed.beginShutdown
  { i with session, host := i.host.dropCommands, stage := .leaving call }

/-! ## 6. Turns -/

/-- What the parser of commands makes of a line. -/
def parseLine (i : Interaction) (line : String) : Interaction :=
  match TypedCommand.parse line with
  | .ok none => i
  | .ok (some .quit) => i.leave
  | .ok (some c) => i.obey c
  | .error e => i.complain e.message

/-- The loop takes a line: the pending quick pick is answered by its number, or dismissed by anything
    else; without one the line is a command. -/
def takeLine (i : Interaction) (line : String) : Interaction :=
  if i.host.pending.isSome then
    let choice := Text.Numeral.readUnsigned Text.Numeral.maxU64 (Text.trim line.toList)
    match i.host.answer? choice with
    | some (host, picked) => { i with host }.closePick picked
    | none => i
  else i.parseLine line

/-- The loop takes a queued command; nothing if none waits. -/
def takeCommand? (i : Interaction) : Option Interaction :=
  match i.host.queue with
  | [] => none
  | c :: queue =>
    some ({ i with host := { i.host with queue } }.execute c.command (c.arguments.getD []))

/-- The main task takes up the outcome that it waits for; nothing if there is none yet. -/
def resume? (i : Interaction) : Option Interaction :=
  match i.stage with
  | .opening call =>
    match i.session.outcome? call, i.model with
    | some r, some d =>
      match i.session.lensesArrived d.uri r with
      | (session, .ok _) => some { i with session, stage := .prompt }
      | (session, .error e) => some ({ i with session, stage := .prompt }.complain e.message)
    | _, _ => none
  | .lenses call uri =>
    (i.session.outcome? call).map fun r =>
      match i.session.lensesArrived uri r with
      | (session, .ok ls) =>
        { i with session, stage := .prompt }.print (listing lensLine "no code lenses" ls)
      | (session, .error e) => { i with session, stage := .prompt }.complain e.message
  | .links call =>
    (i.session.outcome? call).map fun r =>
      match Session.linksOf r with
      | .ok ls => { i with stage := .prompt }.print (listing linkLine "no document links" ls)
      | .error e => { i with stage := .prompt }.complain e.message
  | .leaving call =>
    (i.session.outcome? call).map fun r =>
      { i with session := (i.session.shutdownAnswered r).askToEnd, stage := .ending }
  | _ => none

/-- One event; nothing if it cannot happen in this state. -/
def step? (i : Interaction) (e : Event) : Option Interaction :=
  let connected (c : Rpc.Connection) : Interaction := { i with session := { i.session with connection := c } }
  if i.stage = .over then none
  else
    match e with
    | .sends bs => some (connected (i.session.connection.receive bs))
    | .hangsUp => some (connected i.session.connection.hangUp)
    | .deafens => some (connected i.session.connection.deafen)
    | .reads => i.session.connection.readFrame?.map connected
    | .writes => i.session.connection.writeFrame?.map connected
    | .dispatches => (i.session.dispatchNext? i.surroundings).map i.become
    | .relays n => (i.session.relayTurn? i.surroundings n).map i.become
    | .line text => if i.stage = .prompt then some (i.takeLine text) else none
    | .inputEnds => if i.stage = .prompt then some i.leave else none
    | .inputFails cause =>
      if i.stage = .prompt then some { i.leave with inputFailure := some cause } else none
    | .command => if i.stage = .prompt then i.takeCommand? else none
    | .resumes => i.resume?
    | .patienceEnds =>
      match i.stage with
      | .leaving call =>
        if (i.session.outcome? call).isNone then
          some { i with session := i.session.askToEnd, stage := .ending }
        else none
      | _ => none
    | .process (.asks _) => none
    | .process .drops => none
    | .process e => (i.session.processEvent? e).map fun session => { i with session }
    | .finishes =>
      if i.stage = .ending ∧ i.session.process.outcome?.isSome then
        some { i with session := i.session.finish, stage := .over }
      else none

/-- A sequence of events. -/
def run? (i : Interaction) : List Event → Option Interaction
  | [] => some i
  | e :: es => (i.step? e).bind fun i => run? i es

end Interaction

end EditorBridge.Terminal
