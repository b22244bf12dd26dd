import EditorBridge.CommandLine
import EditorBridge.Failure
import EditorBridge.Model
import EditorBridge.Terminal.Interaction

/-!
# The program

`Program.run` says what the program does when it is called: it either comes to an end, with what it prints
and its exit code, or begins an interaction at the terminal. All that it needs of the machine is a value
of `Machine`.
-/

namespace EditorBridge

open Terminal (Output)

/-- What the program finds on the machine. -/
structure Machine where
  /-- The content of a file, or why it cannot be read. -/
  content : String → Except String (List UInt8)
  /-- The absolute path of what a path names, or why it names nothing. -/
  fullPath : String → Except String String
  /-- Why a runtime cannot be started. -/
  launchFailure : String → Option LaunchError
  /-- How waiting for the server ends. -/
  acceptance : Acceptance
  port : Nat
  processId : UInt32
  /-- What the server does during the handshake. -/
  peer : List PeerAct

namespace Machine

/-- The text of a file, or why it cannot be read. -/
def text (m : Machine) (path : String) : Except String String :=
  match m.content path with
  | .error cause => .error cause
  | .ok bs =>
    match Text.Utf8.decode? bs with
    | some text => .ok text
    | none => .error "stream did not contain valid UTF-8"

/-- The files that a configuration can be read from. -/
def files (m : Machine) : Config.Files := fun path => (m.content path).toOption

/-- The world around the activation of a session. -/
def world (m : Machine) (config : Config) : World :=
  { fileText := m.text, port := m.port, listenFailure := none
    launchFailure := m.launchFailure config.server.runtime, acceptance := m.acceptance
    processId := m.processId.toNat, peer := m.peer }

end Machine

namespace Program

/-- How a call of the program goes on. -/
inductive Result where
  | ended (printed : List Output) (code : Nat)
  | interactive (i : Terminal.Interaction)

/-- A call that fails, after having printed something. -/
def failed (printed : List Output) (f : Failure) : Result := .ended (printed ++ [.err f.text]) 1

/-- A call that prints a text and ends. -/
def said (text : String) : Result := .ended [.out text] 0

/-- Opens the model of a session: its document and text. -/
def openModel (m : Machine) (config : Config) (path : String) :
    Except Failure (TextDocument × String) :=
  match m.fullPath path with
  | .error cause => .error ⟨"cannot open " ++ path, [cause]⟩
  | .ok full =>
    match m.text path, Model.document? config.editor.languageId full with
    | .error cause, _ => .error ⟨"cannot read " ++ full, [cause]⟩
    | .ok _, none => .error ⟨"cannot turn " ++ full ++ " into a file URI", []⟩
    | .ok text, some d => .ok (d, text)

/-- Activates a session and begins the interaction. -/
def beginSession (m : Machine) (config : Config) (model : Option (TextDocument × String)) : Result :=
  let a := activate config (m.world config)
  let shown := a.steps.filterMap fun step =>
    match step with
    | .shown message => some (Output.err (Terminal.errorLine message))
    | _ => none
  match a.outcome with
  | .error e => failed shown (.ofSession e)
  | .ok s => .interactive (.start s model (m.launchFailure config.server.runtime))

/-- Runs a session with a model, if one is named. -/
def runSession (m : Machine) (config : Config) : Option String → Result
  | none => beginSession m config none
  | some path =>
    match openModel m config path with
    | .error f => failed [] f
    | .ok model => beginSession m config (some model)

/-- Opens the standalone editor. -/
def openEditor (m : Machine) (config : Config) : Result :=
  match m.launchFailure config.server.runtime with
  | some e => failed [] ⟨e.userMessage, []⟩
  | none => said "Alloy editor started\n"

/-- Loads the configuration and goes on with it. -/
def withConfig (m : Machine) (config highlight : Option String) (k : Config → Result) : Result :=
  match (CommandLine.loader config highlight).build m.files with
  | .error e => failed [] (.ofConfig e)
  | .ok c => k c

/-- What an invocation does. -/
def invoke (m : Machine) : Invocation → Result
  | .help ofEditor => said (CommandLine.helpText ofEditor)
  | .version => said CommandLine.versionText
  | .editor config _ => withConfig m config none fun c => openEditor m c
  | .session config highlight model => withConfig m config highlight fun c => runSession m c model

/-- What the program does with its arguments. -/
def run (m : Machine) (arguments : List String) : Result :=
  match CommandLine.parse arguments with
  | .error e => .ended [.err e.text] 2
  | .ok invocation => invoke m invocation

/-- The files that a call reads: the configuration, the model, and the panel's document if the
    configuration can already be loaded from `m`. -/
def filesRead (m : Machine) (arguments : List String) : List String :=
  let configFiles (config : Option String) := (config.map fun p => [p, p ++ ".toml"]).getD []
  match CommandLine.parse arguments with
  | .ok (.editor config _) => configFiles config
  | .ok (.session config highlight model) =>
    let html := match (CommandLine.loader config highlight).build m.files with
      | .ok c => c.panel.html.toList
      | .error _ => []
    configFiles config ++ model.toList ++ html
  | _ => []

end Program

end EditorBridge
