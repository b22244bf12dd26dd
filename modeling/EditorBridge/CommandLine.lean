import EditorBridge.Config.Loader

/-!
# The command line

`CommandLine.parse` reads the arguments of the program: a session with an optional model, or the
standalone editor. An option takes its value from the same argument or from the next one, which must not
look like an option; after `--` everything is a model.
-/

namespace EditorBridge

/-- What the program is asked to do. -/
inductive Invocation where
  | session (config highlight model : Option String)
  | editor (config model : Option String)
  | help (ofEditor : Bool)
  | version
  deriving DecidableEq, Repr

namespace CommandLine

/-! ## 1. Texts -/

/-- The line that shows how the program or its command is called. -/
def usageLine (ofEditor : Bool) : String :=
  if ofEditor then "Usage: alloy editor [OPTIONS] [model]" else "Usage: alloy [OPTIONS] [model] [COMMAND]"

/-- What `--version` prints. -/
def versionText : String := "alloy 0.1.0\n"

/-- What `--help` prints. -/
def helpText (ofEditor : Bool) : String :=
  if ofEditor then
    "Open the standalone Alloy editor\n\n" ++ usageLine true ++ "\n\n" ++
    "Arguments:\n" ++
    "  [model]  Model to open in the editor\n\n" ++
    "Options:\n" ++
    "  -c, --config <config>  Configuration file layered over the built-in defaults\n" ++
    "  -h, --help             Print help\n"
  else
    "Run Alloy models through the Alloy language server from a terminal\n\n" ++ usageLine false ++ "\n\n" ++
    "Commands:\n" ++
    "  editor  Open the standalone Alloy editor\n" ++
    "  help    Print this message or the help of the given subcommand(s)\n\n" ++
    "Arguments:\n" ++
    "  [model]  Alloy model to open as the active document\n\n" ++
    "Options:\n" ++
    "  -c, --config <config>        Configuration file layered over the built-in defaults\n" ++
    "      --highlight <highlight>  " ++
    "Command highlight mode: codelens, link, or anything else to hide both\n" ++
    "  -h, --help                   Print help\n" ++
    "  -V, --version                Print version\n"

/-- Why the arguments mean nothing. -/
inductive UsageError where
  | unexpected (argument : String) (ofEditor : Bool)
  | valueMissing (what : String)
  | repeated (what : String) (ofEditor : Bool)
  | unknownCommand (name : String)
  deriving DecidableEq, Repr

/-- The report of a usage error. -/
def UsageError.text : UsageError → String
  | unexpected argument ofEditor =>
    "error: unexpected argument '" ++ argument ++ "' found\n\n" ++
    (if argument.startsWith "-" then
      "  tip: to pass '" ++ argument ++ "' as a value, use '-- " ++ argument ++ "'\n\n" else "") ++
    usageLine ofEditor ++ "\n\nFor more information, try '--help'.\n"
  | valueMissing what =>
    "error: a value is required for '" ++ what ++
      "' but none was supplied\n\nFor more information, try '--help'.\n"
  | repeated what ofEditor =>
    "error: the argument '" ++ what ++ "' cannot be used multiple times\n\n" ++ usageLine ofEditor ++
      "\n\nFor more information, try '--help'.\n"
  | unknownCommand name =>
    "error: unrecognized subcommand '" ++ name ++
      "'\n\nUsage: alloy [OPTIONS] [model] [COMMAND]\n\nFor more information, try '--help'.\n"

/-! ## 2. Options -/

/-- An option with a value. -/
inductive ValueOption where
  | config
  | highlight
  deriving DecidableEq, Repr

/-- How messages show an option. -/
def ValueOption.shown : ValueOption → String
  | config => "--config <config>"
  | highlight => "--highlight <highlight>"

/-- What one argument is. -/
inductive Argument where
  | help
  | version
  /-- An option with the value in the same argument, if there is one. -/
  | valued (o : ValueOption) (value : Option String)
  | separator
  | plain (s : String)
  | unknown (shown : String)
  deriving DecidableEq, Repr

/-- The name and the value of a long option. -/
def splitLong (s : String) : String × Option String :=
  match s.toList.dropWhile (· != '=') with
  | [] => (s, none)
  | _ :: value => (String.ofList (s.toList.takeWhile (· != '=')), some (String.ofList value))

/-- What an argument is, for the program or its command `editor`. -/
def Argument.of (ofEditor : Bool) (s : String) : Argument :=
  match s.toList with
  | ['-', '-'] => separator
  | '-' :: '-' :: _ =>
    match splitLong s with
    | ("--help", none) => help
    | ("--version", none) => if ofEditor then unknown s else version
    | ("--config", v) => valued .config v
    | ("--highlight", v) => if ofEditor then unknown "--highlight" else valued .highlight v
    | (name, _) => unknown name
  | '-' :: 'h' :: _ => help
  | '-' :: 'V' :: _ => if ofEditor then unknown "-V" else version
  | ['-', 'c'] => valued .config none
  | '-' :: 'c' :: '=' :: v => valued .config (some (String.ofList v))
  | '-' :: 'c' :: v => valued .config (some (String.ofList v))
  | '-' :: c :: _ => unknown (String.ofList ['-', c])
  | _ => plain s

/-- Whether an argument can be the value of the option before it. -/
def isValue (s : String) : Bool := s == "-" || !s.startsWith "-"

/-! ## 3. Reading the arguments -/

/-- What has been read so far. -/
structure Found where
  config : Option String := none
  highlight : Option String := none
  model : Option String := none
  deriving DecidableEq, Repr

/-- Takes an option with its value. -/
def Found.take (f : Found) (ofEditor : Bool) (o : ValueOption) (v : String) : Except UsageError Found :=
  match o with
  | .config =>
    if f.config.isSome then .error (.repeated o.shown ofEditor)
    else if v.isEmpty then .error (.valueMissing o.shown)
    else .ok { f with config := some v }
  | .highlight =>
    if f.highlight.isSome then .error (.repeated o.shown ofEditor) else .ok { f with highlight := some v }

/-- Takes a model. -/
def Found.takeModel (f : Found) (ofEditor : Bool) (s : String) : Except UsageError Found :=
  if f.model.isSome then .error (.unexpected s ofEditor)
  else if s.isEmpty then .error (.valueMissing "[model]")
  else .ok { f with model := some s }

/-- What is asked for once all arguments have been read. `outer` is what stood before the command
    `editor`, if it was given. -/
def finish (outer : Option Found) (f : Found) : Invocation :=
  match outer with
  | none => .session f.config f.highlight f.model
  | some o => .editor (f.config.or o.config) f.model

/-- What the arguments of the command `help` ask for. -/
def helpOn : List String → Except UsageError Invocation
  | [] => .ok (.help false)
  | "editor" :: _ => .ok (.help true)
  | "help" :: _ => .ok (.help false)
  | name :: _ => .error (.unknownCommand name)

/-- Reads the arguments; `separated` says whether `--` has been read. -/
def readArguments (outer : Option Found) (separated : Bool) (f : Found) :
    List String → Except UsageError Invocation
  | [] => .ok (finish outer f)
  | a :: rest =>
    if separated then do readArguments outer true (← f.takeModel outer.isSome a) rest
    else
      match Argument.of outer.isSome a with
      | .help => .ok (.help outer.isSome)
      | .version => .ok .version
      | .separator => readArguments outer true f rest
      | .unknown shown => .error (.unexpected shown outer.isSome)
      | .valued o (some v) => do readArguments outer false (← f.take outer.isSome o v) rest
      | .valued o none =>
        match rest with
        | v :: rest =>
          if isValue v then do readArguments outer false (← f.take outer.isSome o v) rest
          else .error (.valueMissing o.shown)
        | [] => .error (.valueMissing o.shown)
      | .plain s =>
        if outer.isNone ∧ s = "editor" then readArguments (some f) false {} rest
        else if outer.isNone ∧ s = "help" then helpOn rest
        else do readArguments outer false (← f.takeModel outer.isSome s) rest

/-- What the arguments of the program ask for. -/
def parse (arguments : List String) : Except UsageError Invocation :=
  readArguments none false {} arguments

/-- The layers of configuration that options name. -/
def loader (config highlight : Option String) : Config.Loader :=
  let l := match config with
    | some path => Config.Loader.start.addFile path
    | none => Config.Loader.start
  match highlight with
  | some name => l.setHighlightMode name
  | none => l

end CommandLine

end EditorBridge
