import EditorBridge.Text.Numeral

/-!
# Starting programs from the distribution archive

Both the language server and the standalone editor are started as `<runtime> -jar <archive> …`. The
runtime is looked up first (`Programs.find?`): a name without a slash only on the search path, any
other name from the working directory; it has to be an executable file. Whether it then starts
(`Programs.start`) depends on its interpreter line.
-/

namespace EditorBridge

open Text

/-! ## 1. The command lines -/

/-- A runtime and the archive it runs. -/
structure JarCommand where
  runtime : String
  jar : String
  deriving DecidableEq, Repr

namespace JarCommand

/-- The arguments that start the language server. -/
def serverArguments (c : JarCommand) (port : Nat) : List String :=
  ["-jar", c.jar, "ls", Numeral.ofNat port]

/-- The arguments that start the standalone editor, with a file if there is one. -/
def editorArguments (c : JarCommand) (file : Option String) : List String :=
  ["-jar", c.jar] ++ file.toList

end JarCommand

/-! ## 2. What can go wrong -/

/-- Why a program cannot be started. -/
inductive StartFailure where
  | notFound
  | notExecutableFormat
  deriving DecidableEq, Repr

/-- The wording of a failure to start. -/
def StartFailure.message : StartFailure → String
  | notFound => "No such file or directory (os error 2)"
  | notExecutableFormat => "Exec format error (os error 8)"

/-- Why a program was not started. `cause` is the wording of the system. -/
inductive LaunchError where
  | runtimeNotFound (runtime : String)
  | spawn (program cause : String)
  deriving DecidableEq, Repr

namespace LaunchError

/-- The wording of an error. -/
def message : LaunchError → String
  | runtimeNotFound runtime => "could not find `" ++ runtime ++ "` on PATH: cannot find binary path"
  | spawn program cause => "failed to start `" ++ program ++ "`: " ++ cause

/-- The advice at the end of every message to the user. -/
def advice : String := "Make sure a Java runtime is installed and on your PATH."

/-- The wording for the user. -/
def userMessage : LaunchError → String
  | runtimeNotFound runtime =>
    "Could not start the Alloy language server: `" ++ runtime ++ "` was not found. " ++ advice
  | spawn program cause => "Could not start `" ++ program ++ "` (" ++ cause ++ "). " ++ advice

end LaunchError

/-! ## 3. Programs and where they are -/

/-- A file that may be a program. -/
structure ProgramFile where
  /-- The path, without empty and `.` parts. -/
  path : String
  executable : Bool
  content : List UInt8
  deriving Repr

/-- What is known about the programs of a machine. -/
structure Programs where
  workingDirectory : String
  searchPath : List String
  files : List ProgramFile
  interpreters : List String

namespace Programs

/-- The pieces of a text between the occurrences of a character. -/
def pieces (sep : Char) (s : String) : List String :=
  (s.toList.splitOnP (· == sep)).map String.ofList

/-- A path without empty and `.` parts. -/
def plainPath (path : String) : String :=
  let parts := (pieces '/' path).filter fun p => !p.isEmpty && p != "."
  (if path.toList.head? = some '/' then "/" else "") ++ String.intercalate "/" parts

/-- A name seen from a directory; an absolute one stays. -/
def join (directory name : String) : String :=
  if name.toList.head? = some '/' then name else directory ++ "/" ++ name

/-- The executable file at a path. -/
def at? (p : Programs) (path : String) : Option ProgramFile :=
  p.files.find? fun f => f.path == plainPath path && f.executable

/-- The path of a program's file as it is shown, and the file. -/
def find? (p : Programs) (name : String) : Option (String × ProgramFile) :=
  if name.isEmpty then none
  else
    let candidates :=
      if name.toList.contains '/' then [join p.workingDirectory name]
      else p.searchPath.map fun d => join d name
    candidates.findSome? fun c => (p.at? c).map fun f => (c, f)

/-- The interpreter that the first line of a script names. -/
def interpreter? : List UInt8 → Option (List UInt8)
  | 0x23 :: 0x21 :: r =>
    let isGap (b : UInt8) := b == 0x20 || b == 0x09
    some (((r.takeWhile (· != 0x0A)).dropWhile isGap).takeWhile fun b => !isGap b)
  | _ => none

/-- What keeps a file from starting; nothing if it starts. -/
def failure? (p : Programs) (f : ProgramFile) : Option StartFailure :=
  match interpreter? f.content with
  | none => some .notExecutableFormat
  | some i =>
    if p.interpreters.any fun n => n.toList.map (fun c => UInt8.ofNat c.toNat) == i then none
    else some .notFound

/-- Starts the runtime of a command: the path of the program, or why it did not start. -/
def start (p : Programs) (runtime : String) : Except LaunchError String :=
  match p.find? runtime with
  | none => .error (.runtimeNotFound runtime)
  | some (shown, f) =>
    match p.failure? f with
    | some why => .error (.spawn shown why.message)
    | none => .ok shown

end Programs

end EditorBridge
