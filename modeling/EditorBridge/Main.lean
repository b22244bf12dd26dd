import EditorBridge.Program

/-!
# The outer layer of the program

Reads the files that a call names, asks the library what to do and does it. From here no other program is
started: where the runtime would be, a failed launch is reported.
-/

namespace EditorBridge.Main

/-- How the system words a failed access to a file. -/
def wording : IO.Error → String
  | .noFileOrDirectory .. => "No such file or directory (os error 2)"
  | .permissionDenied .. => "Permission denied (os error 13)"
  | .inappropriateType .. => "Is a directory (os error 21)"
  | e => toString e

/-- What an action gives, or why it fails. -/
def attempt {α : Type} (act : IO α) : IO (Except String α) := do
  try return .ok (← act)
  catch e => return .error (wording e)

/-- What was found under a path: its absolute path and its content. -/
structure Finding where
  fullPath : Except String String
  content : Except String (List UInt8)

/-- What is found where nothing is. -/
def Finding.nothing : Finding :=
  ⟨.error "No such file or directory (os error 2)", .error "No such file or directory (os error 2)"⟩

/-- Looks a path up. -/
def find (path : String) : IO Finding := do
  return ⟨(← attempt (IO.FS.realPath path)).map toString,
    (← attempt (IO.FS.readBinFile path)).map ByteArray.toList⟩

/-- The machine, as far as the files in `found` show it. -/
def machineOf (found : Entries Finding) : Machine :=
  let finding := fun path => (found.get? path).getD .nothing
  { content := fun path => (finding path).content
    fullPath := fun path => (finding path).fullPath
    launchFailure := fun runtime => some (.spawn runtime "Operation not supported (os error 95)")
    acceptance := .nobody, port := Port.first, processId := 0, peer := [] }

/-- Reads the files that a call needs, as far as the ones found already tell. -/
def readFor (found : Entries Finding) (arguments : List String) :
    IO (Entries Finding) :=
  (Program.filesRead (machineOf found) arguments).foldlM
    (fun found path => do return found.put path (← find path)) found

/-- Prints what the program prints. -/
def print (o : Terminal.Output) : IO Unit := do
  match o with
  | .out text => (← IO.getStdout).putStr text
  | .err text => (← IO.getStderr).putStr text

/-- Prints what is to be printed. -/
def finish : Program.Result → IO UInt32
  | .ended printed code => do
    printed.forM print
    return UInt32.ofNat code
  | .interactive i => do
    i.printed.forM print
    return 0

end EditorBridge.Main

/-- The program `alloy`. The panel's document is known only once the configuration has been read. -/
def main (arguments : List String) : IO UInt32 := do
  let found ← EditorBridge.Main.readFor [] arguments
  let found ← EditorBridge.Main.readFor found arguments
  EditorBridge.Main.finish (EditorBridge.Program.run (EditorBridge.Main.machineOf found) arguments)
