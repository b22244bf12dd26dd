import EditorBridge.Highlight
import EditorBridge.Protocol.Lens
import EditorBridge.Text.Blank

/-!
# Typed commands

A line typed while a session runs. `Line.parse` looks only at the words of the line: the first names
the command, the others are its arguments. `TypedCommand.words` are words that parse back to a command.
-/

namespace EditorBridge

open Text

/-- A command typed by the user. -/
inductive TypedCommand where
  | all
  | run (index : Int64)
  | list
  | lenses
  | links
  | cursor (position : Position)
  | under
  | stop
  | openModel (link : String)
  | latest
  | editor
  | mode (mode : HighlightMode)
  | help
  | quit
  deriving DecidableEq, Repr

namespace TypedCommand

/-! ## 1. Reading -/

/-- Why a line is no command. -/
inductive Error where
  | badIndex (word : String)
  | badLine (word : String)
  | badCharacter (word : String)
  | unrecognized (line : String)
  deriving DecidableEq, Repr

/-- The wording of an error. -/
def Error.message : Error → String
  | badIndex w => "`" ++ w ++ "` is not a command index"
  | badLine w => "`" ++ w ++ "` is not a line number"
  | badCharacter w => "`" ++ w ++ "` is not a character offset"
  | unrecognized l => "unrecognized command `" ++ l ++ "`, try `help`"

/-- A signed 64-bit number. -/
def readIndex (w : String) : Except Error Int64 :=
  match Numeral.readSigned Numeral.minI64 Numeral.maxI64 w.toList with
  | some n => .ok (Int64.ofInt n)
  | none => .error (.badIndex w)

/-- A place, given by two unsigned 32-bit numbers. -/
def readPosition (line character : String) : Except Error Position :=
  match Numeral.readUnsigned Numeral.maxU32 line.toList with
  | none => .error (.badLine line)
  | some l =>
    match Numeral.readUnsigned Numeral.maxU32 character.toList with
    | none => .error (.badCharacter character)
    | some c => .ok ⟨UInt32.ofNat l, UInt32.ofNat c⟩

/-- The command that words spell; `line` is what an error quotes. -/
def ofWords (line : String) : List String → Except Error (Option TypedCommand)
  | [] => .ok none
  | ["all"] => .ok (some all)
  | ["run", index] => (readIndex index).map fun i => some (run i)
  | ["list"] => .ok (some list)
  | ["lenses"] => .ok (some lenses)
  | ["links"] => .ok (some links)
  | ["cursor", l, c] => (readPosition l c).map fun p => some (cursor p)
  | ["under"] => .ok (some under)
  | ["stop"] => .ok (some stop)
  | ["open", link] => .ok (some (openModel link))
  | ["latest"] => .ok (some latest)
  | ["editor"] => .ok (some editor)
  | ["mode", name] => .ok (some (mode (.ofName name)))
  | ["help"] => .ok (some help)
  | ["quit"] => .ok (some quit)
  | ["exit"] => .ok (some quit)
  | _ => .error (.unrecognized line)

/-- The command of a line; nothing for a blank one. -/
def parse (line : String) : Except Error (Option TypedCommand) :=
  ofWords (trimText line) ((words line.toList).map String.ofList)

/-! ## 2. Writing -/

/-- Words that spell a command. -/
def words : TypedCommand → List String
  | all => ["all"]
  | run i => ["run", Numeral.ofInt i.toInt]
  | list => ["list"]
  | lenses => ["lenses"]
  | links => ["links"]
  | cursor p => ["cursor", Numeral.ofNat p.line.toNat, Numeral.ofNat p.character.toNat]
  | under => ["under"]
  | stop => ["stop"]
  | openModel link => ["open", link]
  | latest => ["latest"]
  | editor => ["editor"]
  | mode m => ["mode", m.name]
  | help => ["help"]
  | quit => ["quit"]

/-! ## 3. Help -/

/-- What is printed for `help`. -/
def helpText : String :=
  "Commands:\n" ++
  "  all                    execute every command of the document\n" ++
  "  run <index>            execute one command by index\n" ++
  "  list                   choose a command from the server's list\n" ++
  "  lenses                 show the code lenses of the document\n" ++
  "  links                  show the document links of the document\n" ++
  "  cursor <line> <char>   move the cursor (0-based)\n" ++
  "  under                  execute the command under the cursor\n" ++
  "  stop                   stop the running execution\n" ++
  "  open <link>            open a model instance\n" ++
  "  latest                 open the latest model instance\n" ++
  "  editor                 open the standalone Alloy editor\n" ++
  "  mode <mode>            switch the highlight mode (codelens, link, ...)\n" ++
  "  help                   show this help\n" ++
  "  quit                   end the session"

end TypedCommand

end EditorBridge
