import EditorBridge.Protocol.Execution

/-!
# The commands of the bridge

The names of the commands that an editor registers, and the texts that answer some of them.
-/

namespace EditorBridge

/-- A command that the bridge answers. -/
inductive BridgeCommand where
  /-- One command of a document, named by its arguments. -/
  | execute
  | executeAll
  | list
  | executeUnderCursor
  | openEditor
  | openLatestInstance
  deriving DecidableEq, Repr

namespace BridgeCommand

/-- Every command, in the order of registration. -/
def all : List BridgeCommand :=
  [execute, executeAll, list, executeUnderCursor, openEditor, openLatestInstance]

/-- The name under which a command is registered. -/
def name : BridgeCommand → String
  | execute => "ExecuteAlloyCommand"
  | executeAll => "alloy.executeAllCommands"
  | list => "alloy.listCommands"
  | executeUnderCursor => "alloy.executeCommandUnderCursor"
  | openEditor => "alloy.openAlloyEditor"
  | openLatestInstance => "alloy.openLatestInstance"

/-- The command with a name. -/
def ofName? (s : String) : Option BridgeCommand := all.find? fun c => c.name == s

end BridgeCommand

/-- Shown when no lens covers the cursor. -/
def noCommandUnderCursor : String := "No Alloy command found under the cursor"

/-- Shown when there is no instance to open. -/
def noInstancesYet : String := "No Alloy instances generated yet!"

/-- What the quick pick of listed commands asks for. -/
def pickPlaceholder : String := "Select a command to execute"

/-- Why a command is not run. -/
inductive CommandError where
  | unknown (name : String)
  | badArguments (command : BridgeCommand) (cause : DecodeError)

/-- The wording of an error. -/
def CommandError.message : CommandError → String
  | unknown name => "unknown command `" ++ name ++ "`"
  | badArguments command cause => "invalid arguments for `" ++ command.name ++ "`: " ++ cause.message

end EditorBridge
