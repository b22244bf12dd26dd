import EditorBridge.Commands
import EditorBridge.Log

/-!
# What the bridge does to the world around it

The features of a session do not act for themselves: each operation yields the list of its effects, in
order. Attempts that can fail say whether they reached the other side.
-/

namespace EditorBridge

/-- One effect. Panels and quick picks are numbered in the order in which they appear. -/
inductive Effect where
  | warning (message : String)
  | error (message : String)
  | pick (number : Nat) (items : List ListedCommand)
  | execute (command : Command)
  | createPanel (number : Nat) (title html : String)
  | reveal (panel : Nat)
  | post (panel : Nat) (message : Json)
  | notify (notification : Outbound) (reached : Bool)
  | askLenses (uri : Url) (reached : Bool)
  | askLinks (uri : Url) (reached : Bool)
  | openEditor (file : Option (List UInt8)) (started : Bool)
  | log (line : LogLine)

namespace Effect

/-- A logged warning. -/
def warn (message : String) : Effect := log ⟨.warn, message⟩

end Effect

end EditorBridge
