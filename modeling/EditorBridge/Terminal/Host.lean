import EditorBridge.Document
import EditorBridge.Terminal.Style

/-!
# The terminal as an editor

The terminal stands in for an editor: it has at most one document in front, prints what the result panel
is told, and lets the user answer a quick pick by number. At most one quick pick is open; a new one with
items dismisses it.

Every operation yields the new state and what it prints. The commands that the bridge wants run go into
a queue, which the loop over typed lines empties.
-/

namespace EditorBridge.Terminal

/-- A piece of printed text. -/
inductive Output where
  | out (text : String)
  | err (text : String)
  deriving DecidableEq, Repr

/-- A line on the standard output. -/
def outLine (text : String) : Output := .out (text ++ "\n")

/-- A line on the error output. -/
def errLine (text : String) : Output := .err (text ++ "\n")

/-- The panel as the terminal shows it. -/
structure Screen where
  title : String
  revealed : Bool
  /-- Whether someone takes the events of the panel. -/
  hasListener : Bool
  deriving DecidableEq, Repr

/-- The terminal. Quick picks and panels are numbered in the order in which they appear. -/
structure Host where
  active : Option ActiveEditor
  /-- The quick pick that waits for an answer. -/
  pending : Option (Nat × List ListedCommand)
  nextPick : Nat
  /-- The commands to run, oldest first. -/
  queue : List Command
  /-- Whether the loop still takes commands. -/
  takesCommands : Bool
  screens : List Screen

namespace Host

/-- The terminal at the start. -/
def start (active : Option ActiveEditor) : Host :=
  { active, pending := none, nextPick := 0, queue := [], takesCommands := true, screens := [] }

/-! ## 1. The document -/

/-- Moves the cursor; refused when no document is open. -/
def moveCursor? (h : Host) (p : Position) : Option Host :=
  h.active.map fun e => { h with active := some { e with cursor := p } }

/-- What is printed when a document is needed. -/
def noDocument : Output := errLine "no document is open"

/-- The active document, with a hint if there is none. -/
def activeOrHint (h : Host) : Option ActiveEditor × List Output :=
  (h.active, if h.active.isNone then [noDocument] else [])

/-! ## 2. Quick picks -/

/-- What became of a quick pick: its number and the item chosen, if any. -/
abbrev Picked := Nat × Option ListedCommand

/-- Opens a quick pick. Without items it is dismissed at once and a pending one stays; else a pending
    one is dismissed. -/
def pick (h : Host) (items : List ListedCommand) (placeholder : String) :
    Host × List Output × List Picked :=
  let n := h.nextPick
  let h := { h with nextPick := n + 1 }
  if items.isEmpty then (h, [outLine (placeholder ++ ": nothing to choose from")], [(n, none)])
  else
    let numbered := items.zipIdx.map fun (item, i) =>
      outLine ("  " ++ Text.Numeral.ofNat (i + 1) ++ ". " ++ item.title)
    ({ h with pending := some (n, items) },
      [outLine (bold placeholder)] ++ numbered ++ [outLine "Type a number, or anything else to dismiss."],
      (h.pending.map fun p => (p.1, none)).toList)

/-- Answers the pending quick pick by the number shown, or dismisses it; nothing if none is pending. -/
def answer? (h : Host) (choice : Option Nat) : Option (Host × Picked) :=
  h.pending.map fun (n, items) =>
    let item := choice.bind fun c => if c = 0 then none else items[c - 1]?
    ({ h with pending := none }, (n, item))

/-! ## 3. Commands -/

/-- Queues a command. -/
def execute (h : Host) (c : Command) : Host :=
  if h.takesCommands then { h with queue := h.queue ++ [c] } else h

/-- The loop takes no commands any more. -/
def dropCommands (h : Host) : Host := { h with takesCommands := false }

/-! ## 4. Panels -/

/-- Creates a panel; from now on the user's messages go to it. -/
def createPanel (h : Host) (title : String) : Host :=
  { h with screens := h.screens ++ [⟨title, false, true⟩] }

/-- The panel that takes a message of the user: the newest one, if its events are taken. -/
def messageTarget? (h : Host) : Option Nat :=
  match h.screens.getLast? with
  | some s => if s.hasListener then some (h.screens.length - 1) else none
  | none => none

/-- Brings a panel to the front: the first time its title is printed. -/
def reveal (h : Host) (n : Nat) : Host × List Output :=
  match h.screens[n]? with
  | some s =>
    if s.revealed then (h, [])
    else
      ({ h with screens := h.screens.modify n ({ · with revealed := true }) },
        [outLine (bold ("── " ++ s.title ++ " ──"))])
  | none => (h, [])

/-- Whether the terminal can print what is posted to a panel. -/
def canPrint (message : Json) : Bool := (ExecutionOutput.decode message).toOption.isSome

/-- Prints what is posted to a panel, if it is a chunk of output. -/
def post (message : Json) : List Output :=
  match ExecutionOutput.decode message with
  | .ok o => [outLine (renderOutput o)]
  | .error _ => []

end Host

end EditorBridge.Terminal
