import EditorBridge.Effect
import EditorBridge.Panel.Message

/-!
# The result panel

A session has at most one current panel. It is created when output has to be shown and none is current,
brought to the front while it is current, and forgotten when the user closes it.

Each panel has a channel for what the user and the script do, and a relay that takes these events one
by one. The relay ends at the first `disposed`, or when the channel is closed and empty; then it makes
the bridge forget its own panel, never another one (`release`). All operations here are single steps,
so that any interleaving of them is a list of steps.
-/

namespace EditorBridge.Panel

/-- What a panel reports. -/
inductive Event where
  /-- The script has posted a value. -/
  | message (value : Json)
  /-- The user has closed the panel. -/
  | disposed

/-- What a panel's relay is doing. -/
inductive Relay where
  | running
  /-- It has ended its loop and has not yet made the bridge forget the panel. -/
  | leaving
  | finished
  | aborted
  deriving DecidableEq, Repr

/-- One panel. -/
structure View where
  visible : Bool
  /-- The events sent and not yet taken. -/
  channel : List Event
  /-- Whether nothing more can be sent. -/
  closed : Bool
  relay : Relay

/-- The panels of a session. The number of a panel is its place in `views`. -/
structure Bridge where
  title : String
  html : String
  current : Option Nat
  views : List View

namespace Bridge

/-- No panel has been created. -/
def empty (title html : String) : Bridge := ⟨title, html, none, []⟩

/-- Whether a panel is current. -/
def isOpen (b : Bridge) : Bool := b.current.isSome

/-- Changes one panel. -/
def update (b : Bridge) (n : Nat) (f : View → View) : Bridge := { b with views := b.views.modify n f }

/-- Makes a panel current: the one that is, brought to the front if it is hidden, or a new one. The
    result names it. -/
def ensure (b : Bridge) : Bridge × Nat × List Effect :=
  match b.current with
  | some n =>
    if (b.views[n]?.map (·.visible)).getD true then (b, n, [])
    else (b.update n ({ · with visible := true }), n, [.reveal n])
  | none =>
    let n := b.views.length
    ({ b with current := some n, views := b.views ++ [⟨true, [], false, .running⟩] }, n,
      [.createPanel n b.title b.html, .reveal n])

/-- Whether an event sent to a panel is accepted. -/
def accepts (b : Bridge) (n : Nat) : Bool :=
  match b.views[n]? with
  | some v => !v.closed && (v.relay == .running || v.relay == .leaving)
  | none => false

/-- An event is sent to a panel. -/
def send (b : Bridge) (n : Nat) (e : Event) : Bridge :=
  if b.accepts n then b.update n fun v => { v with channel := v.channel ++ [e] } else b

/-- Nothing more can be sent to a panel. -/
def close (b : Bridge) (n : Nat) : Bridge := b.update n ({ · with closed := true })

/-- The relay of a panel takes one event, or finds that none will come. The result is the value posted,
    if it was one; nothing if the relay cannot move. -/
def take? (b : Bridge) (n : Nat) : Option (Bridge × Option Json) :=
  match b.views[n]? with
  | none => none
  | some v =>
    match v.relay, v.channel with
    | .running, .message j :: es => some (b.update n ({ · with channel := es }), some j)
    | .running, .disposed :: es =>
      some (b.update n ({ · with channel := es, relay := .leaving }), none)
    | .running, [] => if v.closed then some (b.update n ({ · with relay := .leaving }), none) else none
    | _, _ => none

/-- The relay of a panel makes the bridge forget the panel if it is current. -/
def release (b : Bridge) (n : Nat) : Bridge :=
  match b.views[n]? with
  | some v =>
    if v.relay = .leaving then
      let b := b.update n ({ · with relay := .finished })
      if b.current = some n then { b with current := none } else b
    else b
  | none => b

/-- The session ends: the current panel is forgotten and its relay stopped. -/
def shutdown (b : Bridge) : Bridge :=
  match b.current with
  | some n =>
    { b.update n (fun v => { v with relay := if v.relay = .running then .aborted else v.relay }) with
      current := none }
  | none => b

/-- The host hides or shows a panel. -/
def setVisible (b : Bridge) (n : Nat) (visible : Bool) : Bridge := b.update n ({ · with visible })

end Bridge

end EditorBridge.Panel
