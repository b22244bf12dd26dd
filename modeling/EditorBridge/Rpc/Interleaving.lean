import EditorBridge.Rpc.Connection

/-!
# Requests made at the same time

`Interleaving` cuts the calls of requests and the end of the reader into steps that nothing interrupts,
and lets the steps of any number of calls happen in any order:

* A call takes its number; it enters itself into the table, unless the reader has said that it ends; it
  submits its frame; and if the frame is refused, it takes what stands under its number out of the table
  again.
* The reader acts on one body after another. At its end it first says so and then clears the table.

`Connection.request` is a call whose steps follow one another at once, and `Connection.endReader` an end
whose two steps do. Here the list `completed` of the connection holds what became of the entries of the
table; `result?` says what a call returns.
-/

namespace EditorBridge.Rpc

/-- How far a call has come. -/
inductive CallStage where
  | begun
  | numbered (id : Int64)
  /-- Its entry is in the table. -/
  | entered (id : Int64)
  /-- Its frame was refused. -/
  | refused (id : Int64)
  /-- Its frame was accepted; now it waits for what becomes of its entry. -/
  | waiting (id : Int64)
  /-- It has returned that the connection is closed. -/
  | closed (id : Int64)
  deriving DecidableEq, Repr

/-- The number of a call, once it has one. -/
def CallStage.id? : CallStage → Option Int64
  | begun => none
  | numbered id | entered id | refused id | waiting id | closed id => some id

/-- The call of a request. -/
structure Call where
  request : Request
  stage : CallStage

/-- A connection, and calls that are made of it. -/
structure Interleaving where
  connection : Connection
  /-- The calls in the order in which they began. -/
  calls : List Call
  /-- Whether the reader has cleared the table. -/
  cleared : Bool

namespace Interleaving

/-- A fresh connection without calls. -/
def start : Interleaving := ⟨.start, [], false⟩

/-- One uninterrupted step. Calls are named by their place in the list. -/
inductive Event where
  | begins (r : Request)
  | takesNumber (n : Nat)
  | enters (n : Nat)
  | submits (n : Nat)
  | withdraws (n : Nat)
  /-- The reader acts on the body of a frame. -/
  | reads (body : List UInt8)
  /-- The reader says that it ends. -/
  | announcesEnd
  | clears
  /-- One turn of the writer. -/
  | writes
  /-- The peer takes nothing more, so that the next write ends the writer. -/
  | deafens

/-- Puts a call at another stage, beside a new connection. -/
def moveTo (s : Interleaving) (n : Nat) (stage : CallStage) (c : Connection) : Interleaving :=
  { s with connection := c, calls := s.calls.modify n ({ · with stage }) }

/-- A step of one call; nothing if it is not the next step of that call. -/
def callStep? (s : Interleaving) (n : Nat) (k : Call → Option (CallStage × Connection)) :
    Option Interleaving :=
  s.calls[n]?.bind fun call => (k call).map fun (stage, c) => s.moveTo n stage c

/-- One step; nothing if it cannot happen. -/
def step? (s : Interleaving) : Event → Option Interleaving
  | .begins r => some { s with calls := s.calls ++ [⟨r, .begun⟩] }
  | .takesNumber n => s.callStep? n fun call =>
    match call.stage with
    | .begun => some (.numbered s.connection.takeId.1, s.connection.takeId.2)
    | _ => none
  | .enters n => s.callStep? n fun call =>
    match call.stage with
    | .numbered id =>
      match s.connection.register id ⟨n, call.request⟩ with
      | some c => some (.entered id, c)
      | none => some (.closed id, s.connection)
    | _ => none
  | .submits n => s.callStep? n fun call =>
    match call.stage with
    | .entered id =>
      if s.connection.accepts then
        some (.waiting id, s.connection.submit (.request id call.request.method call.request.params))
      else some (.refused id, s.connection)
    | _ => none
  | .withdraws n => s.callStep? n fun call =>
    match call.stage with
    | .refused id => some (.closed id, s.connection.close (· == id))
    | _ => none
  | .reads body =>
    if s.connection.reader = .running then some { s with connection := s.connection.handle body } else none
  | .announcesEnd =>
    if s.connection.reader = .running then
      some { s with connection := { s.connection with reader := .ended } }
    else none
  | .clears =>
    if s.connection.reader = .ended ∧ s.cleared = false then
      some { s with connection := s.connection.failPending, cleared := true }
    else none
  | .writes => s.connection.writeFrame?.map fun c => { s with connection := c }
  | .deafens => some { s with connection := s.connection.deafen }

/-- A sequence of steps. -/
def run? (s : Interleaving) : List Event → Option Interleaving
  | [] => some s
  | e :: es => (s.step? e).bind fun s => run? s es

/-- What a call returns, once it does: a waiting call returns what became of its entry. -/
def result? (s : Interleaving) (n : Nat) : Option (Except CallError Reply) :=
  s.calls[n]?.bind fun call =>
    match call.stage with
    | .closed _ => some (.error .closed)
    | .waiting _ => s.connection.outcome? n
    | _ => none

end Interleaving

end EditorBridge.Rpc
