import EditorBridge.Log
import EditorBridge.Rpc.Request

/-!
# A connection to the language server

A `Connection` is the bridge's end of a stream: the requests that wait for their response, the frames
that have been accepted but not written, the bytes that have arrived but not been read. It also keeps
what has happened so far: the bytes written, the notifications delivered, the calls made and completed,
the lines logged, and all messages ever accepted. Those lists only grow.

The call of a request is known by its place among all calls. On the wire it has a number, under which it
waits in the table; numbers are 64-bit and wrap, so that after enough calls one is given again.

* `notify`, `request` and the answers to the server's own requests put frames into one queue.
* `writeFrame` writes the first frame of the queue; `readFrame` reads one frame that has arrived. Each
  is one turn of a task that runs for itself; `settle` lets both run until nothing is left to do.
* The reader ends with the stream or at the first thing that is no frame; then every waiting request
  completes as closed. The writer ends when a write fails; then nothing more is accepted.
* `abort` stops both tasks where they stand.
-/

namespace EditorBridge.Rpc

/-- What became of the task that reads or writes. -/
inductive TaskState where
  | running
  | ended
  | aborted
  deriving DecidableEq, Repr

/-- A notification from the server. -/
structure Notification where
  method : String
  params : Json

/-- A call that waits for its response. -/
structure Waiter where
  /-- Its place among all calls. -/
  call : Nat
  request : Request

/-- The bridge's end of a stream. -/
structure Connection where
  /-- The number of the next request. -/
  nextId : Int64
  /-- The calls that wait for a response, under their numbers and in the order in which they were made. -/
  pending : List (Int64 × Waiter)
  /-- The messages accepted and not yet written. -/
  queue : List Outgoing
  reader : TaskState
  writer : TaskState
  /-- The bytes that have arrived and have not been read. -/
  inbox : List UInt8
  /-- Whether the peer has stopped sending. -/
  peerDone : Bool
  /-- Whether the peer still takes what is written. -/
  peerListens : Bool
  /-- Whether someone still takes the notifications. -/
  hasReceiver : Bool
  /-- The messages accepted so far, written or not. -/
  accepted : List Outgoing
  wire : List UInt8
  notifications : List Notification
  /-- The requests made so far, with their numbers. -/
  calls : List (Int64 × Request)
  /-- The calls completed so far, by their places, with what became of them. -/
  completed : List (Nat × Except CallError Reply)
  log : List LogLine

namespace Connection

/-- A fresh connection. -/
def start : Connection :=
  { nextId := 1, pending := [], queue := [], reader := .running, writer := .running, inbox := []
    peerDone := false, peerListens := true, hasReceiver := true, accepted := []
    wire := [], notifications := [], calls := [], completed := [], log := [] }

/-! ## 1. What the bridge does -/

/-- Whether a message put into the queue is accepted. -/
def accepts (c : Connection) : Bool := c.writer == .running

/-- Puts a message into the queue, if it is accepted. -/
def submit (c : Connection) (m : Outgoing) : Connection :=
  if c.accepts then { c with queue := c.queue ++ [m], accepted := c.accepted ++ [m] } else c

/-- Logs a warning. -/
def warn (c : Connection) (message : String) : Connection := { c with log := c.log ++ [⟨.warn, message⟩] }

/-- Completes a call. -/
def complete (c : Connection) (call : Nat) (outcome : Except CallError Reply) : Connection :=
  { c with completed := c.completed ++ [(call, outcome)] }

/-- Sends a notification. -/
def notify (c : Connection) (method : String) (params : Option Json) :
    Except CallError Unit × Connection :=
  if c.accepts then (.ok (), c.submit (.notification method params)) else (.error .closed, c)

/-- The first step of a request: it takes the next number. -/
def takeId (c : Connection) : Int64 × Connection := (c.nextId, { c with nextId := c.nextId + 1 })

/-- The waiting calls whose numbers satisfy `p` complete as closed. -/
def close (c : Connection) (p : Int64 → Bool) : Connection :=
  { c with
    pending := c.pending.filter fun e => !p e.1
    completed := c.completed ++ (c.pending.filter fun e => p e.1).map fun e => (e.2.call, .error .closed) }

/-- The second step of a request: its call is entered into the table, unless the reader has ended. An
    older call that waits under the same number gives way. -/
def register (c : Connection) (id : Int64) (w : Waiter) : Option Connection :=
  if c.reader = .ended then none
  else
    let c := c.close (· == id)
    some { c with pending := c.pending ++ [(id, w)] }

/-- Takes a call out of the table. -/
def unregister (c : Connection) (id : Int64) : Connection :=
  { c with pending := c.pending.filter fun e => e.1 != id }

/-- Makes a request and tells the place of its call. It completes at once if the reader has ended or if
    its frame is not accepted; else it waits in the table. -/
def request (c : Connection) (r : Request) : Nat × Connection :=
  let call := c.calls.length
  let (id, c) := c.takeId
  let c := { c with calls := c.calls ++ [(id, r)] }
  match c.register id ⟨call, r⟩ with
  | none => (call, c.complete call (.error .closed))
  | some c =>
    if c.accepts then (call, c.submit (.request id r.method r.params))
    else (call, (c.unregister id).complete call (.error .closed))

/-- What became of a call, once it has completed. -/
def outcome? (c : Connection) (call : Nat) : Option (Except CallError Reply) :=
  (c.completed.find? fun e => e.1 == call).map (·.2)

/-- Stops both tasks where they stand. What waits in the queue is lost. -/
def abort (c : Connection) : Connection :=
  let stop (t : TaskState) : TaskState := if t = .running then .aborted else t
  { c with reader := stop c.reader, writer := stop c.writer, queue := [] }

/-- Nobody takes the notifications any more. -/
def dropReceiver (c : Connection) : Connection := { c with hasReceiver := false }

/-! ## 2. What the peer does -/

/-- Whether bytes from the peer would arrive. -/
def peerCanSend (c : Connection) : Bool := !c.peerDone && c.reader == .running

/-- Bytes arrive from the peer. -/
def receive (c : Connection) (bs : List UInt8) : Connection :=
  if c.peerCanSend then { c with inbox := c.inbox ++ bs } else c

/-- The peer stops sending. -/
def hangUp (c : Connection) : Connection := { c with peerDone := true }

/-- The peer stops taking what is written. -/
def deafen (c : Connection) : Connection := { c with peerListens := false }

/-! ## 3. What the tasks do -/

/-- A response arrives: the call that waits under its number completes; any other response is logged. -/
def settleResponse (c : Connection) (id : Int64) (outcome : Except ResponseError Json) : Connection :=
  match c.pending.find? fun e => e.1 == id with
  | some (_, w) => (c.unregister id).complete w.call (w.request.outcome outcome)
  | none => c.warn "response for an unknown request"

/-- A notification arrives. -/
def deliver (c : Connection) (n : Notification) : Connection :=
  if c.hasReceiver then { c with notifications := c.notifications ++ [n] } else c

/-- Acts on the body of a frame. -/
def handle (c : Connection) (body : List UInt8) : Connection :=
  match Incoming.ofBody? body with
  | none => c.warn "discarding malformed message from the language server"
  | some (.request method id params) => c.submit (.response id (answer method params))
  | some (.notification method params) => c.deliver ⟨method, params⟩
  | some (.response id outcome) => c.settleResponse id outcome
  | some .stray => c.warn "message is neither a request nor a response"

/-- Every waiting call completes as closed. -/
def failPending (c : Connection) : Connection := c.close fun _ => true

/-- The reader ends. -/
def endReader (c : Connection) : Connection := { c.failPending with reader := .ended }

/-- One turn of the reader: it acts on one frame, or ends. Nothing if no whole frame has arrived. -/
def readFrame? (c : Connection) : Option Connection :=
  if c.reader = .running then
    match Frame.read c.peerDone c.inbox with
    | .frame body rest => some ({ c with inbox := rest }.handle body)
    | .wait => none
    | .finished => some c.endReader
    | .failed e => some (c.warn ("failed to read from the language server: " ++ e.message)).endReader
  else none

/-- The writer finds that the peer does not listen. -/
def endWriter (c : Connection) : Connection :=
  { c with queue := [], writer := .ended }.warn "failed to write to the language server: broken pipe"

/-- One turn of the writer: it writes one frame, or ends. Nothing if the queue is empty. -/
def writeFrame? (c : Connection) : Option Connection :=
  match c.writer, c.queue with
  | .running, m :: ms =>
    if c.peerListens then some { c with queue := ms, wire := c.wire ++ m.frame } else some c.endWriter
  | _, _ => none

/-! ## 4. Letting the tasks run -/

/-- The reader's turns until it has nothing to do, one unit of fuel each. -/
def readMany : Nat → Connection → Connection
  | 0, c => c
  | fuel + 1, c =>
    match c.readFrame? with
    | some c => readMany fuel c
    | none => c

/-- The writer's turns until it has nothing to do. -/
def writeMany : Nat → Connection → Connection
  | 0, c => c
  | fuel + 1, c =>
    match c.writeFrame? with
    | some c => writeMany fuel c
    | none => c

/-- Both tasks run until neither has anything to do. A frame has at least one byte and writing gives the
    reader nothing new, so that one pass of each is enough. -/
def settle (c : Connection) : Connection :=
  let c := readMany (c.inbox.length + 1) c
  writeMany (c.queue.length + 1) c

end Connection

end EditorBridge.Rpc
