import EditorBridge.Duration
import EditorBridge.Text.Utf8

/-!
# The server process

* `ExitStatus.text` says how a process ended.
* `outputLines` cuts what a process prints into the lines that are logged.
* `Supervisor` is the monitor of one process: an automaton whose events are the process ending, the
  request to let it end, the handle being dropped, time going by, and the monitor's own turns. Where the
  process has ended and there is a request, the watching monitor takes either (`Event.seesExit`,
  `Event.takesRequest`). That the grace period is over and that the monitor finds so are two things: the
  process may end between them, and a waiting monitor looks at the process before it looks at its timer
  (`Event.looks`).

The clock is the one that timers follow: once a timer is over, it goes on only when the monitor that the timer
has woken has looked. How long a busy machine keeps a woken monitor waiting is real time, and not told here.
-/

namespace EditorBridge

open Text

/-! ## 1. Exit statuses -/

/-- How a process ended, as the system reports it. -/
structure ExitStatus where
  raw : Int32
  deriving DecidableEq, Repr

namespace ExitStatus

/-- The signal that ended the process; `127` in its place stands for a process that has not ended. -/
def low7 (s : ExitStatus) : Nat := (s.raw.toInt % 128).toNat

/-- The exit code of a process that ended by itself. -/
def code (s : ExitStatus) : Nat := (s.raw.toInt / 256 % 256).toNat

/-- How a process ended, in words. -/
def text (s : ExitStatus) : String :=
  if s.low7 = 0 then "code " ++ Numeral.ofNat s.code
  else if s.low7 = 127 then "an unknown status"
  else "signal " ++ Numeral.ofNat s.low7

/-- The status of a process that ended with a code. -/
def ofCode (n : Nat) : ExitStatus := ⟨Int32.ofNat (n % 256 * 256)⟩

end ExitStatus

/-! ## 2. Printed lines -/

/-- Without one carriage return at the end of the reversed line `cur`. -/
def dropReturn : List UInt8 → List UInt8
  | 0x0D :: cur => cur
  | cur => cur

/-- The lines of a stream, when the line `cur` (reversed) has been begun. A line ends at a line feed,
    with one carriage return before it dropped; what is left at the end is a line unless it is empty. -/
def segmentsFrom (cur : List UInt8) : List UInt8 → List (List UInt8)
  | [] => if cur.isEmpty then [] else [cur.reverse]
  | b :: r => if b = 0x0A then (dropReturn cur).reverse :: segmentsFrom [] r else segmentsFrom (b :: cur) r

/-- The lines of a stream as bytes. -/
def segments (bs : List UInt8) : List (List UInt8) := segmentsFrom [] bs

/-- The texts before the first element that is not text. -/
def textsBefore : List (List UInt8) → List String
  | [] => []
  | l :: ls =>
    match Utf8.decode? l with
    | some s => s :: textsBefore ls
    | none => []

/-- The lines that are logged of a stream: those before the first one that is not UTF-8. -/
def outputLines (bs : List UInt8) : List String := textsBefore (segments bs)

/-! ## 3. Supervision -/

/-- How the process ended, seen from whoever let go of it. -/
inductive Termination where
  /-- It had ended before it was asked to. -/
  | alreadyExited (status : ExitStatus)
  /-- It ended by itself within the grace period. -/
  | exited (status : ExitStatus)
  /-- It was killed. -/
  | killed
  deriving DecidableEq, Repr

/-- The supervised process. -/
inductive Child where
  | running
  | ended (status : ExitStatus)
  | killed
  deriving DecidableEq, Repr

/-- What the monitor is doing. -/
inductive Monitor where
  /-- It waits for the process to end or for a request. -/
  | watching
  /-- It has taken the request and waits for the process to end, or for its timer, which is set to the
      deadline. -/
  | waiting (deadline : Nat)
  | finished (outcome : Termination)
  deriving DecidableEq, Repr

/-- What the holder of the handle has done. -/
inductive Holder where
  | holding
  /-- It has asked for the end, with a grace period. -/
  | asked (grace : Duration)
  | dropped
  deriving DecidableEq, Repr

/-- The grace period that the monitor finds when it takes the request; a dropped handle grants none. -/
def Holder.grace : Holder → Duration
  | .asked grace => grace
  | _ => ⟨0⟩

/-- The state of one supervised process. The clock counts milliseconds. -/
structure Supervisor where
  clock : Nat
  child : Child
  monitor : Monitor
  holder : Holder
  deriving DecidableEq, Repr

namespace Supervisor

/-- What can happen to a supervised process. -/
inductive Event where
  /-- The process ends by itself. -/
  | exits (status : ExitStatus)
  /-- The holder asks for the end. -/
  | asks (grace : Duration)
  /-- The holder drops the handle. -/
  | drops
  /-- Time goes by. -/
  | passes (millis : Nat)
  /-- The watching monitor finds that the process has ended. -/
  | seesExit
  /-- The watching monitor takes the request, or finds the handle dropped, and sets its timer. -/
  | takesRequest
  /-- The waiting monitor looks at the process, and then at its timer. -/
  | looks
  deriving DecidableEq, Repr

/-- A process that has just been started. -/
def start : Supervisor := ⟨0, .running, .watching, .holding⟩

/-- One event; nothing if it cannot happen in this state. -/
def step? (s : Supervisor) : Event → Option Supervisor
  | .exits status => if s.child = .running then some { s with child := .ended status } else none
  | .asks grace => if s.holder = .holding then some { s with holder := .asked grace } else none
  | .drops => if s.holder = .holding then some { s with holder := .dropped } else none
  | .passes millis =>
    match s.monitor with
    | .waiting deadline =>
      -- the timer wakes the monitor at the deadline, and the clock stands still until it has looked
      if s.clock + millis ≤ deadline then some { s with clock := s.clock + millis } else none
    | _ => some { s with clock := s.clock + millis }
  | .seesExit =>
    match s.child, s.monitor with
    | .ended status, .watching => some { s with monitor := .finished (.alreadyExited status) }
    | _, _ => none
  | .takesRequest =>
    if s.monitor = .watching ∧ s.holder ≠ .holding then
      some { s with monitor := .waiting (s.clock + s.holder.grace.millis) }
    else none
  | .looks =>
    match s.child, s.monitor with
    | .ended status, .waiting _ => some { s with monitor := .finished (.exited status) }
    | .running, .waiting deadline =>
      if deadline ≤ s.clock then some { s with child := .killed, monitor := .finished .killed } else some s
    | _, _ => none

/-- A sequence of events. -/
def run? (s : Supervisor) : List Event → Option Supervisor
  | [] => some s
  | e :: es => (s.step? e).bind fun s => run? s es

/-- How the process ended, once the monitor has finished. -/
def outcome? (s : Supervisor) : Option Termination :=
  match s.monitor with
  | .finished t => some t
  | _ => none

end Supervisor

end EditorBridge
