import EditorBridge.Proofs.Rpc.Outbox

/-!
# Acts

Most of what happens to the reading side of a connection is nothing to the rest of it: bytes arrive, the
reader finds that a frame is not complete. What matters to the rest are the acts (`Act`): a body on which
the reader acts, its end, and whatever has nothing to do with reading.

* `Ear.acts` -- the acts of a run, which the reading side alone decides;
* `Rest` -- all of a connection but the bytes that wait and whether more will come;
* **`rest_run`** -- the rest after a run is what its acts make of it.
-/

namespace EditorBridge.Rpc

/-! ## 1. The acts of a run -/

/-- What matters to the rest of a connection. -/
inductive Act where
  /-- An event that has nothing to do with reading. -/
  | does (e : Event)
  /-- The reader acts on a body. -/
  | hears (body : List UInt8)
  /-- The reader ends, perhaps because something is wrong. -/
  | ends (wrong : Option Frame.Error)

/-- The body on which the reader acts. -/
def Act.body? : Act → Option (List UInt8)
  | .hears body => some body
  | _ => none

namespace Ear

/-- The act in an event, if there is one. -/
def act (a : Ear) : Event → List Act
  | .receives _ => []
  | .hangsUp => []
  | .reads =>
    match a.found with
    | .frame body _ => [.hears body]
    | .wait => []
    | .finished => [.ends none]
    | .failed e => [.ends (some e)]
  | e => [.does e]

/-- The acts of a run. -/
def acts (a : Ear) : List Event → List Act
  | [] => []
  | e :: es => a.act e ++ (a.step e).acts es

theorem acts_append (a : Ear) (es fs : List Event) :
    a.acts (es ++ fs) = a.acts es ++ (es.foldl step a).acts fs := by
  induction es generalizing a with
  | nil => rfl
  | cons e es ih => rw [List.cons_append, acts, acts, ih, List.append_assoc, List.foldl_cons]

end Ear

/-! ## 2. The rest of a connection -/

/-- The notification that a message is, if it is one. -/
def Message.notification? (m : Message) : Option Notification :=
  match m.method, m.id with
  | some method, none => some ⟨method, m.params.getD .null⟩
  | _, _ => none

/-- Exactly what is sorted as a notification is one. -/
theorem Message.notification?_eq (m : Message) :
    m.notification? = match m.sort with
      | .notification method params => some ⟨method, params⟩
      | _ => none := by
  unfold notification? sort
  cases m.method with
  | some method => cases m.id <;> rfl
  | none =>
    cases m.id with
    | none => rfl
    | some id =>
      cases id with
      | text s => rfl
      | number n => cases m.error <;> rfl

/-- The notification in a body, if it holds one. -/
def notification? (body : List UInt8) : Option Notification :=
  (Message.ofBody? body).bind Message.notification?

/-- All of a connection but the bytes that wait and whether more will come. -/
structure Rest where
  reader : TaskState
  outbox : Outbox
  books : Books
  hasReceiver : Bool
  notifications : List Notification
  log : List LogLine

namespace Rest

/-- The messages that an event which is no reading puts into the queue. -/
def offered (s : Rest) : Event → List Outgoing
  | .notifies method params => [.notification method params]
  | .requests r => if s.reader = .ended then [] else [.request s.books.nextId r.method r.params]
  | _ => []

/-- What such an event means to the calls. -/
def happening (s : Rest) : Event → Happening
  | .requests r => .called s.books.nextId r (s.reader != .ended) (s.outbox.writer == .running)
  | _ => .nothing

/-- What is logged in such an event. -/
def complaints (s : Rest) : Event → List LogLine
  | .writes =>
    if s.outbox.writer = .running ∧ s.outbox.queue ≠ [] ∧ s.outbox.peerListens = false then
      [⟨.warn, "failed to write to the language server: broken pipe"⟩]
    else []
  | _ => []

/-- What is logged about a body. -/
def remarks (s : Rest) (body : List UInt8) : List LogLine :=
  match Incoming.ofBody? body with
  | none => [⟨.warn, "discarding malformed message from the language server"⟩]
  | some (.response id _) =>
    match s.books.pending.find? fun e => e.1 == id with
    | some _ => []
    | none => [⟨.warn, "response for an unknown request"⟩]
  | some .stray => [⟨.warn, "message is neither a request nor a response"⟩]
  | _ => []

/-- An event that is no reading. -/
def does (s : Rest) (e : Event) : Rest :=
  { reader := match e with
      | .aborts => if s.reader = .running then .aborted else s.reader
      | _ => s.reader
    outbox := s.outbox.step (s.offered e) e
    books := s.books.note (s.happening e)
    hasReceiver := match e with
      | .dropsReceiver => false
      | _ => s.hasReceiver
    notifications := s.notifications
    log := s.log ++ s.complaints e }

/-- The reader acts on a body. -/
def hears (s : Rest) (body : List UInt8) : Rest :=
  { s with
    outbox := s.outbox.post (reply? body).toList
    books := s.books.note (.ofBody body)
    notifications := s.notifications ++ if s.hasReceiver then (notification? body).toList else []
    log := s.log ++ s.remarks body }

/-- The reader ends. -/
def ends (s : Rest) (wrong : Option Frame.Error) : Rest :=
  { s with
    reader := .ended
    books := s.books.note .ended
    log := s.log ++ wrong.toList.map fun e =>
      ⟨.warn, "failed to read from the language server: " ++ e.message⟩ }

/-- One act. -/
def act (s : Rest) : Act → Rest
  | .does e => s.does e
  | .hears body => s.hears body
  | .ends wrong => s.ends wrong

/-- What no act looks at may be left out of account from the beginning. -/
theorem acts_congr {f : Rest → Rest} (hf : ∀ s x, f ((f s).act x) = f (s.act x)) {s t : Rest}
    (h : f s = f t) (xs : List Act) : f (xs.foldl act s) = f (xs.foldl act t) := by
  induction xs generalizing s t with
  | nil => exact h
  | cons x xs ih =>
    refine ih ?_
    rw [← hf s, h, hf t]

end Rest

/-! ## 3. What an act does to each part -/

/-- What becomes of notifications and complaints. -/
structure Sink where
  hasReceiver : Bool
  notifications : List Notification
  log : List LogLine

/-- What the rest keeps of them. -/
def Rest.sink (s : Rest) : Sink := ⟨s.hasReceiver, s.notifications, s.log⟩

namespace Connection

/-- What a connection keeps of them. -/
def sink (c : Connection) : Sink := ⟨c.hasReceiver, c.notifications, c.log⟩

/-- The connection without the bytes that wait. -/
def rest (c : Connection) : Rest :=
  ⟨c.reader, c.outbox, c.books, c.hasReceiver, c.notifications, c.log⟩

theorem rest_eq {c : Connection} {s : Rest} (hr : c.reader = s.reader) (ho : c.outbox = s.outbox)
    (hb : c.books = s.books) (hs : c.sink = s.sink) : c.rest = s := by
  obtain ⟨reader, outbox, books, hasReceiver, notifications, log⟩ := s
  cases hr
  cases ho
  cases hb
  cases hs
  rfl

/-- A connection is its reading side and the rest. -/
theorem eq_of_rest {c d : Connection} (he : c.ear = d.ear) (hr : c.rest = d.rest) : c = d := by
  obtain ⟨⟩ := c
  obtain ⟨⟩ := d
  cases he
  cases hr
  rfl

theorem sink_submit (c : Connection) (m : Outgoing) : (c.submit m).sink = c.sink := by
  unfold submit
  split
  · rfl
  · rfl

theorem sink_notify (c : Connection) (method : String) (params : Option Json) :
    (c.notify method params).2.sink = c.sink := by
  unfold notify
  split
  · exact sink_submit c _
  · rfl

theorem sink_request (c : Connection) (r : Request) : (c.request r).2.sink = c.sink := by
  by_cases hr : c.reader = .ended
  · rw [request_of_ended hr]
    rfl
  · cases ha : c.accepts with
    | true =>
      rw [request_of_accepted hr ha]
      rfl
    | false =>
      rw [request_of_refused hr ha]
      rfl

theorem sink_writeFrame (c : Connection) :
    (c.writeFrame?.getD c).sink = { c.sink with log := c.log ++ c.rest.complaints .writes } := by
  obtain ⟨_, _, queue, _, writer, _, _, peerListens, _, _, _, _, _, _, log⟩ := c
  have hnil : ∀ hasReceiver notifications, (⟨hasReceiver, notifications, log⟩ : Sink) =
      ⟨hasReceiver, notifications, log ++ []⟩ := fun _ _ => by rw [List.append_nil]
  cases writer with
  | ended => exact hnil _ _
  | aborted => exact hnil _ _
  | running =>
    cases queue with
    | nil => exact hnil _ _
    | cons m ms =>
      cases peerListens with
      | true => exact hnil _ _
      | false => rfl

theorem sink_deliver (c : Connection) (n : Notification) :
    (c.deliver n).sink =
      ⟨c.hasReceiver, c.notifications ++ if c.hasReceiver then [n] else [], c.log ++ []⟩ := by
  rw [deliver, List.append_nil]
  split
  · rfl
  · rw [List.append_nil]
    rfl

theorem sink_handle (c : Connection) (body : List UInt8) :
    (c.handle body).sink = (c.rest.hears body).sink := by
  have hnil : ∀ log, (⟨c.hasReceiver, c.notifications, log⟩ : Sink) =
      ⟨c.hasReceiver, c.notifications ++ if c.hasReceiver then [] else [], log⟩ := fun _ => by
    rw [ite_self, List.append_nil]
  have hquiet : c.sink =
      ⟨c.hasReceiver, c.notifications ++ if c.hasReceiver then [] else [], c.log ++ []⟩ := by
    rw [← hnil, List.append_nil]
    rfl
  unfold Rest.hears handle Rest.remarks Incoming.ofBody? notification?
  cases Message.ofBody? body with
  | none => exact hnil _
  | some m =>
    simp only [Option.map_some, Option.bind_some, m.notification?_eq]
    cases m.sort with
    | request method id params => exact (sink_submit c _).trans hquiet
    | notification method params => exact sink_deliver c ⟨method, params⟩
    | response id o =>
      have hp : c.rest.books.pending = c.pending := rfl
      simp only [settleResponse, hp]
      cases c.pending.find? fun e => e.1 == id with
      | some e => exact hquiet
      | none => exact hnil _
    | stray => exact hnil _

theorem rest_handle {c : Connection} (h : c.InOrder) (body : List UInt8) :
    (c.handle body).rest = c.rest.hears body :=
  rest_eq (congrArg Ear.reader (ear_handle c body)) (outbox_handle c body)
    (books_handle h.books.keys body) (sink_handle c body)

theorem rest_endReader (c : Connection) : c.endReader.rest = c.rest.ends none :=
  rest_eq rfl rfl (books_endReader c) (congrArg (Sink.mk _ _) (List.append_nil _).symm)

theorem rest_reads {c : Connection} (h : c.InOrder) :
    (c.step .reads).rest = (c.ear.act .reads).foldl Rest.act c.rest := by
  rw [step_reads, Ear.act]
  cases c.ear.found with
  | frame body rest => exact rest_handle (c := { c with inbox := rest }) ⟨h.books, h.closed⟩ body
  | wait => rfl
  | finished => exact rest_endReader c
  | failed e => exact rest_eq rfl rfl (books_endReader c) rfl

/-- **What an event does to the rest of a connection** are its acts. -/
theorem rest_step {c : Connection} (h : c.InOrder) (e : Event) :
    (c.step e).rest = (c.ear.act e).foldl Rest.act c.rest := by
  have hquiet : c.sink = ⟨c.hasReceiver, c.notifications, c.log ++ []⟩ :=
    congrArg (Sink.mk _ _) (List.append_nil _).symm
  have hbooks := books_step h.books.keys e
  cases e with
  | notifies method params =>
    exact rest_eq (congrArg Ear.reader (ear_notify c method params)) (outbox_notify c method params)
      hbooks ((sink_notify c method params).trans hquiet)
  | requests r =>
    exact rest_eq (congrArg Ear.reader (ear_request c r)) (outbox_request c r) hbooks
      ((sink_request c r).trans hquiet)
  | receives bs =>
    rw [step, receive]
    split
    · rfl
    · rfl
  | hangsUp => rfl
  | deafens => exact rest_eq rfl rfl hbooks hquiet
  | dropsReceiver =>
    exact rest_eq rfl (Outbox.post_nil _).symm hbooks (congrArg (Sink.mk _ _) (List.append_nil _).symm)
  | aborts => exact rest_eq rfl rfl hbooks hquiet
  | reads => exact rest_reads h
  | writes =>
    exact rest_eq (congrArg Ear.reader (ear_writeFrame c)) (outbox_writeFrame c) hbooks
      (sink_writeFrame c)

/-! ## 4. What a run does -/

/-- The acts of a run. -/
def acts (c : Connection) (es : List Event) : List Act := c.ear.acts es

/-- **The rest after a run is what its acts make of it.** -/
theorem rest_run {c : Connection} (h : c.InOrder) (es : List Event) :
    (c.run es).rest = (c.acts es).foldl Rest.act c.rest := by
  induction es generalizing c with
  | nil => rfl
  | cons e es ih =>
    rw [run_cons, ih (inOrder_step h e), rest_step h e, acts, acts, Ear.acts, List.foldl_append,
      ear_step]

/-- The bodies on which the reader acts are those among the acts. -/
theorem bodies_eq_acts (c : Connection) (es : List Event) :
    c.bodies es = (c.acts es).filterMap Act.body? := by
  have hacting : ∀ (a : Ear) (e : Event), a.acting e = (a.act e).filterMap Act.body? := by
    intro a e
    cases e with
    | reads =>
      rw [Ear.acting, Ear.nextBody?, Ear.act]
      cases a.found <;> rfl
    | _ => rfl
  induction es generalizing c with
  | nil => rfl
  | cons e es ih =>
    have hlater := ih (c.step e)
    rw [bodies, acts, ear_step] at hlater
    rw [bodies, trace, acts, Ear.acts, List.filterMap_append, hlater, hacting]

end Connection

end EditorBridge.Rpc
