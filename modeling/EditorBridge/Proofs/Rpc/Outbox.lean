import EditorBridge.Proofs.Rpc.Accounts

/-!
# Messages on their way out

The writer, its queue, what has been accepted and what has been written are a machine of their own
(`Outbox`). The rest of a connection has one say in it: the messages that an event puts into the queue
(`offered`).

* `outbox_step` -- all that an event does to the outbox;
* **`accepted_run`** -- what has been accepted, told by the results of the calls: the notifications that
  were sent, the requests that were not refused, and the answers to requests of the peer.
-/

namespace EditorBridge.Rpc

/-! ## 1. The writing side -/

/-- What the writer works on. -/
structure Outbox where
  writer : TaskState
  peerListens : Bool
  queue : List Outgoing
  accepted : List Outgoing
  wire : List UInt8

namespace Outbox

/-- Messages are put into the queue, if they are accepted. -/
def post (o : Outbox) (ms : List Outgoing) : Outbox :=
  if o.writer = .running then { o with queue := o.queue ++ ms, accepted := o.accepted ++ ms } else o

/-- A turn of the writer. -/
def write (o : Outbox) : Outbox :=
  match o.writer, o.queue with
  | .running, m :: ms =>
    if o.peerListens then { o with queue := ms, wire := o.wire ++ m.frame }
    else { o with queue := [], writer := .ended }
  | _, _ => o

/-- One event, which puts the messages `ms` into the queue. -/
def step (o : Outbox) (ms : List Outgoing) : Event → Outbox
  | .deafens => { o with peerListens := false }
  | .aborts =>
    { o with queue := [], writer := if o.writer = .running then .aborted else o.writer }
  | .writes => o.write
  | _ => o.post ms

@[simp] theorem post_nil (o : Outbox) : o.post [] = o := by
  unfold post
  split
  · rw [List.append_nil, List.append_nil]
  · rfl

theorem post_of_running {o : Outbox} (h : o.writer = .running) (ms : List Outgoing) :
    o.post ms = { o with queue := o.queue ++ ms, accepted := o.accepted ++ ms } := if_pos h

theorem post_of_not_running {o : Outbox} (h : o.writer ≠ .running) (ms : List Outgoing) :
    o.post ms = o := if_neg h

theorem write_of_listens {o : Outbox} (hw : o.writer = .running) (hl : o.peerListens = true)
    {m : Outgoing} {ms : List Outgoing} (hq : o.queue = m :: ms) :
    o.write = { o with queue := ms, wire := o.wire ++ m.frame } := by
  rw [write, hw, hq]
  exact if_pos hl

theorem write_of_deaf {o : Outbox} (hw : o.writer = .running) (hl : o.peerListens = false)
    (hq : o.queue ≠ []) : o.write = { o with queue := [], writer := .ended } := by
  cases hc : o.queue with
  | nil => exact absurd hc hq
  | cons m ms =>
    rw [write, hw, hc]
    exact if_neg (by rw [hl]; exact Bool.false_ne_true)

theorem write_of_idle {o : Outbox} (hq : o.queue = []) : o.write = o := by
  unfold write
  split
  · rename_i hm
    cases hm.symm.trans hq
  · rfl

theorem write_of_not_running {o : Outbox} (hw : o.writer ≠ .running) : o.write = o := by
  unfold write
  split
  · rename_i hr _
    exact absurd hr hw
  · rfl

theorem accepted_write (o : Outbox) : o.write.accepted = o.accepted := by
  unfold write
  split
  · split
    · rfl
    · rfl
  · rfl

end Outbox

/-! ## 2. What an event puts into the queue -/

/-- The answer to a message, if it is a request. -/
def Message.reply? (m : Message) : Option Outgoing :=
  match m.method, m.id with
  | some method, some id => some (.response id (answer method m.params))
  | _, _ => none

/-- The answer to a body, if it holds a request. -/
def reply? (body : List UInt8) : Option Outgoing := (Message.ofBody? body).bind Message.reply?

/-- Exactly what is sorted as a request has an answer. -/
theorem Message.reply?_eq (m : Message) :
    m.reply? = match m.sort with
      | .request method id params => some (.response id (answer method params))
      | _ => none := by
  unfold reply? sort
  cases m.method with
  | some method => cases m.id <;> rfl
  | none =>
    cases m.id with
    | none => rfl
    | some id =>
      cases id with
      | text s => rfl
      | number n => cases m.error <;> rfl

namespace Connection

/-- The writing side of a connection. -/
def outbox (c : Connection) : Outbox := ⟨c.writer, c.peerListens, c.queue, c.accepted, c.wire⟩

/-- The messages that an event puts into the queue if they are accepted. -/
def offered (c : Connection) : Event → List Outgoing
  | .notifies method params => [.notification method params]
  | .requests r => if c.reader = .ended then [] else [.request c.nextId r.method r.params]
  | .reads => (c.ear.nextBody?.bind reply?).toList
  | _ => []

theorem accepts_iff (c : Connection) : c.accepts = true ↔ c.outbox.writer = .running := beq_iff_eq

theorem outbox_submit (c : Connection) (m : Outgoing) : (c.submit m).outbox = c.outbox.post [m] := by
  cases ha : c.accepts with
  | true =>
    rw [submit, ha, Outbox.post_of_running ((accepts_iff c).mp ha)]
    rfl
  | false =>
    have hw : c.outbox.writer ≠ .running := fun h => by
      rw [(accepts_iff c).mpr h] at ha
      cases ha
    rw [submit, ha, Outbox.post_of_not_running hw]
    rfl

theorem outbox_notify (c : Connection) (method : String) (params : Option Json) :
    (c.notify method params).2.outbox = c.outbox.post [.notification method params] := by
  rw [← outbox_submit]
  cases ha : c.accepts with
  | true =>
    rw [notify_of_accepted ha]
  | false =>
    rw [notify_of_refused ha, submit, ha]
    rfl

theorem outbox_request (c : Connection) (r : Request) :
    (c.request r).2.outbox = c.outbox.post (c.offered (.requests r)) := by
  by_cases hr : c.reader = .ended
  · rw [request_of_ended hr, offered, if_pos hr, Outbox.post_nil]
    rfl
  · rw [offered, if_neg hr, ← outbox_submit]
    cases ha : c.accepts with
    | true =>
      rw [request_of_accepted hr ha, submit, ha]
      rfl
    | false =>
      rw [request_of_refused hr ha, submit, ha]
      rfl

theorem outbox_handle (c : Connection) (body : List UInt8) :
    (c.handle body).outbox = c.outbox.post (reply? body).toList := by
  unfold handle Incoming.ofBody? reply?
  cases Message.ofBody? body with
  | none => exact (Outbox.post_nil _).symm
  | some m =>
    rw [Option.map_some, Option.bind_some, m.reply?_eq]
    cases m.sort with
    | request method id params => exact outbox_submit c _
    | notification method params =>
      simp only [deliver]
      split
      · exact (Outbox.post_nil _).symm
      · exact (Outbox.post_nil _).symm
    | response id o =>
      simp only [settleResponse]
      split
      · exact (Outbox.post_nil _).symm
      · exact (Outbox.post_nil _).symm
    | stray => exact (Outbox.post_nil _).symm

theorem outbox_receive (c : Connection) (bs : List UInt8) : (c.receive bs).outbox = c.outbox := by
  unfold receive
  split
  · rfl
  · rfl

theorem outbox_reads (c : Connection) :
    (c.step .reads).outbox = c.outbox.post (c.offered .reads) := by
  rw [step_reads, offered, Ear.nextBody?]
  cases c.ear.found with
  | frame body rest => exact outbox_handle { c with inbox := rest } body
  | wait => exact (Outbox.post_nil _).symm
  | finished => exact (Outbox.post_nil _).symm
  | failed e => exact (Outbox.post_nil _).symm

theorem outbox_writeFrame (c : Connection) : (c.writeFrame?.getD c).outbox = c.outbox.write := by
  obtain ⟨_, _, queue, _, writer, _, _, peerListens, _, _, _, _, _, _, _⟩ := c
  cases writer with
  | ended => rfl
  | aborted => rfl
  | running =>
    cases queue with
    | nil => rfl
    | cons m ms => cases peerListens <;> rfl

/-- **All that an event does to the outbox.** -/
theorem outbox_step (c : Connection) (e : Event) :
    (c.step e).outbox = c.outbox.step (c.offered e) e := by
  cases e with
  | notifies method params => exact outbox_notify c method params
  | requests r => exact outbox_request c r
  | receives bs => exact (outbox_receive c bs).trans (Outbox.post_nil _).symm
  | hangsUp => exact (Outbox.post_nil _).symm
  | deafens => rfl
  | dropsReceiver => exact (Outbox.post_nil _).symm
  | aborts => rfl
  | reads => exact outbox_reads c
  | writes => exact outbox_writeFrame c

/-! ## 3. What has been accepted -/

/-- The messages accepted in an event, told by what comes of it: a notification that is sent, a request
    that does not complete at once, the answer to a request of the peer. -/
def submitted (c : Connection) : Event → List Outgoing
  | .notifies method params =>
    match (c.notify method params).1 with
    | .ok () => [.notification method params]
    | .error _ => []
  | .requests r =>
    match (c.request r).2.outcome? (c.request r).1 with
    | none => [.request c.nextId r.method r.params]
    | some _ => []
  | .reads => if c.accepts then (c.ear.nextBody?.bind reply?).toList else []
  | _ => []

/-- What is put into the queue is accepted as long as the writer runs. -/
theorem submitted_eq {c : Connection} (h : c.InOrder) (e : Event) :
    c.submitted e = if c.accepts then c.offered e else [] := by
  cases e with
  | notifies method params =>
    rw [submitted, notify]
    cases c.accepts <;> rfl
  | requests r =>
    rw [submitted, request_fst, h.outcome?_request r, offered]
    by_cases hr : c.reader = .ended
    · rw [hr]
      cases c.accepts <;> rfl
    · have hb : (c.reader != .ended) = true := bne_iff_ne.mpr hr
      rw [hb, if_neg hr]
      cases c.accepts <;> rfl
  | reads => rfl
  | _ => exact (ite_self _).symm

theorem accepted_step {c : Connection} (h : c.InOrder) (e : Event) :
    (c.step e).accepted = c.accepted ++ c.submitted e := by
  have hstep : (c.step e).accepted = (c.outbox.step (c.offered e) e).accepted :=
    congrArg Outbox.accepted (outbox_step c e)
  have hpost : (c.outbox.post (c.offered e)).accepted = c.accepted ++ c.submitted e := by
    rw [submitted_eq h e]
    by_cases hw : c.outbox.writer = .running
    · rw [Outbox.post_of_running hw, (accepts_iff c).mpr hw]
      rfl
    · have ha : ¬ c.accepts = true := fun ha => hw ((accepts_iff c).mp ha)
      rw [Outbox.post_of_not_running hw, if_neg ha, List.append_nil]
      rfl
  rw [hstep]
  cases e with
  | deafens => exact (List.append_nil _).symm
  | aborts => exact (List.append_nil _).symm
  | writes => exact (Outbox.accepted_write c.outbox).trans (List.append_nil _).symm
  | _ => exact hpost

/-- **What has been accepted is what the calls and the reader have put into the queue**, in this
    order. -/
theorem accepted_run (es : List Event) : (start.run es).accepted = start.trace submitted es :=
  record_run (P := InOrder) (g := accepted) (fun _ e h => inOrder_step h e)
    (fun _ e h => accepted_step h e) inOrder_start es

end Connection

end EditorBridge.Rpc
