import Mathlib.Data.List.Induction
import EditorBridge.Proofs.Frame.Stream
import EditorBridge.Proofs.Rpc.Outbox

/-!
# No message is lost, doubled or moved

What has been accepted is cut in two: what has been written, and the rest (`Outbox.Divides`). As long as
the writer runs, the rest is its queue. The writer stops when it is aborted or when a write fails; what
was in the queue then is never written, beginning with the message whose write failed.

**`wire_of_run`** -- so the bytes written are the frames of the accepted messages in the order in which
they were accepted, up to where the writer stopped. Reading them back yields their bodies, up to the
first that is longer than what is read at all.
-/

namespace EditorBridge.Rpc

/-! ## 1. Written and not written -/

namespace Outbox

/-- Of the accepted messages, `written` have been written and `rest` have not. -/
structure Divides (o : Outbox) (written rest : List Outgoing) : Prop where
  accepted : o.accepted = written ++ rest
  wire : o.wire = written.flatMap Outgoing.frame

variable {o : Outbox} {written : List Outgoing}

theorem Divides.post (h : o.Divides written o.queue) (ms : List Outgoing) :
    (o.post ms).Divides written (o.post ms).queue := by
  unfold Outbox.post
  split
  · exact ⟨by rw [h.accepted, List.append_assoc], h.wire⟩
  · exact h

/-- The first message of the queue is written next. -/
theorem Divides.write (hw : o.writer = .running) (hl : o.peerListens = true)
    (h : o.Divides written o.queue) : ∃ written', o.write.Divides written' o.write.queue := by
  cases hq : o.queue with
  | nil =>
    rw [write_of_idle hq]
    exact ⟨written, h⟩
  | cons m ms =>
    rw [write_of_listens hw hl hq]
    refine ⟨written ++ [m], ?_, ?_⟩
    · rw [h.accepted, hq, List.append_assoc]
      rfl
    · rw [List.flatMap_append, List.flatMap_singleton, h.wire]

/-- The writer stops with this event: it is aborted, or the peer does not take the first message of its
    queue. -/
def Stops (o : Outbox) (e : Event) : Prop :=
  o.writer = .running ∧ (e = .aborts ∨ e = .writes ∧ o.peerListens = false ∧ o.queue ≠ [])

theorem writer_post (o : Outbox) (ms : List Outgoing) : (o.post ms).writer = o.writer := by
  unfold Outbox.post
  split
  · rfl
  · rfl

/-- A running writer goes on, or it stops and loses its queue. -/
theorem Divides.step (hw : o.writer = .running) (h : o.Divides written o.queue) (ms : List Outgoing)
    (e : Event) :
    (∃ written', (o.step ms e).writer = .running ∧
      (o.step ms e).Divides written' (o.step ms e).queue) ∨
    (o.Stops e ∧ (o.step ms e).writer ≠ .running ∧ (o.step ms e).queue = [] ∧
      (o.step ms e).Divides written o.queue) := by
  cases e with
  | deafens => exact Or.inl ⟨written, hw, h.accepted, h.wire⟩
  | aborts =>
    refine Or.inr ⟨⟨hw, Or.inl rfl⟩, ?_, rfl, h.accepted, h.wire⟩
    simp [Outbox.step, hw]
  | writes =>
    by_cases hidle : o.queue = []
    · rw [Outbox.step, write_of_idle hidle]
      exact Or.inl ⟨written, hw, h⟩
    · cases hl : o.peerListens with
      | true =>
        obtain ⟨written', h'⟩ := h.write hw hl
        obtain ⟨m, ms', hq⟩ := List.exists_cons_of_ne_nil hidle
        refine Or.inl ⟨written', ?_, h'⟩
        rw [Outbox.step, write_of_listens hw hl hq]
        exact hw
      | false =>
        rw [Outbox.step, write_of_deaf hw hl hidle]
        exact Or.inr ⟨⟨hw, Or.inr ⟨rfl, hl, hidle⟩⟩, fun e => (nomatch e), rfl, h.accepted, h.wire⟩
  | _ => exact Or.inl ⟨written, (writer_post o ms).trans hw, h.post ms⟩

/-- A writer that does not run accepts nothing and writes nothing. -/
theorem step_of_not_running (hw : o.writer ≠ .running) (ms : List Outgoing) (e : Event) :
    (o.step ms e).writer ≠ .running ∧ (o.step ms e).accepted = o.accepted ∧
      (o.step ms e).wire = o.wire ∧ (o.queue = [] → (o.step ms e).queue = []) := by
  cases e with
  | deafens => exact ⟨hw, rfl, rfl, id⟩
  | aborts =>
    refine ⟨?_, rfl, rfl, fun _ => rfl⟩
    rw [Outbox.step, if_neg hw]
    exact hw
  | writes =>
    rw [Outbox.step, write_of_not_running hw]
    exact ⟨hw, rfl, rfl, id⟩
  | _ =>
    show (o.post ms).writer ≠ .running ∧ (o.post ms).accepted = o.accepted ∧
      (o.post ms).wire = o.wire ∧ (o.queue = [] → (o.post ms).queue = [])
    rw [post_of_not_running hw]
    exact ⟨hw, rfl, rfl, id⟩

end Outbox

/-! ## 2. The whole run -/

namespace Connection

/-- Written messages, then what is left of the accepted ones: the queue, or what the writer had in its
    queue when it stopped. -/
theorem divides_run (es : List Event) :
    ∃ written rest, (start.run es).outbox.Divides written rest ∧
      ((start.run es).writer = .running ∧ rest = (start.run es).queue ∨
        (start.run es).writer ≠ .running ∧ (start.run es).queue = [] ∧
          ∃ fs e gs, es = fs ++ e :: gs ∧ (start.run fs).outbox.Stops e ∧
            rest = (start.run fs).queue) := by
  induction es using List.reverseRecOn with
  | nil => exact ⟨[], [], ⟨rfl, rfl⟩, Or.inl ⟨rfl, rfl⟩⟩
  | append_singleton es e ih =>
    have hlast : start.run (es ++ [e]) = (start.run es).step e := run_append start es [e]
    have hstep := outbox_step (start.run es) e
    have hwriter : ((start.run es).step e).writer = ((start.run es).step e).outbox.writer := rfl
    have hqueue : ((start.run es).step e).queue = ((start.run es).step e).outbox.queue := rfl
    rw [hlast, hwriter, hqueue, hstep]
    obtain ⟨written, rest, hd, ⟨hw, hq⟩ | ⟨hw, hq, fs, f, gs, hes, hstop, hrest⟩⟩ := ih
    · subst hq
      rcases hd.step hw ((start.run es).offered e) e with ⟨written', hw', hd'⟩ | ⟨hs, hw', hq', hd'⟩
      · exact ⟨written', _, hd', Or.inl ⟨hw', rfl⟩⟩
      · exact ⟨written, _, hd', Or.inr ⟨hw', hq', es, e, [], rfl, hs, rfl⟩⟩
    · obtain ⟨hw', ha, hwire, hq'⟩ :=
        Outbox.step_of_not_running (o := (start.run es).outbox) hw ((start.run es).offered e) e
      refine ⟨written, rest, ⟨ha.trans hd.accepted, hwire.trans hd.wire⟩,
        Or.inr ⟨hw', hq' hq, fs, f, gs ++ [e], ?_, hstop, hrest⟩⟩
      rw [hes, List.append_assoc]
      rfl

/-- Once the writer has stopped, nothing is accepted or written. -/
theorem run_of_not_running {c : Connection} (hw : c.writer ≠ .running) (fs : List Event) :
    (c.run fs).writer ≠ .running ∧ (c.run fs).accepted = c.accepted ∧ (c.run fs).wire = c.wire := by
  refine run_induction
    (P := fun d => d.writer ≠ .running ∧ d.accepted = c.accepted ∧ d.wire = c.wire) ?_
    ⟨hw, rfl, rfl⟩ fs
  rintro d e ⟨hd, ha, hwire⟩
  have hstep := outbox_step d e
  obtain ⟨hw', ha', hwire', -⟩ :=
    Outbox.step_of_not_running (o := d.outbox) hd (d.offered e) e
  rw [← hstep] at hw' ha' hwire'
  exact ⟨hw', ha'.trans ha, hwire'.trans hwire⟩

/-- A writer that runs has always been running. -/
theorem running_of_run {c : Connection} {es : List Event} (hw : (c.run es).writer = .running) :
    c.writer = .running := by
  by_cases hc : c.writer = .running
  · exact hc
  · exact absurd hw (run_of_not_running hc es).1

/-- As many turns of the writer as there are messages in the queue write the whole queue. -/
theorem wire_run_writes {c : Connection} (hw : c.writer = .running) (hl : c.peerListens = true) :
    (c.run (List.replicate c.queue.length .writes)).wire =
      c.wire ++ c.queue.flatMap Outgoing.frame := by
  induction hq : c.queue generalizing c with
  | nil => exact (List.append_nil _).symm
  | cons m ms ih =>
    have hstep : (c.step .writes).outbox = { c.outbox with queue := ms, wire := c.wire ++ m.frame } :=
      (outbox_step c .writes).trans (Outbox.write_of_listens hw hl hq)
    have hw' : (c.step .writes).writer = .running := (congrArg Outbox.writer hstep).trans hw
    have hl' : (c.step .writes).peerListens = true := (congrArg Outbox.peerListens hstep).trans hl
    have hq' : (c.step .writes).queue = ms := congrArg Outbox.queue hstep
    have hwire : (c.step .writes).wire = c.wire ++ m.frame := congrArg Outbox.wire hstep
    rw [List.length_cons, List.replicate_succ, run_cons, ih hw' hl' hq', hwire, List.flatMap_cons,
      List.append_assoc]

/-- While the writer runs, what is not written is in the queue. -/
theorem divides_of_running {es : List Event} (hw : (start.run es).writer = .running) :
    ∃ written, (start.run es).outbox.Divides written (start.run es).queue := by
  obtain ⟨written, rest, hd, ⟨-, hq⟩ | ⟨hno, -⟩⟩ := divides_run es
  · exact ⟨written, hq ▸ hd⟩
  · exact absurd hw hno

/-- A writer that runs and is listened to writes all that has been accepted, once its queue is empty. -/
theorem wire_of_emptied {es : List Event} (hw : (start.run es).writer = .running)
    (hl : (start.run es).peerListens = true) :
    ((start.run es).run (List.replicate (start.run es).queue.length .writes)).wire =
      (start.run es).accepted.flatMap Outgoing.frame := by
  obtain ⟨written, hd⟩ := divides_of_running hw
  have ha : (start.run es).accepted = written ++ (start.run es).queue := hd.accepted
  have hwire : (start.run es).wire = written.flatMap Outgoing.frame := hd.wire
  rw [wire_run_writes hw hl, hwire, ha, List.flatMap_append]

theorem notify_of_closed {c : Connection} {method : String} {params : Option Json}
    (h : (c.notify method params).1 = .error .closed) : (c.notify method params).2 = c := by
  unfold notify at h ⊢
  split at h
  · cases h
  · rename_i ha
    rw [if_neg ha]

/-- A request that completes at once puts nothing into the queue. -/
theorem InOrder.outbox_request_of_some {c : Connection} (h : c.InOrder) {r : Request}
    {o : Except CallError Reply} (ho : (c.request r).2.outcome? (c.request r).1 = some o) :
    (c.request r).2.outbox = c.outbox := by
  rw [request_fst, h.outcome?_request r] at ho
  rw [outbox_request, offered]
  by_cases hr : c.reader = .ended
  · rw [if_pos hr, Outbox.post_nil]
  · have hw : c.outbox.writer ≠ .running := fun hw => by
      rw [bne_iff_ne.mpr hr, (accepts_iff c).mpr hw] at ho
      cases ho
    rw [Outbox.post_of_not_running hw]

/-- When the writer does not run, every call fails as closed. -/
theorem InOrder.calls_of_not_running {c : Connection} (h : c.InOrder) (hw : c.writer ≠ .running) :
    (∀ method params, (c.notify method params).1 = .error .closed) ∧
      ∀ r, (c.request r).2.outcome? (c.request r).1 = some (.error .closed) := by
  have ha : c.accepts = false := Bool.eq_false_iff.mpr fun ha => hw ((accepts_iff c).mp ha)
  refine ⟨fun method params => ?_, fun r => ?_⟩
  · rw [notify_of_refused ha]
  · rw [request_fst, h.outcome?_request r, ha, Bool.and_false]
    rfl

/-! ## 3. Reading back -/

theorem flatMap_frame (ms : List Outgoing) :
    ms.flatMap Outgoing.frame = (ms.map Outgoing.body).flatMap Frame.encode := by
  rw [List.flatMap_map]
  rfl

/-- No character is written as less than one byte. -/
theorem length_le_stringChars (s : String) : s.toList.length ≤ (Json.stringChars s).length := by
  have hescape : ∀ cs : List Char, cs.length ≤ (cs.flatMap Json.escapeChar).length := by
    intro cs
    induction cs with
    | nil => exact Nat.le_refl 0
    | cons c cs ih =>
      have hpos : 0 < (Json.escapeChar c).length := by
        unfold Json.escapeChar
        repeat' split
        all_goals exact Nat.succ_pos _
      rw [List.flatMap_cons, List.length_append, List.length_cons]
      omega
  have hle := hescape s.toList
  rw [Json.stringChars, List.length_cons, List.length_append]
  omega

/-- The body of a notification is longer than the text that it carries. -/
theorem lt_length_body (method : String) (s : String) :
    s.toList.length < (Outgoing.notification method (some (.str s))).body.length := by
  have hs := length_le_stringChars s
  have hbody := Text.Utf8.length_le_encodeChars (Outgoing.notification method (some (.str s))).toJson.chars
  have hchars : (Json.stringChars s).length <
      (Outgoing.notification method (some (.str s))).toJson.chars.length := by
    simp only [Outgoing.toJson, Outgoing.version, Outgoing.optionalMember, List.cons_append,
      List.nil_append, Json.chars, Json.memberChars, List.length_cons, List.length_append]
    omega
  exact Nat.lt_of_le_of_lt hs (Nat.lt_of_lt_of_le hchars hbody)

theorem readAll_ne_of_lt {m : Outgoing} (h : Frame.maxBodyBytes < m.body.length) :
    Frame.readAll m.frame ≠ ([m.body], .clean) := by
  intro hread
  have hbodies := (Frame.readAll_frames [m.body]).1
  have hone : [m.body].flatMap Frame.encode = m.frame := List.append_nil _
  have hfit : ¬ Frame.fits m.body = true := fun hf => by
    have hle : m.body.length ≤ Frame.maxBodyBytes := of_decide_eq_true hf
    omega
  rw [hone, hread, List.takeWhile_cons, if_neg hfit] at hbodies
  cases hbodies

/-- **The bytes written are the frames of the accepted messages.** What has been accepted in a run are
    the notifications that were sent, the requests that were not refused and the answers to the requests
    of the peer, in this order. The bytes written are the frames of the first of these, each once and
    whole; reading them yields their bodies up to the first that is longer than what is read, and ends
    cleanly exactly if there is none.

    The others wait in the queue as long as the writer runs, and as many turns as there are write them
    all. A writer that stopped was aborted, or a write failed, and the messages that are not written are
    those that were in its queue then, the one whose write failed being the first. A call that is refused
    changes nothing of this; once the writer has stopped, every call is refused and nothing more is
    accepted or written. -/
theorem wire_of_run (es : List Event) :
    let c := start.run es
    c.accepted = start.trace submitted es ∧
    (∃ written rest, c.accepted = written ++ rest ∧ c.wire = written.flatMap Outgoing.frame ∧
      (Frame.readAll c.wire).1 = (written.map Outgoing.body).takeWhile Frame.fits ∧
      ((Frame.readAll c.wire).2 = .clean ↔ ∀ m ∈ written, Frame.fits m.body = true) ∧
      (c.writer = .running → rest = c.queue) ∧
      (c.writer ≠ .running → ∃ fs e gs, es = fs ++ e :: gs ∧ (start.run fs).outbox.Stops e ∧
        rest = (start.run fs).queue)) ∧
    (c.writer = .running → c.peerListens = true →
      (c.run (List.replicate c.queue.length .writes)).wire = c.accepted.flatMap Outgoing.frame) ∧
    (∀ method params, (c.notify method params).1 = .error .closed → (c.notify method params).2 = c) ∧
    (∀ r o, (c.request r).2.outcome? (c.request r).1 = some o → (c.request r).2.outbox = c.outbox) ∧
    (c.writer ≠ .running → ∀ fs,
      (c.run fs).accepted = c.accepted ∧ (c.run fs).wire = c.wire ∧
      (∀ method params, ((c.run fs).notify method params).1 = .error .closed) ∧
      ∀ r, ((c.run fs).request r).2.outcome? ((c.run fs).request r).1 = some (.error .closed)) := by
  intro c
  have h : c.InOrder := inOrder_run inOrder_start es
  obtain ⟨written, rest, hd, hcase⟩ := divides_run es
  refine ⟨accepted_run es, ⟨written, rest, hd.accepted, hd.wire, ?_, ?_, ?_, ?_⟩, wire_of_emptied,
    fun method params => notify_of_closed, fun r o => h.outbox_request_of_some, ?_⟩
  · have hread := (Frame.readAll_frames (written.map Outgoing.body)).1
    rw [← flatMap_frame, ← hd.wire] at hread
    exact hread
  · have hread := (Frame.readAll_frames (written.map Outgoing.body)).2
    rw [← flatMap_frame, ← hd.wire] at hread
    rw [List.forall_mem_map] at hread
    exact hread
  · intro hw
    rcases hcase with ⟨-, hq⟩ | ⟨hno, -⟩
    · exact hq
    · exact absurd hw hno
  · intro hw
    rcases hcase with ⟨hrun, -⟩ | ⟨-, -, hstop⟩
    · exact absurd hrun hw
    · exact hstop
  · intro hw fs
    obtain ⟨hw', ha, hwire⟩ := run_of_not_running hw fs
    exact ⟨ha, hwire, (inOrder_run h fs).calls_of_not_running hw'⟩

/-- A message is written, the next one is not, and every call after that is refused. -/
theorem wire_of_run_deaf :
    let c := start.run [.notifies "exit" none, .writes, .deafens, .notifies "exit" none, .writes]
    c.writer ≠ .running ∧ c.wire = (Outgoing.notification "exit" none).frame ∧
      ((c.run [.writes]).notify "exit" none).1 = .error .closed := by
  intro c
  have hw : c.writer ≠ .running := fun h => (nomatch h)
  obtain ⟨-, -, -, -, -, hstopped⟩ :=
    wire_of_run [.notifies "exit" none, .writes, .deafens, .notifies "exit" none, .writes]
  exact ⟨hw, rfl, (hstopped hw [.writes]).2.2.1 "exit" none⟩

/-- A notification that carries as long a text is accepted and written, but not read back. -/
theorem not_read_back {text : String} (h : Frame.maxBodyBytes ≤ text.toList.length) :
    let message := Outgoing.notification "OpenModel" (some (.str text))
    let c := start.run [.notifies "OpenModel" (some (.str text)), .writes]
    (start.notify "OpenModel" (some (.str text))).1 = .ok () ∧ c.accepted = [message] ∧
      c.wire = message.frame ∧ Frame.readAll c.wire ≠ ([message.body], .clean) :=
  ⟨rfl, rfl, rfl, readAll_ne_of_lt (Nat.lt_of_le_of_lt h (lt_length_body "OpenModel" text))⟩

/-- What has been accepted and written need not be what is read back. -/
theorem accepted_not_read_back :
    let text := String.ofList (List.replicate Frame.maxBodyBytes 'a')
    let message := Outgoing.notification "OpenModel" (some (.str text))
    let c := start.run [.notifies "OpenModel" (some (.str text)), .writes]
    (start.notify "OpenModel" (some (.str text))).1 = .ok () ∧ c.accepted = [message] ∧
      c.wire = message.frame ∧ Frame.readAll c.wire ≠ ([message.body], .clean) :=
  have hlength : (String.ofList (List.replicate Frame.maxBodyBytes 'a')).toList.length =
      Frame.maxBodyBytes := by
    rw [String.toList_ofList, List.length_replicate]
  not_read_back (Nat.le_of_eq hlength.symm)

end Connection

end EditorBridge.Rpc
