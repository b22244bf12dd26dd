import EditorBridge.Proofs.Frame.Arrival
import EditorBridge.Proofs.Rpc.Run

/-!
# What arrives, and what the reader acts on

The reader, the bytes that have arrived and whether the peer still sends are a machine of their own
(`Ear`): no other part of a connection has a say in it (`ear_step`).

The bytes that arrive in a run form one stream, however the peer cuts it into pieces and whenever the
reader takes its turns. The bodies on which the reader acts are those of the first frames of that stream,
in order and each once; what is left of the stream is in the inbox (`cut_run`).

**`bodies_of_run`** -- a reader that was not stopped and has nothing left to do has acted on the bodies of
all frames in the stream.
-/

namespace EditorBridge.Rpc

/-! ## 1. The reading side -/

/-- What the reader works on. -/
structure Ear where
  reader : TaskState
  inbox : List UInt8
  peerDone : Bool

namespace Ear

/-- What a turn of the reader finds; a reader that does not run finds nothing to do. -/
def found (a : Ear) : Frame.Step :=
  if a.reader = .running then Frame.read a.peerDone a.inbox else .wait

/-- One event. -/
def step (a : Ear) : Event → Ear
  | .receives bs =>
    if !a.peerDone && a.reader == .running then { a with inbox := a.inbox ++ bs } else a
  | .hangsUp => { a with peerDone := true }
  | .aborts => { a with reader := if a.reader = .running then .aborted else a.reader }
  | .reads =>
    match a.found with
    | .frame _ rest => { a with inbox := rest }
    | .wait => a
    | .finished => { a with reader := .ended }
    | .failed _ => { a with reader := .ended }
  | _ => a

/-- The bytes that arrive with an event. -/
def arriving (a : Ear) : Event → List UInt8
  | .receives bs => if !a.peerDone && a.reader == .running then bs else []
  | _ => []

/-- The body on which the reader acts in its next turn, if it acts on one. -/
def nextBody? (a : Ear) : Option (List UInt8) :=
  match a.found with
  | .frame body _ => some body
  | _ => none

/-- The bodies on which the reader acts in an event. -/
def acting (a : Ear) : Event → List (List UInt8)
  | .reads => a.nextBody?.toList
  | _ => []

end Ear

namespace Connection

/-- The reading side of a connection. -/
def ear (c : Connection) : Ear := ⟨c.reader, c.inbox, c.peerDone⟩

/-- What a turn of the reader does. -/
theorem step_reads (c : Connection) :
    c.step .reads = match c.ear.found with
      | .frame body rest => { c with inbox := rest }.handle body
      | .wait => c
      | .finished => c.endReader
      | .failed e => (c.warn ("failed to read from the language server: " ++ e.message)).endReader := by
  by_cases hr : c.reader = .running
  · have hf : c.ear.found = Frame.read c.peerDone c.inbox := if_pos hr
    rw [step, readFrame?, if_pos hr, hf]
    cases Frame.read c.peerDone c.inbox <;> rfl
  · have hf : c.ear.found = .wait := if_neg hr
    rw [step, readFrame?, if_neg hr, hf]
    rfl

theorem ear_submit (c : Connection) (m : Outgoing) : (c.submit m).ear = c.ear := by
  unfold submit
  split
  · rfl
  · rfl

theorem ear_notify (c : Connection) (method : String) (params : Option Json) :
    (c.notify method params).2.ear = c.ear := by
  unfold notify
  split
  · exact ear_submit c _
  · rfl

theorem ear_request (c : Connection) (r : Request) : (c.request r).2.ear = c.ear := by
  unfold request takeId register
  simp only
  split
  · rfl
  · rename_i d hd
    split at hd
    · cases hd
    · cases hd
      split
      · exact ear_submit _ _
      · rfl

theorem ear_handle (c : Connection) (body : List UInt8) : (c.handle body).ear = c.ear := by
  unfold handle
  split
  · rfl
  · exact ear_submit c _
  · unfold deliver
    split
    · rfl
    · rfl
  · unfold settleResponse
    split
    · rfl
    · rfl
  · rfl

theorem ear_writeFrame (c : Connection) : (c.writeFrame?.getD c).ear = c.ear := by
  unfold writeFrame?
  split
  · split
    · rfl
    · rfl
  · rfl

/-- **The reading side goes its own way.** -/
theorem ear_step (c : Connection) (e : Event) : (c.step e).ear = c.ear.step e := by
  cases e with
  | notifies method params => exact ear_notify c method params
  | requests r => exact ear_request c r
  | receives bs =>
    have hs : (!c.ear.peerDone && c.ear.reader == .running) = c.peerCanSend := rfl
    rw [step, receive, Ear.step, hs]
    split
    · rfl
    · rfl
  | hangsUp => rfl
  | deafens => rfl
  | dropsReceiver => rfl
  | aborts => rfl
  | reads =>
    rw [step_reads, Ear.step]
    cases c.ear.found with
    | frame body rest => exact ear_handle _ body
    | wait => rfl
    | finished => rfl
    | failed e => rfl
  | writes => exact ear_writeFrame c

theorem ear_run (c : Connection) (es : List Event) : (c.run es).ear = es.foldl Ear.step c.ear := by
  induction es generalizing c with
  | nil => rfl
  | cons e es ih => rw [run_cons, ih, ear_step, List.foldl_cons]

/-- The stream that arrives in a run. -/
def arrivals (c : Connection) (es : List Event) : List UInt8 := c.trace (·.ear.arriving) es

/-- The bodies on which the reader acts in a run. -/
def bodies (c : Connection) (es : List Event) : List (List UInt8) := c.trace (·.ear.acting) es

end Connection

/-! ## 2. Frames are cut off the stream -/

namespace Ear

variable {a : Ear}

theorem running_of_found_ne_wait (h : a.found ≠ .wait) : a.reader = .running := by
  by_cases hr : a.reader = .running
  · exact hr
  · exact absurd (if_neg hr) h

/-- What a running reader finds is what is in the inbox. -/
theorem read_of_found_ne_wait (h : a.found ≠ .wait) : Frame.read a.peerDone a.inbox = a.found :=
  (if_pos (running_of_found_ne_wait h)).symm

theorem read_of_found_frame {body rest : List UInt8} (h : a.found = .frame body rest) :
    Frame.read a.peerDone a.inbox = .frame body rest := by
  rw [read_of_found_ne_wait (by rw [h]; exact fun e => nomatch e), h]

theorem exists_of_nextBody? {body : List UInt8} (h : a.nextBody? = some body) :
    ∃ rest, a.found = .frame body rest := by
  unfold nextBody? at h
  split at h
  · rename_i b rest hf
    cases h
    exact ⟨rest, hf⟩
  · cases h

theorem nextBody?_of_found {body rest : List UInt8} (h : a.found = .frame body rest) :
    a.nextBody? = some body := by
  rw [nextBody?, h]

/-- The bodies are cut off the stream, and what is left of it is in the inbox. -/
theorem cut_step {s : List UInt8} {bodies : List (List UInt8)}
    (h : Frame.Cut a.peerDone s bodies a.inbox) (e : Event) :
    Frame.Cut (a.step e).peerDone (s ++ a.arriving e) (bodies ++ a.acting e) (a.step e).inbox := by
  cases e with
  | receives bs =>
    simp only [acting, List.append_nil, arriving, step]
    split
    · rename_i hs
      have hd : a.peerDone = false := by
        rw [Bool.and_eq_true, Bool.not_eq_true'] at hs
        exact hs.1
      rw [hd] at h
      exact h.append a.peerDone bs
    · rw [List.append_nil]
      exact h
  | hangsUp =>
    simp only [acting, arriving, List.append_nil, step]
    cases hd : a.peerDone with
    | false =>
      rw [hd] at h
      have hmore := h.append true []
      rw [List.append_nil, List.append_nil] at hmore
      exact hmore
    | true =>
      rw [hd] at h
      exact h
  | reads =>
    simp only [arriving, acting, nextBody?, step, List.append_nil]
    cases hf : a.found with
    | frame body rest => exact h.snoc (read_of_found_frame hf)
    | wait => exact (List.append_nil bodies).symm ▸ h
    | finished => exact (List.append_nil bodies).symm ▸ h
    | failed err => exact (List.append_nil bodies).symm ▸ h
  | _ =>
    simp only [arriving, acting, List.append_nil]
    exact h

/-- What is found is neither a frame nor an incomplete one. -/
def IsEnd (f : Frame.Step) : Prop := f = .finished ∨ ∃ e, f = .failed e

theorem not_frame_of_isEnd {f : Frame.Step} (h : IsEnd f) (body rest : List UInt8) :
    f ≠ .frame body rest := by
  rcases h with rfl | ⟨e, rfl⟩
  · exact fun e => nomatch e
  · exact fun e => nomatch e

theorem ne_wait_of_isEnd {f : Frame.Step} (h : IsEnd f) : f ≠ .wait := by
  rcases h with rfl | ⟨e, rfl⟩
  · exact fun e => nomatch e
  · exact fun e => nomatch e

/-- An end that has been found is found as well when the peer hangs up. -/
theorem isEnd_of_ended (done : Bool) {bs : List UInt8} (h : IsEnd (Frame.read done bs)) :
    IsEnd (Frame.read true bs) := by
  cases done with
  | true => exact h
  | false =>
    have hmore := Frame.read_append true [] (ne_wait_of_isEnd h)
    rw [List.append_nil] at hmore
    rcases h with h | ⟨e, h⟩
    · rw [h] at hmore
      exact Or.inl hmore
    · rw [h] at hmore
      exact Or.inr ⟨e, hmore⟩

/-- Once the reader has ended, an end is what is left of the stream. -/
def Spent (a : Ear) : Prop := a.reader = .ended → IsEnd (Frame.read a.peerDone a.inbox)

theorem spent_of_found (h : IsEnd a.found) (reader : TaskState) : { a with reader }.Spent := by
  rw [← read_of_found_ne_wait (ne_wait_of_isEnd h)] at h
  exact fun _ => h

theorem spent_step (h : a.Spent) (e : Event) : (a.step e).Spent := by
  cases e with
  | receives bs =>
    simp only [step]
    split
    · rename_i hs
      rw [Bool.and_eq_true, beq_iff_eq] at hs
      exact fun hr => nomatch hs.2.symm.trans hr
    · exact h
  | hangsUp => exact fun hr => isEnd_of_ended a.peerDone (h hr)
  | aborts =>
    intro hr
    cases hc : a.reader with
    | running => simp [step, hc] at hr
    | aborted => simp [step, hc] at hr
    | ended => exact h hc
  | reads =>
    simp only [step]
    cases hf : a.found with
    | frame body rest =>
      have hrun : a.reader = .running :=
        running_of_found_ne_wait (by rw [hf]; exact fun e => nomatch e)
      exact fun hr => nomatch hrun.symm.trans hr
    | wait => exact h
    | finished => exact spent_of_found (Or.inl hf) _
    | failed err => exact spent_of_found (Or.inr ⟨err, hf⟩) _
  | _ => exact h

end Ear

namespace Connection

/-- **The bodies on which the reader has acted are cut off the stream that has arrived**, and what is
    left of it is in the inbox. -/
theorem cut_run (es : List Event) :
    Frame.Cut (start.run es).peerDone (start.arrivals es) (start.bodies es) (start.run es).inbox := by
  have hcut : ∀ (c : Connection) (s : List UInt8) (bs : List (List UInt8)),
      Frame.Cut c.ear.peerDone s bs c.ear.inbox →
      Frame.Cut (c.run es).ear.peerDone (s ++ c.arrivals es) (bs ++ c.bodies es)
        (c.run es).ear.inbox := by
    induction es with
    | nil =>
      intro c s bs h
      rw [arrivals, bodies, trace, trace, List.append_nil, List.append_nil]
      exact h
    | cons e es ih =>
      intro c s bs h
      have hstep := Ear.cut_step h e
      rw [← ear_step] at hstep
      have hrest := ih (c.step e) _ _ hstep
      rw [List.append_assoc, List.append_assoc] at hrest
      exact hrest
  exact hcut start [] [] (.none [])

theorem spent_run (es : List Event) : (start.run es).ear.Spent :=
  run_induction (P := fun c => c.ear.Spent) (fun c e hc => ear_step c e ▸ Ear.spent_step hc e)
    (fun h => absurd h (by decide)) es

/-- **The reader acts on the frames of the stream, in order and each once.** Has it nothing left to do,
    and was it not stopped, then it has acted on all of them. -/
theorem bodies_of_run (es : List Event) :
    start.bodies es <+: Frame.bodiesIn (start.run es).peerDone (start.arrivals es) ∧
      ((start.run es).reader ≠ .aborted → (start.run es).ear.nextBody? = none →
        start.bodies es = Frame.bodiesIn (start.run es).peerDone (start.arrivals es)) := by
  refine ⟨(cut_run es).prefix_bodiesIn, fun hr hidle => (cut_run es).eq_bodiesIn ?_⟩
  cases hc : (start.run es).reader with
  | aborted => exact absurd hc hr
  | ended => exact Ear.not_frame_of_isEnd (spent_run es hc)
  | running =>
    intro body rest hread
    have hf : (start.run es).ear.found = .frame body rest := (if_pos hc).trans hread
    rw [Ear.nextBody?_of_found hf] at hidle
    cases hidle

end Connection

end EditorBridge.Rpc
