import EditorBridge.Program
import EditorBridge.Proofs.Model
import EditorBridge.Proofs.Terminal.Spoken

/-!
# The life cycle of a session

From the start to the end of a call of the program, the messages that frame the session come in one order:
the handshake, the model opened, the model closed, the request to shut down, and `exit` if the server has
agreed in time. `Course` says how far they have come in each stage; in the last stages it keeps what has
been heard since the request, since the first answer in it decides on `exit`.

* `course_quiet`, `course_leave`, `course_agreed`, `course_patience`, `course_finish` -- one statement for each
  kind of step;
* **`course_run`** -- every run, as long as the connection is up;
* `own_of_run`, `read_of_run` -- an activated session from the handshake to the end: what it says, and what
  of it is read on the wire;
* `interactive_cases`, `told_of_openModel` -- how a call of the program comes to an interaction, and when
  its model is one that the server is told about.

**`life_cycle`** -- all of this for a call of the program, whatever is typed and whatever the server does,
down to the members of the messages that are read.
-/

namespace EditorBridge

open Rpc (Connection Outgoing Message heardIn)

namespace Rpc

/-! ## 1. Responses that agree -/

/-- A response without an error and with a null result. -/
def Message.isAgreement (m : Message) : Bool :=
  match m.error, m.result.getD .null with
  | none, .null => true
  | _, _ => false

/-- Whether the first of some messages under a number agrees. -/
def agreed (ms : List Message) (id : Int64) : Bool := (ms.find? (·.answers id)).any Message.isAgreement

theorem Message.outcomeFor_shutdown (m : Message) :
    (∃ r, m.outcomeFor .shutdown = .ok r) ↔ m.isAgreement = true := by
  unfold outcomeFor isAgreement
  cases m.error with
  | some e =>
    refine iff_of_false ?_ Bool.false_ne_true
    rintro ⟨r, h⟩
    cases h
  | none =>
    dsimp only [Request.readReply]
    cases m.result.getD .null with
    | null => exact iff_of_true ⟨_, rfl⟩ rfl
    | _ =>
      refine iff_of_false ?_ Bool.false_ne_true
      rintro ⟨r, h⟩
      cases h

/-- As long as no request is made and the reader does not end, only messages settle a call. -/
theorem findSome?_settlement {hs : List Happening} (hmade : hs.flatMap Happening.made = [])
    (hended : Happening.ended ∉ hs) (id : Int64) (r : Request) :
    hs.findSome? (Happening.settlement? id r) =
      ((heardIn hs).find? (·.answers id)).map (·.outcomeFor r) := by
  induction hs with
  | nil => rfl
  | cons x hs ih =>
    rw [List.flatMap_cons, List.append_eq_nil_iff] at hmade
    have hrest := ih hmade.2 fun h => hended (List.mem_cons_of_mem x h)
    cases x with
    | nothing => exact hrest
    | ended => exact absurd List.mem_cons_self hended
    | called id' r' entered accepted => cases hmade.1
    | heard m =>
      have hheard : heardIn (.heard m :: hs) = m :: heardIn hs := rfl
      rw [hheard, List.findSome?_cons, Happening.settlement?]
      cases ha : m.answers id with
      | true =>
        rw [List.find?_cons_of_pos (p := fun m : Message => m.answers id) ha]
        rfl
      | false =>
        rw [List.find?_cons_of_neg (p := fun m : Message => m.answers id) (Bool.not_eq_true _ ▸ ha)]
        exact hrest

theorem Connection.ended_not_mem_history {c : Connection} {es : List Event}
    (h : (c.run es).reader ≠ .ended) : Happening.ended ∉ c.history es := by
  induction es generalizing c with
  | nil => exact List.not_mem_nil
  | cons e es ih =>
    rw [history, List.mem_cons]
    rintro (he | he)
    · have hend : (c.step e).reader = .ended := (reader_step c e).mpr (Or.inr he.symm)
      exact h (reader_run_of_ended hend es)
    · exact ih h he

end Rpc

/-! ## 2. How far a session has come -/

/-- A document is opened. -/
def TextDocument.opening (d : TextDocument) (text : String) : Outgoing :=
  .notification "textDocument/didOpen" (some ((DocumentChange.opened 1 text).params d))

/-- A document is closed. -/
def TextDocument.closing (d : TextDocument) : Outgoing :=
  .notification "textDocument/didClose" (some (DocumentChange.closed.params d))

theorem TextDocument.fits_closing (d : TextDocument) : d.closing.toJson.Fits Json.maxDepth :=
  Outgoing.fits_notification _ fun j hj => by
    cases hj
    exact DocumentChange.closed.fits_params d

namespace Terminal.Interaction

variable {i j k : Interaction} {e : Event} {settings : Settings} {doc : Option TextDocument}
  {origin : Connection} {heard : List Message}

/-- The connection is up as long as it is wanted, which is until the process is asked to end. -/
def isUp (i : Interaction) : Bool :=
  match i.stage with
  | .ending => true
  | .over => true
  | _ => i.session.connection.isUp

/-- The connection is up in every state of a run. -/
def staysUp (i : Interaction) : List Event → Bool
  | [] => i.isUp
  | e :: es => i.isUp && ((i.step? e).map fun j => j.staysUp es).getD true

/-- The messages that are heard while the server is asked to shut down. -/
def heardLeaving (i : Interaction) (e : Event) : List Message :=
  match i.stage with
  | .leaving _ => i.heard e
  | _ => []

/-- What is said when the loop ends: the model is closed, if it has been opened, and the server asked to
    shut down. -/
def farewell (settings : Settings) (doc : Option TextDocument) (id : Int64) : List Outgoing :=
  (doc.filter settings.isSynchronized).toList.map TextDocument.closing ++ [.request id "shutdown" none]

/-- What has been said of the frame of the session in each stage. `before` had been said when the loop
    began, and `heard` is what has been heard since the server was asked to shut down. -/
def Said (c : Connection) (settings : Settings) (doc : Option TextDocument) (before : List Outgoing)
    (heard : List Message) : Stage → Prop
  | .leaving call =>
    ∃ id, c.frames = before ++ farewell settings doc id ∧ c.calls[call]? = some (id, .shutdown) ∧
      c.outcome? call = (heard.find? (·.answers id)).map (·.outcomeFor .shutdown)
  | .ending | .over =>
    ∃ id, c.frames = before ++ farewell settings doc id ++
      if Rpc.agreed heard id then [.notification "exit" none] else []
  | _ => c.frames = before ∧ heard = []

/-- How far a session has come since its connection was `origin`. -/
structure Course (settings : Settings) (doc : Option TextDocument) (origin : Connection)
    (heard : List Message) (i : Interaction) : Prop where
  inOrder : i.session.connection.InOrder
  reached : ∃ fs, i.session.connection = origin.run fs
  language : i.session.context.settings.languageId = settings.languageId
  model : i.model = doc
  legible : i.session.connection.Legible
  said : Said i.session.connection settings doc origin.frames heard i.stage

theorem said_of_inLoop {c : Connection} {before : List Outgoing} {stage : Stage} (h : stage.inLoop = true) :
    Said c settings doc before heard stage ↔ c.frames = before ∧ heard = [] := by
  cases stage with
  | leaving call | ending | «over» => cases h
  | _ => exact Iff.rfl

theorem heardLeaving_of_inLoop (h : i.stage.inLoop = true) (e : Event) : i.heardLeaving e = [] := by
  rw [heardLeaving]
  split
  · rename_i hs
    rw [hs] at h
    cases h
  · rfl

/-- Only a turn of the reader hears anything. -/
theorem heardLeaving_of_ne (he : e ≠ .reads) (i : Interaction) : i.heardLeaving e = [] := by
  cases e with
  | reads => exact absurd rfl he
  | _ =>
    rw [heardLeaving]
    split <;> rfl

/-- The connection is up until the process is asked to end. -/
theorem isUp_connection (hup : i.isUp = true)
    (hl : i.stage.inLoop = true ∨ ∃ call, i.stage = .leaving call) : i.session.connection.isUp = true := by
  rw [isUp] at hup
  split at hup
  · rename_i hs
    rw [hs] at hl
    rcases hl with hl | ⟨call, hl⟩ <;> cases hl
  · rename_i hs
    rw [hs] at hl
    rcases hl with hl | ⟨call, hl⟩ <;> cases hl
  · exact hup

/-- What a connection has gone through since its origin. -/
theorem Course.reached_run (h : Course settings doc origin heard i) (es : List Rpc.Event) :
    (i.session.connection.run es).InOrder ∧ ∃ fs, i.session.connection.run es = origin.run fs := by
  obtain ⟨fs, hfs⟩ := h.reached
  exact ⟨Connection.inOrder_run h.inOrder es, fs ++ es, by rw [hfs, Connection.run_append]⟩

/-- After the loop no request is made, so that a call keeps its place, and the first answer that is heard is
    its outcome. -/
theorem outcome?_quiet (hq : Quiet i e j) (h : i.session.connection.InOrder)
    (hl : i.stage.inLoop = false) (hr : j.session.connection.reader ≠ .ended) {call : Nat} {id : Int64}
    {r : Rpc.Request} (hcall : i.session.connection.calls[call]? = some (id, r)) :
    j.session.connection.calls[call]? = some (id, r) ∧
      j.session.connection.outcome? call = (i.session.connection.outcome? call).or
        (((i.heard e).find? (·.answers id)).map (·.outcomeFor r)) := by
  obtain ⟨cs, -, hc, hheard, hmade⟩ := hq.connection
  have hnone := hmade fun hp => by rw [hp] at hl; cases hl
  rw [hc] at hr
  constructor
  · rw [hc, h.calls_run, hnone, List.append_nil, hcall]
  · rw [hc, h.outcome?_run cs hcall,
      Rpc.findSome?_settlement hnone (Connection.ended_not_mem_history hr), hheard]

/-- **A quiet step** adds nothing to the frame of the session; the answer to the request to shut down is
    the first that is heard. -/
theorem course_quiet (h : Course settings doc origin heard i) (hq : Quiet i e j)
    (hup : j.isUp = true) : Course settings doc origin (heard ++ i.heardLeaving e) j := by
  obtain ⟨cs, hcalm, hc, -⟩ := hq.connection
  have hframes : j.session.connection.frames = i.session.connection.frames := by
    rw [hc, Connection.frames_calm h.inOrder hcalm]
  obtain ⟨horder, hreached⟩ := h.reached_run cs
  rw [← hc] at horder hreached
  have hlegible : j.session.connection.Legible :=
    hc ▸ Connection.legible_run h.inOrder h.legible fun e he => (hcalm e he).fits
  refine ⟨horder, hreached, hq.language.trans h.language, hq.model.trans h.model, hlegible, ?_⟩
  have hsaid := h.said
  -- Within the loop the stage may change, after it a quiet step keeps the stage.
  by_cases hl : i.stage.inLoop = true
  · have hlater : j.stage.inLoop = true := hq.stage.elim (fun hs => hs ▸ hl) And.right
    rw [said_of_inLoop hl] at hsaid
    rw [said_of_inLoop hlater, heardLeaving_of_inLoop hl, List.append_nil, hframes]
    exact hsaid
  · have hs : j.stage = i.stage := hq.stage.resolve_right fun hr => hl hr.1
    rw [hs]
    cases hstage : i.stage with
    | leaving call =>
      rw [hstage] at hsaid
      obtain ⟨id, hf, hcall, ho⟩ := hsaid
      have hreader : j.session.connection.reader = .running :=
        ((Connection.isUp_iff _).mp (isUp_connection hup (Or.inr ⟨call, hs.trans hstage⟩))).1
      obtain ⟨hcall, hout⟩ := outcome?_quiet hq h.inOrder (Bool.not_eq_true _ ▸ hl)
        (fun he => by rw [hreader] at he; cases he) hcall
      refine ⟨id, hframes.trans hf, hcall, ?_⟩
      rw [hout, ho, heardLeaving, hstage, List.find?_append, Option.map_or]
    | ending | «over» =>
      rw [hstage] at hsaid
      rw [heardLeaving, hstage, List.append_nil]
      obtain ⟨id, hf⟩ := hsaid
      exact ⟨id, hframes.trans hf⟩
    | _ =>
      rw [hstage] at hl
      exact absurd rfl hl

/-! ## 3. The steps to the end -/

theorem isSynchronized_congr {s : Settings} (h : s.languageId = settings.languageId) :
    s.isSynchronized = settings.isSynchronized := by
  funext d
  rw [Settings.isSynchronized, Settings.isSynchronized, h]

/-- The session when the model, if there is one, has been closed. -/
def closed (s : Session) : Option TextDocument → Session
  | none => s
  | some d => (s.synchronize d .closed).1

theorem leave_eq (i : Interaction) :
    i.leave =
      { i with
        session := (closed i.session i.model).beginShutdown.1
        host := i.host.dropCommands
        stage := .leaving (closed i.session i.model).connection.calls.length } := by
  have hcall : ∀ s : Session, s.beginShutdown.2 = s.connection.calls.length :=
    fun s => Connection.request_fst s.connection.dropReceiver .shutdown
  rw [leave, ← hcall]
  cases i.model <;> rfl

/-- What is sent when the model is closed, on a connection that is up. -/
theorem exists_closed (s : Session) (o : Option TextDocument) (h : s.connection.InOrder)
    (hup : s.connection.isUp = true) :
    ∃ cs, closed s o = { s with connection := s.connection.run cs } ∧
      (s.connection.run cs).own =
        s.connection.own ++ (o.filter s.context.settings.isSynchronized).toList.map TextDocument.closing ∧
      (s.connection.run cs).isUp = true := by
  cases o with
  | none => exact ⟨[], rfl, (List.append_nil _).symm, hup⟩
  | some d =>
    rw [closed, Session.synchronize_eq, Option.filter]
    refine ⟨_, rfl, ?_⟩
    rw [Session.traffic]
    cases s.context.settings.isSynchronized d with
    | true => exact Connection.own_notifies h hup _ _
    | false => exact ⟨(List.append_nil _).symm, hup⟩

/-- What is sent when the server is asked to shut down, on a connection that is up. -/
theorem own_beginShutdown {c : Connection} (h : c.InOrder) (hup : c.isUp = true) :
    let d := (c.step .dropsReceiver).step (.requests .shutdown)
    d.own = c.own ++ [.request c.nextId "shutdown" none] ∧
      d.calls[c.calls.length]? = some (c.nextId, .shutdown) ∧ d.outcome? c.calls.length = none := by
  have hdropped : (c.step .dropsReceiver).InOrder := Connection.inOrder_step h .dropsReceiver
  obtain ⟨hr, ha⟩ := (Connection.isUp_iff c).mp hup
  have hrunning : (c.step .dropsReceiver).reader ≠ .ended := by
    rw [show (c.step .dropsReceiver).reader = .running from hr]
    exact fun he => by cases he
  exact ⟨(Connection.own_requests hdropped hup .shutdown).1, hdropped.getElem?_calls_request .shutdown,
    hdropped.outcome?_request_of_accepted hrunning ha .shutdown⟩

/-- **The loop ends**: the model is closed and the server asked to shut down. -/
theorem course_leave (h : Course settings doc origin heard i) (hl : i.stage.inLoop = true)
    (hup : i.session.connection.isUp = true) : Course settings doc origin heard i.leave := by
  obtain ⟨hframes, hnone⟩ := (said_of_inLoop hl).mp h.said
  obtain ⟨cs, hclosed, hown, hup⟩ := exists_closed i.session i.model h.inOrder hup
  rw [h.model, isSynchronized_congr h.language] at hown
  obtain ⟨horder, -⟩ := h.reached_run cs
  obtain ⟨hshutdown, hcall, ho⟩ := own_beginShutdown horder hup
  obtain ⟨hlast, hreached⟩ := h.reached_run (cs ++ [.dropsReceiver, .requests .shutdown])
  rw [Connection.run_append] at hlast hreached
  have hclosings := Connection.legible_of_own h.legible hown fun m hm => by
    obtain ⟨d, -, rfl⟩ := List.mem_map.mp hm
    exact d.fits_closing
  have hlegible := Connection.legible_of_own hclosings hshutdown fun m hm => by
    rw [List.mem_singleton.mp hm]
    exact Outgoing.fits_request _ _ fun j hj => by cases hj
  rw [leave_eq, hclosed]
  refine ⟨hlast, hreached, h.language, h.model, hlegible, _, ?_, hcall, hnone ▸ ho⟩
  have hframing : ∀ o : Option TextDocument, (o.toList.map TextDocument.closing).filter Outgoing.isFraming =
      o.toList.map TextDocument.closing := by
    rintro (_ | d) <;> rfl
  have hrequest : ∀ id, [Outgoing.request id "shutdown" none].filter Outgoing.isFraming =
      [.request id "shutdown" none] := fun id => rfl
  refine (congrArg (List.filter Outgoing.isFraming) hshutdown).trans ?_
  rw [hown, List.filter_append, List.filter_append, hframing, hrequest, farewell, ← List.append_assoc,
    ← hframes]
  rfl

/-- **The request to shut down has been answered.** -/
theorem course_agreed (h : Course settings doc origin heard i) (hup : i.session.connection.isUp = true)
    {call : Nat} (hl : i.stage = .leaving call) {r : Except Rpc.CallError Rpc.Reply}
    (hr : i.session.outcome? call = some r) (process : Supervisor) :
    Course settings doc origin heard
      { i with session := { i.session.shutdownAnswered r with process }, stage := .ending } := by
  have hsaid := h.said
  rw [hl] at hsaid
  obtain ⟨id, hframes, -, ho⟩ := hsaid
  obtain ⟨m, hm, rfl⟩ := Option.map_eq_some_iff.mp (ho.symm.trans hr)
  have hagreed : Rpc.agreed heard id = m.isAgreement := by rw [Rpc.agreed, hm, Option.any_some]
  cases hout : m.outcomeFor .shutdown with
  | ok reply =>
    have hyes : m.isAgreement = true := m.outcomeFor_shutdown.mp ⟨reply, hout⟩
    obtain ⟨horder, hreached⟩ := h.reached_run [.notifies "exit" none]
    have hlegible := Connection.legible_step h.inOrder h.legible (e := .notifies "exit" none)
      fun j hj => by cases hj
    refine ⟨horder, hreached, h.language, h.model, hlegible, id, ?_⟩
    have hexit : (i.session.connection.step (.notifies "exit" none)).frames =
        i.session.connection.frames ++ [.notification "exit" none] := by
      rw [Connection.frames, (Connection.own_notifies h.inOrder hup "exit" none).1, List.filter_append]
      rfl
    rw [hagreed, hyes, if_pos rfl, ← hframes]
    exact hexit
  | error cause =>
    have hno : m.isAgreement = false := by
      rw [← Bool.not_eq_true, ← m.outcomeFor_shutdown, hout]
      rintro ⟨reply, hreply⟩
      cases hreply
    refine ⟨h.inOrder, h.reached, h.language, h.model, h.legible, id, ?_⟩
    rw [hagreed, hno, if_neg Bool.false_ne_true, List.append_nil]
    exact hframes

/-- **The request to shut down is not answered in time.** -/
theorem course_patience (h : Course settings doc origin heard i) {call : Nat} (hl : i.stage = .leaving call)
    (hr : i.session.outcome? call = none) (process : Supervisor) :
    Course settings doc origin heard
      { i with session := { i.session with process }, stage := .ending } := by
  have hsaid := h.said
  rw [hl] at hsaid
  obtain ⟨id, hframes, -, ho⟩ := hsaid
  have hnone : heard.find? (·.answers id) = none := Option.map_eq_none_iff.mp (ho.symm.trans hr)
  refine ⟨h.inOrder, h.reached, h.language, h.model, h.legible, id, ?_⟩
  rw [Rpc.agreed, hnone, Option.any_none, if_neg Bool.false_ne_true, List.append_nil]
  exact hframes

/-- **The process has ended.** -/
theorem course_finish (h : Course settings doc origin heard i) (hl : i.stage = .ending) :
    Course settings doc origin heard { i with session := i.session.finish, stage := .over } := by
  obtain ⟨horder, hreached⟩ := h.reached_run [.aborts]
  have hsaid := h.said
  rw [hl] at hsaid
  exact ⟨horder, hreached, h.language, h.model, h.legible, hsaid⟩

/-! ## 4. Runs -/

/-- **What one step makes of the course of a session.** -/
theorem course_step (h : Course settings doc origin heard i) (hup : i.isUp = true) (hup' : j.isUp = true)
    (hj : i.step? e = some j) : Course settings doc origin (heard ++ i.heardLeaving e) j := by
  cases (progress_of_step? hj).2 with
  | quiet hq => exact course_quiet h hq hup'
  | leaves hp inputFailure =>
    have hl : i.stage.inLoop = true := hp ▸ rfl
    have hcourse := course_leave h hl (isUp_connection hup (Or.inl hl))
    rw [heardLeaving_of_inLoop hl, List.append_nil]
    exact ⟨hcourse.inOrder, hcourse.reached, hcourse.language, hcourse.model, hcourse.legible, hcourse.said⟩
  | agreed hl hr process =>
    rw [heardLeaving_of_ne (fun he => by cases he), List.append_nil]
    exact course_agreed h (isUp_connection hup (Or.inr ⟨_, hl⟩)) hl hr process
  | patienceEnds hl hr process =>
    rw [heardLeaving_of_ne (fun he => by cases he), List.append_nil]
    exact course_patience h hl hr process
  | finishes he =>
    rw [heardLeaving_of_ne (fun he => by cases he), List.append_nil]
    exact course_finish h he

theorem isUp_of_staysUp {es : List Event} (h : i.staysUp es = true) : i.isUp = true := by
  cases es with
  | nil => exact h
  | cons e es => exact (Bool.and_eq_true_iff.mp h).1

/-- **What a run makes of the course of a session**, as long as the connection is up. -/
theorem course_run {es : List Event} (h : Course settings doc origin heard i) (hj : i.run? es = some j)
    (hup : i.staysUp es = true) : Course settings doc origin (heard ++ i.trace heardLeaving es) j := by
  induction es generalizing i heard with
  | nil =>
    cases hj
    rw [trace, List.append_nil]
    exact h
  | cons e es ih =>
    obtain ⟨k, hk, hj⟩ := Option.bind_eq_some_iff.mp hj
    obtain ⟨hnow, hlater⟩ := Bool.and_eq_true_iff.mp hup
    rw [hk, Option.map_some, Option.getD_some] at hlater
    rw [trace_cons heardLeaving hk, ← List.append_assoc]
    exact ih (course_step h hnow (isUp_of_staysUp hlater) hk) hj hlater

theorem staysUp_of_append {es fs : List Event} (h : i.staysUp (es ++ fs) = true) : i.staysUp es = true := by
  induction es generalizing i with
  | nil => exact isUp_of_staysUp h
  | cons e es ih =>
    obtain ⟨hnow, hlater⟩ := Bool.and_eq_true_iff.mp h
    refine Bool.and_eq_true_iff.mpr ⟨hnow, ?_⟩
    cases hk : i.step? e with
    | none => rfl
    | some k =>
      rw [hk] at hlater
      exact ih hlater

/-- A run that comes to its end does so with the end of the process. -/
theorem exists_finish {es : List Event} (hj : i.run? es = some j) (hi : i.stage ≠ .over)
    (hover : j.stage = .over) :
    ∃ fs k, es = fs ++ [.finishes] ∧ i.run? fs = some k ∧
      j = { k with session := k.session.finish, stage := .over } := by
  induction es generalizing i with
  | nil =>
    cases hj
    exact absurd hover hi
  | cons e es ih =>
    obtain ⟨k, hk, hj⟩ := Option.bind_eq_some_iff.mp hj
    by_cases hend : k.stage = .over
    · have hlast : es = [] := by
        cases es with
        | nil => rfl
        | cons e' es =>
          obtain ⟨l, hl, -⟩ := Option.bind_eq_some_iff.mp hj
          exact absurd hend (progress_of_step? hl).1
      subst hlast
      cases hj
      cases (progress_of_step? hk).2 with
      | quiet hq =>
        rcases hq.stage with hs | ⟨-, hs⟩
        · exact absurd (hs.symm.trans hend) hi
        · rw [hend] at hs
          cases hs
      | leaves hp inputFailure => cases hend
      | agreed hl hr process => cases hend
      | patienceEnds hl hr process => cases hend
      | finishes he => exact ⟨[], i, rfl, rfl, rfl⟩
    · obtain ⟨fs, l, rfl, hl, rfl⟩ := ih hj hend
      exact ⟨e :: fs, l, rfl, by rw [run?_cons, hk, Option.bind_some, hl], rfl⟩

/-! ## 5. The beginning -/

/-- What is said in the handshake. -/
def greeting (processId : Nat) : List Outgoing :=
  [.request 1 "initialize" (some (Lifecycle.handshakeParams processId)),
    .notification "initialized" (some (.obj []))]

/-- What is said about a document and its text when it is opened: it is opened, and its lenses are asked
    for. -/
def introduction (id : Int64) (p : TextDocument × String) : List Outgoing :=
  [p.1.opening p.2, .request id "textDocument/codeLens" (some (Rpc.Request.documentParams p.1.uri))]

/-- What is sent when a document is opened, if the connection is up afterwards. -/
theorem own_opened {s : Session} (h : s.connection.InOrder) (model : Option (TextDocument × String)) :
    ∃ cs, (opened s model).connection = s.connection.run cs ∧
      ((opened s model).connection.isUp = true → (opened s model).connection.own =
        s.connection.own ++
          (model.filter fun p => s.context.settings.isSynchronized p.1).toList.flatMap
            (introduction s.connection.nextId)) := by
  cases model with
  | none => exact ⟨[], rfl, fun _ => (List.append_nil _).symm⟩
  | some p =>
    obtain ⟨d, text⟩ := p
    rw [opened, Session.openDocument_eq, Option.filter]
    refine ⟨_, rfl, fun hup => ?_⟩
    have hbefore : s.connection.isUp = true := Connection.isUp_of_run hup
    have ha : s.connection.accepts = true := ((Connection.isUp_iff _).mp hbefore).2
    dsimp only
    rw [Session.traffic]
    cases s.context.settings.isSynchronized d with
    | false => exact (List.append_nil _).symm
    | true =>
      -- The connection takes `didOpen`, is still up and gives the request the next number.
      obtain ⟨hown, hup'⟩ := Connection.own_notifies h hbefore "textDocument/didOpen"
        (some ((DocumentChange.opened 1 text).params d))
      have horder := Connection.inOrder_step h (.notifies "textDocument/didOpen"
        (some ((DocumentChange.opened 1 text).params d)))
      have hid : (s.connection.step (.notifies "textDocument/didOpen"
          (some ((DocumentChange.opened 1 text).params d)))).nextId = s.connection.nextId :=
        congrArg Rpc.Books.nextId (Connection.books_notify s.connection _ _)
      have hlenses := (Connection.own_requests horder hup' (.codeLenses d.uri)).1
      rw [hid, hown, List.append_assoc] at hlenses
      rw [if_pos rfl, ha]
      exact hlenses

/-- What is said when a document is opened can be read. -/
theorem legible_opened {s : Session} (h : s.connection.InOrder) (hs : s.connection.Legible)
    (model : Option (TextDocument × String)) : (opened s model).connection.Legible := by
  cases model with
  | none => exact hs
  | some p =>
    rw [opened, Session.openDocument_eq]
    exact Connection.legible_run h hs fun x hx => (Session.says_of_mem_traffic hx).fits

/-- **How a session begins.** -/
theorem course_start {s : Session} (h : s.connection.InOrder) (hs : s.connection.Legible)
    (model : Option (TextDocument × String)) (failure : Option LaunchError) :
    (start s model failure).stage.inLoop = true ∧
      (start s model failure).session.connection = (opened s model).connection ∧
      Course s.context.settings (model.map (·.1)) (opened s model).connection [] (start s model failure) := by
  obtain ⟨stage, printed, hl, hstart⟩ := exists_start s model failure
  rw [hstart]
  refine ⟨hl, rfl, inOrder_opened h model, ⟨[], rfl⟩, ?_, rfl, legible_opened h hs model,
    (said_of_inLoop hl).mpr ⟨rfl, rfl⟩⟩
  exact congrArg (·.settings.languageId) (context_opened s model)

/-- What an activated session has said. -/
theorem said_of_activate {config : Config} {w : World} {s : Session} (h : (activate config w).outcome = .ok s) :
    s.connection.own = greeting w.processId ∧ s.connection.nextId = 2 ∧
      s.context.settings = ⟨config.editor.languageId, config.editor.highlightMode⟩ ∧
      ∃ gs, s.connection = Connection.start.run gs := by
  obtain ⟨gs, hgs, -⟩ := Activation.exists_run_of_ok h
  obtain ⟨-, html, reply, rfl, -, haccepts⟩ := Activation.session_of_ok h
  change Activation.opened w = Connection.start.run gs at hgs
  have horder : (Activation.opened w).InOrder := Activation.inOrder_of_ok h
  refine ⟨Activation.own_opened haccepts, horder.books.next.trans ?_, rfl, gs, hgs⟩
  have hcalls : (Activation.opened w).books.calls = [(1, Activation.opening w)] := Activation.calls_opened w
  rw [hcalls]
  rfl

/-- What an activated session has said can be read: the number of a process has 32 bits. -/
theorem legible_of_activate {config : Config} {w : World} {s : Session} (h : (activate config w).outcome = .ok s)
    (hid : w.processId < UInt32.size) : s.connection.Legible := by
  have hprocess : (w.processId : Int) ≤ 18446744073709551615 := by
    have hsize : UInt32.size = 4294967296 := rfl
    omega
  intro m hm
  rw [(said_of_activate h).1, greeting] at hm
  rcases List.mem_cons.mp hm with rfl | hm
  · refine Outgoing.fits_request _ _ fun j hj => ?_
    cases hj
    simp [Lifecycle.handshakeParams, Lifecycle.clientCapabilities, Lifecycle.clientInfo, Json.Fits,
      Json.MembersFit, Json.maxDepth, hprocess]
  · rw [List.mem_singleton.mp hm]
    refine Outgoing.fits_notification _ fun j hj => ?_
    cases hj
    simp [Json.Fits, Json.MembersFit, Json.maxDepth]

end Terminal.Interaction

/-! ## 6. From the first message to the last -/

namespace TextDocument

variable (d : TextDocument)

/-- A document is opened, as the server reads it. -/
def openedMessage (text : String) : Json :=
  Rpc.call none "textDocument/didOpen" (some (.obj [("textDocument", .obj
    [("languageId", .str d.languageId), ("text", .str text), ("uri", .str d.uri.text), ("version", .int 1)])]))

/-- The lenses of a document are asked for, as the server reads it. -/
def lensRequest (id : Int) : Json :=
  Rpc.call (some id) "textDocument/codeLens" (some (.obj [("textDocument", .obj [("uri", .str d.uri.text)])]))

/-- A document is closed, as the server reads it. -/
def closedMessage : Json :=
  Rpc.call none "textDocument/didClose" (some (.obj [("textDocument", .obj [("uri", .str d.uri.text)])]))

theorem asRead_opening (text : String) : (d.opening text).asRead = d.openedMessage text := by
  rw [opening, Outgoing.asRead_notification, openedMessage]
  simp (disch := simp only [List.map_cons, List.map_nil]; decide) only [Option.map_some, DocumentChange.params,
    DocumentChange.named, List.cons_append, List.nil_append, Json.normal_obj, List.map_cons, List.map_nil,
    Json.normal_str, Json.normal_int]
  rfl

theorem asRead_closing : d.closing.asRead = d.closedMessage := by
  rw [closing, Outgoing.asRead_notification]
  exact congrArg (fun j => Rpc.call none "textDocument/didClose" (some j))
    (Rpc.Request.normal_documentParams d.uri)

theorem asRead_lenses (id : Int64) :
    (Outgoing.request id "textDocument/codeLens" (some (Rpc.Request.documentParams d.uri))).asRead =
      d.lensRequest id.toInt := by
  rw [Outgoing.asRead_request, Option.map_some, Rpc.Request.normal_documentParams]
  rfl

end TextDocument

namespace Terminal.Interaction

variable {i j k : Interaction} {e : Event} {settings : Settings} {doc : Option TextDocument}
  {origin : Connection} {heard : List Message}

/-- The handshake, as the server reads it. -/
def handshake (processId : Nat) : List Json :=
  [Rpc.call (some 1) "initialize" (some (Lifecycle.handshakeParams processId)),
    Rpc.call none "initialized" (some (.obj []))]

theorem asRead_greeting (processId : Nat) :
    (greeting processId).map Outgoing.asRead = handshake processId := by
  rw [greeting, List.map_cons, List.map_singleton, Outgoing.asRead_request, Outgoing.asRead_notification,
    handshake]
  simp (disch := simp only [List.map_cons, List.map_nil]; decide) only [Option.map_some,
    Lifecycle.handshakeParams, Lifecycle.clientCapabilities, Lifecycle.clientInfo, Json.normal_obj,
    List.map_cons, List.map_nil, Json.normal_str, Json.normal_int, Json.normal_bool, Json.normal_null]
  rfl

theorem asRead_introductions (told : Option (TextDocument × String)) (id : Int64) :
    (told.toList.flatMap (introduction id)).map Outgoing.asRead =
      told.toList.flatMap fun p => [p.1.openedMessage p.2, p.1.lensRequest id.toInt] := by
  cases told with
  | none => rfl
  | some p =>
    rw [Option.toList_some, List.flatMap_singleton, List.flatMap_singleton, introduction, List.map_cons,
      List.map_singleton, TextDocument.asRead_opening, TextDocument.asRead_lenses]

/-- What frames a session, as it is read. -/
theorem asRead_frames (processId : Nat) (told : Option (TextDocument × String)) (id : Int64) (agreed : Bool) :
    (greeting processId ++ (told.toList.map fun p => p.1.opening p.2) ++
        (told.toList.map fun p => p.1.closing) ++ [Outgoing.request id "shutdown" none] ++
        (if agreed then [Outgoing.notification "exit" none] else [])).map Outgoing.asRead =
      handshake processId ++ (told.toList.map fun p => p.1.openedMessage p.2) ++
        (told.toList.map fun p => p.1.closedMessage) ++ [Rpc.call (some id.toInt) "shutdown" none] ++
        (if agreed then [Rpc.call none "exit" none] else []) := by
  have hshutdown := Outgoing.asRead_request id "shutdown" none
  have hexit := Outgoing.asRead_notification "exit" none
  have hopened : (fun p : TextDocument × String => (p.1.opening p.2).asRead) = fun p => p.1.openedMessage p.2 :=
    funext fun p => p.1.asRead_opening p.2
  have hclosed : (fun p : TextDocument × String => p.1.closing.asRead) = fun p => p.1.closedMessage :=
    funext fun p => p.1.asRead_closing
  have hend : (if agreed then [Outgoing.notification "exit" none] else []).map Outgoing.asRead =
      if agreed then [Rpc.call none "exit" none] else [] := by
    cases agreed with
    | true => exact congrArg (fun x => [x]) hexit
    | false => rfl
  rw [List.map_append, List.map_append, List.map_append, List.map_append, asRead_greeting, List.map_map,
    List.map_map, List.map_singleton, hshutdown, hend]
  exact congrArg₂ (fun f g => handshake processId ++ told.toList.map f ++ told.toList.map g ++ _ ++ _)
    hopened hclosed

theorem frames_introductions (told : Option (TextDocument × String)) (processId : Nat) (id : Int64) :
    (greeting processId ++ told.toList.flatMap (introduction id)).filter Outgoing.isFraming =
      greeting processId ++ told.toList.map fun p => p.1.opening p.2 := by
  cases told <;> rfl

theorem farewell_of_told (settings : Settings) (model : Option (TextDocument × String)) (id : Int64) :
    farewell settings (model.map (·.1)) id =
      ((model.filter fun p => settings.isSynchronized p.1).toList.map fun p => p.1.closing) ++
        [.request id "shutdown" none] := by
  cases model with
  | none => rfl
  | some p =>
    rw [farewell, Option.map_some, Option.filter, Option.filter]
    cases settings.isSynchronized p.1 <;> rfl

section Whole

variable {config : Config} {w : World} {s : Session} {model : Option (TextDocument × String)}
  {failure : Option LaunchError} {es : List Event}

/-- **What a whole interaction says**, in an activated session whose connection stays up. -/
theorem own_of_run (hs : (activate config w).outcome = .ok s) (hid : w.processId < UInt32.size)
    (hj : (start s model failure).run? es = some j)
    (hover : j.stage = .over) (hup : (start s model failure).staysUp es = true) :
    let told := model.filter fun p =>
      (Settings.mk config.editor.languageId config.editor.highlightMode).isSynchronized p.1
    (∃ rest, j.session.connection.own =
      greeting w.processId ++ told.toList.flatMap (introduction 2) ++ rest) ∧
    ∃ id, j.session.connection.frames =
      greeting w.processId ++ (told.toList.map fun p => p.1.opening p.2) ++
        (told.toList.map fun p => p.1.closing) ++ [.request id "shutdown" none] ++
        if Rpc.agreed ((start s model failure).trace heardLeaving es) id then [.notification "exit" none]
        else [] := by
  intro told
  obtain ⟨hgreeting, hnext, hsettings, -⟩ := said_of_activate hs
  have horder := Activation.inOrder_of_ok hs
  obtain ⟨hl, hstart, hcourse⟩ := course_start horder (legible_of_activate hs hid) model failure
  have hupStart : (opened s model).connection.isUp = true :=
    hstart ▸ isUp_connection (isUp_of_staysUp hup) (Or.inl hl)
  obtain ⟨cs, hcs, hown⟩ := own_opened horder model
  have hown := hown hupStart
  rw [hgreeting, hnext, hsettings] at hown
  have hend := course_run hcourse hj hup
  obtain ⟨fs, hfs⟩ := hend.reached
  have hsaid := hend.said
  rw [hover] at hsaid
  obtain ⟨id, hframes⟩ := hsaid
  constructor
  · obtain ⟨rest, hrest⟩ := Connection.own_prefix_run (hstart ▸ hcourse.inOrder) fs
    exact ⟨rest, by rw [hfs, ← hrest, hown]⟩
  · refine ⟨id, hframes.trans ?_⟩
    rw [farewell_of_told, Connection.frames, hown, frames_introductions, hsettings, ← List.append_assoc]
    rfl

/-- **What a whole interaction writes**, and what is read in it. -/
theorem read_of_run (hs : (activate config w).outcome = .ok s) (hid : w.processId < UInt32.size)
    (hj : (start s model failure).run? es = some j) (hover : j.stage = .over)
    (hup : (start s model failure).staysUp es = true) :
    let c := j.session.connection
    ∃ fs k written unwritten, es = fs ++ [.finishes] ∧ (start s model failure).run? fs = some k ∧
      c.accepted = written ++ unwritten ∧
      (k.session.connection.accepts = true → unwritten = k.session.connection.queue) ∧
      c.wire = (written.map Outgoing.body).flatMap Frame.encode ∧
      (Frame.readAll c.wire).1 = (written.map Outgoing.body).takeWhile Frame.fits ∧
      ((written ++ unwritten).map Outgoing.body).filterMap Rpc.ownMessage? =
        c.own.map Outgoing.asRead := by
  intro c
  obtain ⟨-, -, -, gs, hgs⟩ := said_of_activate hs
  have horder := Activation.inOrder_of_ok hs
  obtain ⟨hl, -, hcourse⟩ := course_start horder (legible_of_activate hs hid) model failure
  have hnotOver : (start s model failure).stage ≠ .over := fun he => by rw [he] at hl; cases hl
  obtain ⟨fs, k, rfl, hk, rfl⟩ := exists_finish hj hnotOver hover
  have hlast := course_run hcourse hk (staysUp_of_append hup)
  obtain ⟨ks, hks⟩ := hlast.reached
  obtain ⟨cs, hcs, -⟩ := own_opened horder model
  have hwhole : k.session.connection = Connection.start.run (gs ++ cs ++ ks) := by
    rw [hks, hcs, hgs, Connection.run_append, Connection.run_append]
  have hread := Connection.read_own (hwhole ▸ hlast.legible)
  rw [← hwhole] at hread
  obtain ⟨written, unwritten, h⟩ := hread
  exact ⟨fs, k, written, unwritten, rfl, hk, h⟩

end Whole

end Terminal.Interaction

/-! ## 7. Calls of the program -/

namespace Program

open Terminal (Interaction)
open Terminal.Interaction (greeting handshake introduction heardLeaving)

variable {m : Machine} {config : Config}

theorem beginSession_interactive {model : Option (TextDocument × String)} {i : Interaction}
    (h : beginSession m config model = .interactive i) :
    ∃ s, (activate config (m.world config)).outcome = .ok s ∧
      i = .start s model (m.launchFailure config.server.runtime) := by
  rw [beginSession] at h
  split at h
  · cases h
  · rename_i s hs
    cases h
    exact ⟨s, hs, rfl⟩

/-- **How a call of the program comes to an interaction.** -/
theorem interactive_cases {arguments : List String} {i : Interaction} (h : run m arguments = .interactive i) :
    ∃ configPath highlight path config model s,
      CommandLine.parse arguments = .ok (.session configPath highlight path) ∧
      (CommandLine.loader configPath highlight).build m.files = .ok config ∧
      path.map (openModel m config) = model.map .ok ∧
      (activate config (m.world config)).outcome = .ok s ∧
      i = .start s model (m.launchFailure config.server.runtime) := by
  rw [run] at h
  cases hp : CommandLine.parse arguments with
  | error e =>
    rw [hp] at h
    cases h
  | ok invocation =>
    rw [hp] at h
    cases invocation with
    | help ofEditor | version => cases h
    | editor configPath path =>
      change withConfig m configPath none (openEditor m) = _ at h
      rw [withConfig] at h
      split at h
      · cases h
      · rw [openEditor] at h
        split at h <;> cases h
    | session configPath highlight path =>
      change withConfig m configPath highlight (runSession m · path) = _ at h
      rw [withConfig] at h
      split at h
      · cases h
      · rename_i config hc
        cases path with
        | none =>
          obtain ⟨s, hs, hi⟩ := beginSession_interactive h
          exact ⟨configPath, highlight, none, config, none, s, rfl, hc, rfl, hs, hi⟩
        | some path =>
          rw [runSession] at h
          cases hm : openModel m config path with
          | error f =>
            rw [hm] at h
            cases h
          | ok model =>
            rw [hm] at h
            obtain ⟨s, hs, hi⟩ := beginSession_interactive h
            exact ⟨configPath, highlight, some path, config, some model, s, rfl, hc, congrArg some hm, hs, hi⟩

/-- A model that has been opened, and when the server is told about it. -/
theorem openModel_ok {path : String} {d : TextDocument} {text : String}
    (h : openModel m config path = .ok (d, text)) :
    ∃ full, m.fullPath path = .ok full ∧ m.text path = .ok text ∧
      Url.ofFilePath (Text.Utf8.encode full) = some d.uri ∧
      Model.Speaks config.editor.languageId full d.languageId := by
  rw [openModel] at h
  split at h
  · cases h
  · rename_i full hfull
    split at h
    · cases h
    · cases h
    · rename_i text' d' htext hd
      cases h
      obtain ⟨uri, huri, rfl⟩ := Option.map_eq_some_iff.mp hd
      exact ⟨full, hfull, htext, huri, Model.speaks_iff.mpr rfl⟩

/-- The model of a call is told the server if it is in the language of the session. -/
theorem told_of_openModel {path : Option String} {model : Option (TextDocument × String)}
    (h : path.map (openModel m config) = model.map .ok) (mode : HighlightMode) :
    let language := config.editor.languageId
    let told := model.filter fun p => (Settings.mk language mode).isSynchronized p.1
    (told.isSome = true ↔ ∃ p full, path = some p ∧ m.fullPath p = .ok full ∧
      Model.Speaks language full language) ∧
    ∀ d text, told = some (d, text) → ∃ p full, path = some p ∧ m.fullPath p = .ok full ∧
      m.text p = .ok text ∧ Url.ofFilePath (Text.Utf8.encode full) = some d.uri ∧ d.languageId = language := by
  intro language told
  cases path with
  | none =>
    cases model with
    | some r => cases h
    | none =>
      refine ⟨iff_of_false Bool.false_ne_true ?_, fun d text (hd : none = some (d, text)) => by cases hd⟩
      rintro ⟨p, full, hp, -⟩
      cases hp
  | some p =>
    cases model with
    | none => cases h
    | some r =>
      obtain ⟨d, text⟩ := r
      obtain ⟨full, hfull, htext, huri, hspeaks⟩ := openModel_ok (Option.some.inj h)
      have hsync : (Settings.mk language mode).isSynchronized d = true ↔ d.languageId = language := by
        rw [Settings.isSynchronized_iff]
        exact and_iff_right (Url.isUrlOf_of_ofFilePath huri).scheme
      have htold : told = if (Settings.mk language mode).isSynchronized d then some (d, text) else none := rfl
      rw [htold]
      by_cases hl : d.languageId = language
      · have hthere : Model.Speaks language full language := by
          rw [hl] at hspeaks
          exact hspeaks
        rw [if_pos (hsync.mpr hl)]
        refine ⟨iff_of_true rfl ⟨p, full, rfl, hfull, hthere⟩, fun d' text' hs => ?_⟩
        cases hs
        exact ⟨p, full, rfl, hfull, htext, huri, hl⟩
      · rw [if_neg (mt hsync.mp hl)]
        refine ⟨iff_of_false Bool.false_ne_true ?_, fun d' text' hs => by cases hs⟩
        rintro ⟨p', full', hp, hfull', hspeaks'⟩
        cases hp
        cases hfull.symm.trans hfull'
        exact hl ((Model.speaks_iff.mp hspeaks).symm.trans (Model.speaks_iff.mp hspeaks'))

/-- **The life cycle of a session.** A call of the program has begun an interaction, which has come to its
    end, and the connection was up until the process was asked to end. Whatever model is named, whatever is
    typed and whatever the server does:

    What stands on the wire are the frames of what has been written, and what has not been written was in the
    queue when the process had ended. The messages of the bridge's own, as they are read in these frames and
    after them in what has not been written, begin with `initialize` under the number 1 and `initialized`. If
    the call names a model in the language of the session, the next are `textDocument/didOpen` with its URI,
    its language and its text, and the request for its lenses; the language of a model is the one of the
    session for `.als`, else its extension, else plain text.

    The messages that frame the session are the two of the handshake, `didOpen` and `didClose` for that
    model and for no other, the request to shut down, and `exit` exactly if the first answer to that request
    that is heard in time holds no error and a null result. -/
theorem life_cycle {arguments : List String} {i j : Interaction} {es : List Terminal.Event}
    (hi : run m arguments = .interactive i) (hj : i.run? es = some j) (hover : j.stage = .over)
    (hup : i.staysUp es = true) :
    ∃ configPath highlight path config, ∃ (told : Option (TextDocument × String)) (id : Int64),
      CommandLine.parse arguments = .ok (.session configPath highlight path) ∧
      (CommandLine.loader configPath highlight).build m.files = .ok config ∧
      (told.isSome = true ↔ ∃ p full, path = some p ∧ m.fullPath p = .ok full ∧
        Model.Speaks config.editor.languageId full config.editor.languageId) ∧
      (∀ d text, told = some (d, text) → ∃ p full, path = some p ∧ m.fullPath p = .ok full ∧
        m.text p = .ok text ∧ Url.ofFilePath (Text.Utf8.encode full) = some d.uri ∧
        Url.IsUrlOf (Text.Utf8.encode full) d.uri ∧ d.languageId = config.editor.languageId) ∧
      ∃ fs k written unwritten, es = fs ++ [.finishes] ∧ i.run? fs = some k ∧
        j.session.connection.accepted = written ++ unwritten ∧
        (k.session.connection.accepts = true → unwritten = k.session.connection.queue) ∧
        j.session.connection.wire = (written.map Outgoing.body).flatMap Frame.encode ∧
        (Frame.readAll j.session.connection.wire).1 = (written.map Outgoing.body).takeWhile Frame.fits ∧
        let said := ((written ++ unwritten).map Outgoing.body).filterMap Rpc.ownMessage?
        handshake m.processId.toNat ++ (told.toList.flatMap fun p => [p.1.openedMessage p.2, p.1.lensRequest 2])
          <+: said ∧
        said.filter Rpc.isFramingMessage =
          handshake m.processId.toNat ++ (told.toList.map fun p => p.1.openedMessage p.2) ++
            (told.toList.map fun p => p.1.closedMessage) ++ [Rpc.call (some id.toInt) "shutdown" none] ++
            (if Rpc.agreed (i.trace heardLeaving es) id then [Rpc.call none "exit" none] else []) := by
  obtain ⟨configPath, highlight, path, config, model, s, hparse, hconfig, hmodel, hs, rfl⟩ :=
    interactive_cases hi
  obtain ⟨htold, htext⟩ := told_of_openModel hmodel config.editor.highlightMode
  have hid : (m.world config).processId < UInt32.size := m.processId.toNat_lt_size
  obtain ⟨⟨rest, hown⟩, id, hframes⟩ := Interaction.own_of_run hs hid hj hover hup
  obtain ⟨fs, k, written, unwritten, hes, hk, haccepted, hqueue, hwire, hbodies, hread⟩ :=
    Interaction.read_of_run hs hid hj hover hup
  refine ⟨configPath, highlight, path, config, _, id, hparse, hconfig, htold, fun d text hd => ?_, fs, k,
    written, unwritten, hes, hk, haccepted, hqueue, hwire, hbodies, ?_, ?_⟩
  · obtain ⟨p, full, hp, hfull, htext, huri, hlanguage⟩ := htext d text hd
    exact ⟨p, full, hp, hfull, htext, huri, Url.isUrlOf_of_ofFilePath huri, hlanguage⟩
  · rw [hread, hown, List.map_append, List.map_append, Interaction.asRead_greeting,
      Interaction.asRead_introductions]
    exact List.prefix_append _ _
  · rw [hread, Outgoing.filter_isFramingMessage, ← Interaction.asRead_frames]
    exact congrArg (List.map Outgoing.asRead) hframes

/-- A model is opened, `quit` is typed, and the server agrees: six messages are read on the wire that frame the
    session. -/
theorem life_cycle_agreed :
    let responds (fields : List Json) : List UInt8 := Frame.encode (Json.arr fields).printBytes
    let m : Machine := ⟨fun _ => .ok [], fun path => .ok ("/" ++ path), fun _ => none, .connected, 50000, 7,
      [.sends (responds [.int 1, .null, .null, .obj [("capabilities", .obj [])]])]⟩
    let es : List Terminal.Event := [.sends (responds [.int 2]), .reads, .resumes, .line "quit",
      .sends (responds [.int 3]), .reads, .resumes] ++ List.replicate 6 .writes ++
      [.process (.exits ⟨0⟩), .process .seesExit, .finishes]
    let d : TextDocument := ⟨⟨"file", true, "", none, "", none, "/m.als", none, none⟩, "alloy", false⟩
    ∃ i j : Interaction, run m ["m.als"] = .interactive i ∧ i.run? es = some j ∧ j.stage = .over ∧
      i.staysUp es = true ∧
      ((Frame.readAll j.session.connection.wire).1.filterMap Rpc.ownMessage?).filter Rpc.isFramingMessage =
        handshake 7 ++ [d.openedMessage "", d.closedMessage, Rpc.call (some 3) "shutdown" none,
          Rpc.call none "exit" none] := by
  intro responds m es d
  have hrun : (match run m ["m.als"] with
      | .interactive i => (i.run? es).map fun j =>
        (decide (j.stage = .over), i.staysUp es, (Frame.readAll j.session.connection.wire).1.length,
          j.session.connection.accepted.length)
      | .ended _ _ => none) = some (true, true, 7, 7) := by
    decide +kernel
  have hnames : (match run m ["m.als"] with
      | .interactive i => (i.run? es).map fun j =>
        (((Frame.readAll j.session.connection.wire).1.filterMap Rpc.ownMessage?).filter
          Rpc.isFramingMessage).map fun x => ((x.get? "id").bind Json.int?, Rpc.methodOf? x)
      | .ended _ _ => none) = some
        [(some 1, some "initialize"), (none, some "initialized"), (none, some "textDocument/didOpen"),
          (none, some "textDocument/didClose"), (some 3, some "shutdown"), (none, some "exit")] := by
    decide +kernel
  cases hi : run m ["m.als"] with
  | ended printed code =>
    rw [hi] at hrun
    cases hrun
  | interactive i =>
    rw [hi] at hrun hnames
    obtain ⟨j, hj, hrun⟩ := Option.map_eq_some_iff.mp hrun
    obtain ⟨j', hj', hnames⟩ := Option.map_eq_some_iff.mp hnames
    cases hj.symm.trans hj'
    rw [Prod.mk.injEq, Prod.mk.injEq, Prod.mk.injEq, decide_eq_true_iff] at hrun
    obtain ⟨hover, hup, hbodies, haccepted⟩ := hrun
    obtain ⟨configPath, highlight, path, config, told, id, hparse, hconfig, htold, htext, fs, k, written,
      unwritten, -, -, hdivides, -, -, hread, -, hframes⟩ := life_cycle hi hj hover hup
    -- The model is told to the server.
    have hmodel : CommandLine.parse ["m.als"] = .ok (.session none none (some "m.als")) := by decide +kernel
    cases hmodel.symm.trans hparse
    have halloy : ((CommandLine.loader none none).build m.files).toOption.map (·.editor.languageId) =
        some "alloy" := by decide +kernel
    rw [hconfig] at halloy
    have hlanguage : config.editor.languageId = "alloy" := Option.some.inj halloy
    obtain ⟨⟨d', text⟩, rfl⟩ := Option.isSome_iff_exists.mp (htold.mpr ⟨"m.als", "/m.als", rfl, rfl, by
      rw [hlanguage]
      exact Model.speaks_iff.mpr (by decide +kernel)⟩)
    obtain ⟨p, full, hp, hfull, htext, huri, -, hd⟩ := htext d' text rfl
    cases hp
    cases hfull
    cases htext
    -- All that has been accepted has been written.
    have hprefix := List.takeWhile_prefix (l := written.map Outgoing.body) Frame.fits
    have hshort := hprefix.length_le
    rw [hdivides, List.length_append] at haccepted
    rw [← hread, hbodies, List.length_map] at hshort
    have hnone : unwritten = [] := List.eq_nil_of_length_eq_zero (by omega)
    have hall : (Frame.readAll j.session.connection.wire).1 = (written ++ unwritten).map Outgoing.body := by
      rw [hnone, List.append_nil, hread]
      refine hprefix.eq_of_length ?_
      rw [← hread, hbodies, List.length_map]
      omega
    rw [hall, hframes] at hnames
    split at hnames
    · rename_i hagreed
      have hshutdown : some (some id.toInt, some "shutdown") = some (some 3, some "shutdown") :=
        congrArg (fun names => names[4]?) hnames
      have hid : id.toInt = 3 := by
        rw [Option.some.injEq, Prod.mk.injEq, Option.some.injEq] at hshutdown
        exact hshutdown.1
      have hopened : d'.openedMessage "" = d.openedMessage "" := by
        rw [TextDocument.openedMessage, TextDocument.openedMessage, hd, hlanguage, ← Option.some.inj huri]
        rfl
      have hclosed : d'.closedMessage = d.closedMessage := by
        rw [TextDocument.closedMessage, TextDocument.closedMessage, ← Option.some.inj huri]
        rfl
      refine ⟨i, j, rfl, hj, hover, hup, ?_⟩
      rw [hall, hframes, if_pos hagreed, hid, ← hopened, ← hclosed]
      rfl
    · have hlength : 5 = 6 := congrArg List.length hnames
      cases hlength

end Program

end EditorBridge
