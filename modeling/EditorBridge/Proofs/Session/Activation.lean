import EditorBridge.Proofs.Rpc.Answers
import EditorBridge.Proofs.Rpc.Delivery
import EditorBridge.Proofs.Rpc.Outcomes
import EditorBridge.Proofs.Session.Run
import EditorBridge.Session.Activation

/-!
# Activation is all or nothing

While the handshake is waited for, the connection goes through events of the stream only
(`exists_awaited`), whatever the peer does and in whatever pieces. Such events make no call and put
nothing into the queue but answers to the peer (`calls_traffic`, `own_traffic`).

`trail` lists what an activation that fails has done, for each way of failing (`trail_of_error`); the
connection is cut off if there is one. One that succeeds has launched the server and no more, and its
handshake was answered (`session_of_ok`).

**`activate_all_or_nothing`** -- the two together, and which worlds allow which.
-/

namespace EditorBridge

open Rpc (Connection Message heardIn)
open Session (Traffic)

/-! ## 1. The stream during the handshake -/

namespace Rpc.Connection

variable {c : Connection}

/-- The messages accepted so far that are no answers. -/
def own (c : Connection) : List Outgoing := c.accepted.filter fun m => !m.isResponse

theorem calls_traffic (h : c.InOrder) (ts : List Traffic) :
    (c.run (ts.map Traffic.event)).calls = c.calls := by
  induction ts generalizing c with
  | nil => rfl
  | cons t ts ih =>
    have hmade : (c.happening t.event).made = [] := by
      cases t with
      | reads => exact made_reading c
      | _ => rfl
    rw [List.map_cons, run_cons, ih (inOrder_step h t.event), h.calls_step, hmade, List.append_nil]

/-- What the reader puts into the queue are answers. -/
theorem isResponse_of_mem_reads {m : Outgoing} (hm : m ∈ c.submitted .reads) : m.isResponse = true := by
  rw [submitted] at hm
  split at hm
  · obtain ⟨body, -, ho⟩ := Option.bind_eq_some_iff.mp (Option.mem_toList.mp hm)
    obtain ⟨m, method, id, -, -, -, rfl⟩ := reply?_eq_some_iff.mp ho
    rfl
  · cases hm

/-- What happens to the stream adds nothing of the bridge's own. -/
theorem own_submitted_traffic (c : Connection) (t : Traffic) :
    ((c.submitted t.event).filter fun m => !m.isResponse) = [] := by
  cases t with
  | reads =>
    refine List.filter_eq_nil_iff.mpr fun m hm => ?_
    rw [isResponse_of_mem_reads hm]
    exact Bool.false_ne_true
  | _ => rfl

theorem own_step (h : c.InOrder) (e : Event) :
    (c.step e).own = c.own ++ (c.submitted e).filter fun m => !m.isResponse := by
  rw [own, accepted_step h e, List.filter_append]
  rfl

theorem own_traffic (h : c.InOrder) (ts : List Traffic) :
    (c.run (ts.map Traffic.event)).own = c.own := by
  induction ts generalizing c with
  | nil => rfl
  | cons t ts ih =>
    rw [List.map_cons, run_cons, ih (inOrder_step h t.event), own_step h, own_submitted_traffic,
      List.append_nil]

theorem exists_settle_eq_traffic (c : Connection) :
    ∃ ts : List Traffic, c.settle = c.run (ts.map Traffic.event) := by
  obtain ⟨n, m, h⟩ := c.exists_settle_eq_run
  refine ⟨List.replicate n .reads ++ List.replicate m .writes, ?_⟩
  rw [h, List.map_append, List.map_replicate, List.map_replicate]
  rfl

end Rpc.Connection

namespace Activation

theorem exists_receive_eq_traffic (c : Connection) (act : PeerAct) :
    ∃ ts : List Traffic, receive c act = c.run (ts.map Traffic.event) := by
  cases act with
  | sends bs =>
    obtain ⟨ts, h⟩ := (c.receive bs).exists_settle_eq_traffic
    exact ⟨.receives bs :: ts, h⟩
  | hangsUp =>
    obtain ⟨ts, h⟩ := c.hangUp.exists_settle_eq_traffic
    exact ⟨.hangsUp :: ts, h⟩
  | deafens =>
    obtain ⟨ts, h⟩ := c.deafen.exists_settle_eq_traffic
    exact ⟨.deafens :: ts, h⟩

theorem exists_await_eq_traffic (call : Nat) (c : Connection) (acts : List PeerAct) :
    ∃ ts : List Traffic, await call c acts = c.run (ts.map Traffic.event) := by
  induction acts generalizing c with
  | nil => exact ⟨[], rfl⟩
  | cons act acts ih =>
    rw [await]
    split
    · exact ⟨[], rfl⟩
    · obtain ⟨ts, hts⟩ := exists_receive_eq_traffic c act
      obtain ⟨us, hus⟩ := ih (receive c act)
      refine ⟨ts ++ us, ?_⟩
      rw [hus, hts, List.map_append, Connection.run_append]

/-! ## 2. The handshake -/

/-- The request of the handshake. -/
def opening (w : World) : Rpc.Request := .handshake (Lifecycle.handshakeParams w.processId)

/-- The connection when the answer to the handshake is waited for no longer. -/
def awaited (w : World) : Connection := await 0 (Connection.start.request (opening w)).2.settle w.peer

/-- While the handshake is waited for, nothing happens but to the stream. -/
theorem exists_awaited (w : World) :
    ∃ ts : List Traffic,
      awaited w = Connection.start.run (.requests (opening w) :: ts.map Traffic.event) := by
  obtain ⟨ts, hts⟩ := (Connection.start.request (opening w)).2.exists_settle_eq_traffic
  obtain ⟨us, hus⟩ := exists_await_eq_traffic 0 (Connection.start.request (opening w)).2.settle w.peer
  refine ⟨ts ++ us, ?_⟩
  rw [awaited, hus, hts, ← Connection.run_append, ← List.map_append]
  rfl

/-- What the server says about itself in the answer to the handshake. -/
def capabilitiesOf : Rpc.Reply → Json
  | .handshake result => (result.get? "capabilities").getD .null
  | _ => .null

theorem handshake_eq (limit : Duration) (w : World) :
    handshake limit w =
      match (awaited w).outcome? 0 with
      | none => (awaited w, .error (.handshakeTimeout limit))
      | some (.error cause) => (awaited w, .error (.handshake cause))
      | some (.ok reply) =>
        if (awaited w).accepts then
          ((awaited w).step (.notifies Lifecycle.initializedMethod Lifecycle.initializedParams),
            .ok (capabilitiesOf reply))
        else (awaited w, .error (.handshake .closed)) := by
  have hawait : await 0 (Connection.start.request (opening w)).2.settle w.peer = awaited w := rfl
  have hfirst : (Connection.start.request (opening w)).1 = 0 := rfl
  unfold opening at hawait hfirst
  simp only [handshake, hfirst, hawait]
  cases (awaited w).outcome? 0 with
  | none => rfl
  | some o =>
    cases o with
    | error cause => rfl
    | ok reply =>
      dsimp only
      cases ha : (awaited w).accepts with
      | false =>
        rw [Connection.notify_of_refused ha]
        rfl
      | true =>
        rw [Connection.step, Connection.notify_of_accepted ha]
        cases reply <;> rfl

/-- **The answer to the handshake** is the first message of the server that answers under the number 1,
    and what it holds reads as the result of the handshake. -/
theorem answered {w : World} {reply : Rpc.Reply} (h : (awaited w).outcome? 0 = some (.ok reply))
    {ts : List Traffic}
    (hts : awaited w = Connection.start.run (.requests (opening w) :: ts.map Traffic.event)) :
    ∃ m result,
      (heardIn (Connection.start.history (.requests (opening w) :: ts.map Traffic.event))).find?
        (·.answers 1) = some m ∧ m.error = none ∧
      Capabilities.handshakeResult.normalize (m.result.getD .null) = .ok result ∧
      capabilitiesOf reply = (result.get? "capabilities").getD .null := by
  have hrun := Connection.inOrder_start.outcome?_run_request (opening w) (ts.map Traffic.event)
  rw [← hts] at hrun
  obtain ⟨m, hm, ho⟩ := Rpc.answered_first (hrun.symm.trans h) fun e => nomatch e
  refine ⟨m, ?_⟩
  unfold Message.outcomeFor at ho
  cases he : m.error with
  | some e =>
    rw [he] at ho
    cases ho
  | none =>
    rw [he] at ho
    simp only [opening, Rpc.Request.readReply] at ho
    cases hr : Capabilities.handshakeResult.normalize (m.result.getD .null) with
    | error cause =>
      rw [hr] at ho
      cases ho
    | ok result =>
      rw [hr] at ho
      cases ho
      exact ⟨result, hm, rfl, rfl, rfl⟩

/-- The connection of a session that begins. -/
def opened (w : World) : Connection :=
  (awaited w).step (.notifies Lifecycle.initializedMethod Lifecycle.initializedParams)

theorem calls_opened (w : World) : (opened w).calls = [(1, opening w)] := by
  obtain ⟨ts, hts⟩ := exists_awaited w
  have hreq := Connection.inOrder_step Connection.inOrder_start (.requests (opening w))
  have ha : (awaited w).InOrder := hts ▸ Connection.inOrder_run Connection.inOrder_start _
  have hnone : ((awaited w).happening
      (.notifies Lifecycle.initializedMethod Lifecycle.initializedParams)).made = [] := rfl
  rw [opened, ha.calls_step, hnone, List.append_nil, hts, Connection.run_cons,
    Connection.calls_traffic hreq]
  rfl

/-- **The messages of the bridge's own** in a handshake. -/
theorem own_opened {w : World} (h : (awaited w).accepts = true) :
    (opened w).own =
      [.request 1 "initialize" (some (Lifecycle.handshakeParams w.processId)),
        .notification "initialized" (some (.obj []))] := by
  obtain ⟨ts, hts⟩ := exists_awaited w
  have hreq := Connection.inOrder_step Connection.inOrder_start (.requests (opening w))
  have ha : (awaited w).InOrder := hts ▸ Connection.inOrder_run Connection.inOrder_start _
  have hawaited : (awaited w).own =
      [.request 1 "initialize" (some (Lifecycle.handshakeParams w.processId))] := by
    rw [hts, Connection.run_cons, Connection.own_traffic hreq]
    rfl
  rw [opened, Connection.own_step ha, Connection.submitted, Connection.notify, if_pos h, hawaited]
  rfl

end Activation

/-! ## 3. How an activation can go -/

/-- The error comes before the launch. -/
def SessionError.isEarly : SessionError → Bool
  | panelDocument _ _ => true
  | transport (.listen _ _) => true
  | _ => false

/-- The error comes after the launch. -/
def SessionError.isLate : SessionError → Bool
  | transport (.accept _ _) => true
  | transport (.noConnection _ _) => true
  | handshakeTimeout _ => true
  | handshake _ => true
  | _ => false

/-- The error comes while there is a connection. -/
def SessionError.isOfHandshake : SessionError → Bool
  | handshakeTimeout _ => true
  | handshake _ => true
  | _ => false

namespace ActivationStep

/-- The server is launched. -/
def isLaunch : ActivationStep → Bool
  | launched _ => true
  | _ => false

/-- The user is shown an error. -/
def isMessage : ActivationStep → Bool
  | shown _ => true
  | _ => false

/-- The process is ended. -/
def isEnd : ActivationStep → Bool
  | terminated _ => true
  | _ => false

end ActivationStep

namespace Activation

/-- What an activation that fails in this way has done. -/
def trail (config : Config) (w : World) : SessionError → List ActivationStep
  | .panelDocument _ _ => []
  | .transport (.listen _ _) => []
  | .launch cause => [.shown cause.userMessage]
  | e => [.launched w.port, .shown ("The Alloy language server did not start: " ++ e.message)] ++
      (if e.isOfHandshake then [.cutOff] else []) ++ [.terminated config.server.shutdownGrace]

/-- The panel's document cannot be read, or the port cannot be listened on. -/
def Barred (config : Config) (w : World) : Prop :=
  (∀ html, panelDocument config w ≠ .ok html) ∨ w.listenFailure ≠ none

/-- The server connects, agrees to the handshake, and `initialized` can be sent. -/
def Answered (w : World) : Prop :=
  w.acceptance = .connected ∧ (∃ reply, (awaited w).outcome? 0 = some (.ok reply)) ∧
    (awaited w).accepts = true

/-- The ways in which an activation can go: it fails in one of the stages, or it succeeds. -/
inductive Course (config : Config) (w : World) : Activation → Prop
  | noDocument {path cause : String}
      (hd : panelDocument config w = .error (.panelDocument path cause)) :
      Course config w ⟨[], .error (.panelDocument path cause)⟩
  | notListening {html cause : String} (hd : panelDocument config w = .ok html)
      (hl : w.listenFailure = some cause) :
      Course config w ⟨[], .error (.transport (.listen w.port cause))⟩
  | notLaunched {html : String} {cause : LaunchError} (hd : panelDocument config w = .ok html)
      (hl : w.listenFailure = none) (hs : w.launchFailure = some cause) :
      Course config w ⟨[.shown cause.userMessage], .error (.launch cause)⟩
  | notConnected {html : String} {e : SessionError} (hd : panelDocument config w = .ok html)
      (hl : w.listenFailure = none) (hs : w.launchFailure = none) (hno : ¬ Answered w)
      (he : e.isLate = true) (hh : e.isOfHandshake = false) : Course config w (unconnected config w e)
  | notAnswered {html : String} {e : SessionError} (hd : panelDocument config w = .ok html)
      (hl : w.listenFailure = none) (hs : w.launchFailure = none) (hno : ¬ Answered w)
      (hh : e.isOfHandshake = true) : Course config w (unanswered config w e)
  | active {html : String} {reply : Rpc.Reply} (hd : panelDocument config w = .ok html)
      (hl : w.listenFailure = none) (hs : w.launchFailure = none) (ha : w.acceptance = .connected)
      (ho : (awaited w).outcome? 0 = some (.ok reply)) (hw : (awaited w).accepts = true) :
      Course config w
        ⟨[.launched w.port], .ok (session config w html (opened w) (capabilitiesOf reply))⟩

variable {config : Config} {w : World} {html : String}

theorem panelDocument_error {e : SessionError} (h : panelDocument config w = .error e) :
    ∃ path cause, e = .panelDocument path cause := by
  unfold panelDocument at h
  split at h
  · cases h
  · split at h
    · cases h
    · cases h
      exact ⟨_, _, rfl⟩

theorem course_connected (hd : panelDocument config w = .ok html) (hl : w.listenFailure = none)
    (hs : w.launchFailure = none) (ha : w.acceptance = .connected) :
    Course config w (connected config w html) := by
  rw [connected, handshake_eq]
  cases ho : (awaited w).outcome? 0 with
  | none =>
    refine .notAnswered hd hl hs (fun h => ?_) rfl
    obtain ⟨-, ⟨reply, hr⟩, -⟩ := h
    exact nomatch ho.symm.trans hr
  | some o =>
    cases o with
    | error cause =>
      refine .notAnswered hd hl hs (fun h => ?_) rfl
      obtain ⟨-, ⟨reply, hr⟩, -⟩ := h
      exact nomatch ho.symm.trans hr
    | ok reply =>
      cases hw : (awaited w).accepts with
      | true => exact .active hd hl hs ha ho hw
      | false =>
        refine .notAnswered hd hl hs (fun h => ?_) rfl
        exact nomatch hw.symm.trans h.2.2

theorem course_launched (hd : panelDocument config w = .ok html) (hl : w.listenFailure = none)
    (hs : w.launchFailure = none) : Course config w (launched config w html) := by
  rw [launched]
  cases ha : w.acceptance with
  | connected => exact course_connected hd hl hs ha
  | failed cause => exact .notConnected hd hl hs (fun h => nomatch ha.symm.trans h.1) rfl rfl
  | nobody => exact .notConnected hd hl hs (fun h => nomatch ha.symm.trans h.1) rfl rfl

/-- **Every activation goes one of these ways.** -/
theorem course_activate (config : Config) (w : World) : Course config w (activate config w) := by
  rw [activate]
  cases hd : panelDocument config w with
  | error e =>
    obtain ⟨path, cause, rfl⟩ := panelDocument_error hd
    exact .noDocument hd
  | ok html =>
    cases hl : w.listenFailure with
    | some cause => exact .notListening hd hl
    | none =>
      cases hs : w.launchFailure with
      | some cause => exact .notLaunched hd hl hs
      | none => exact course_launched hd hl hs

/-! ## 4. What follows in each of them -/

variable {a : Activation}

/-- **A failed activation** has left nothing behind: what it did is told by the error. -/
theorem trail_of_error (h : Course config w a) {e : SessionError} (he : a.outcome = .error e) :
    a.steps = trail config w e := by
  cases h with
  | notConnected hd hl hs hno hlate hh =>
    cases he
    unfold SessionError.isLate at hlate
    split at hlate
    all_goals first | rfl | cases hh | cases hlate
  | notAnswered hd hl hs hno hh =>
    cases he
    unfold SessionError.isOfHandshake at hh
    split at hh
    all_goals first | rfl | cases hh
  | active => cases he
  | _ =>
    cases he
    rfl

theorem countP_trail (config : Config) (w : World) (e : SessionError) :
    (trail config w e).countP ActivationStep.isEnd = (trail config w e).countP ActivationStep.isLaunch ∧
      (trail config w e).countP ActivationStep.isLaunch = (if e.isLate then 1 else 0) ∧
      (trail config w e).countP ActivationStep.isMessage = if e.isEarly then 0 else 1 := by
  cases e with
  | transport cause => cases cause <;> exact ⟨rfl, rfl, rfl⟩
  | _ => exact ⟨rfl, rfl, rfl⟩

theorem barred_of_error {e : SessionError} (hd : panelDocument config w = .error e) : Barred config w :=
  Or.inl fun _ h => nomatch hd.symm.trans h

theorem barred_of_listenFailure {cause : String} (hl : w.listenFailure = some cause) :
    Barred config w :=
  Or.inr fun h => nomatch hl.symm.trans h

theorem not_barred (hd : panelDocument config w = .ok html) (hl : w.listenFailure = none) :
    ¬ Barred config w := by
  rintro (h | h)
  · exact h html hd
  · exact h hl

theorem isLate_of_isOfHandshake {e : SessionError} (h : e.isOfHandshake = true) : e.isLate = true := by
  cases e with
  | handshakeTimeout | handshake => rfl
  | _ => cases h

theorem isEarly_of_isLate {e : SessionError} (h : e.isLate = true) : e.isEarly = false := by
  cases e with
  | transport cause => cases cause <;> first | rfl | cases h
  | _ => first | rfl | cases h

/-- **An early failure** is one that the document or the port is to blame for. -/
theorem isEarly_iff_barred (h : Course config w a) {e : SessionError} (he : a.outcome = .error e) :
    e.isEarly = true ↔ Barred config w := by
  cases h with
  | noDocument hd =>
    cases he
    exact iff_of_true rfl (barred_of_error hd)
  | notListening hd hl =>
    cases he
    exact iff_of_true rfl (barred_of_listenFailure hl)
  | notLaunched hd hl hs =>
    cases he
    exact iff_of_false Bool.false_ne_true (not_barred hd hl)
  | notConnected hd hl hs hno hlate hh =>
    cases he
    exact iff_of_false (Bool.eq_false_iff.mp (isEarly_of_isLate hlate)) (not_barred hd hl)
  | notAnswered hd hl hs hno hh =>
    cases he
    have hlate := isLate_of_isOfHandshake hh
    exact iff_of_false (Bool.eq_false_iff.mp (isEarly_of_isLate hlate)) (not_barred hd hl)
  | active => cases he

/-- **An activation succeeds** if no stage fails, and only then. -/
theorem exists_ok_iff (h : Course config w a) :
    (∃ s, a.outcome = .ok s) ↔ ¬ Barred config w ∧ w.launchFailure = none ∧ Answered w := by
  have hno : ∀ e : SessionError, ¬ ∃ s : Session, (.error e : Except SessionError Session) = .ok s :=
    fun e ⟨s, h⟩ => nomatch h
  cases h with
  | noDocument hd => exact iff_of_false (hno _) fun h => h.1 (barred_of_error hd)
  | notListening hd hl => exact iff_of_false (hno _) fun h => h.1 (barred_of_listenFailure hl)
  | notLaunched hd hl hs => exact iff_of_false (hno _) fun h => nomatch hs.symm.trans h.2.1
  | notConnected hd hl hs hna hlate hh => exact iff_of_false (hno _) fun h => hna h.2.2
  | notAnswered hd hl hs hna hh => exact iff_of_false (hno _) fun h => hna h.2.2
  | active hd hl hs ha ho hw => exact iff_of_true ⟨_, rfl⟩ ⟨not_barred hd hl, hs, ha, ⟨_, ho⟩, hw⟩

/-- What an activated session is. -/
theorem session_of_ok {s : Session} (h : (activate config w).outcome = .ok s) :
    (activate config w).steps = [.launched w.port] ∧ ∃ html reply,
      s = session config w html (opened w) (capabilitiesOf reply) ∧
      (awaited w).outcome? 0 = some (.ok reply) ∧ (awaited w).accepts = true := by
  have hc := course_activate config w
  generalize activate config w = a at h hc
  cases hc with
  | active hd hl hs ha ho hw =>
    cases h
    exact ⟨rfl, _, _, rfl, ho, hw⟩
  | _ => cases h

/-- The connection of an activated session has gone through a run, in which someone took the
    notifications all the time. -/
theorem exists_run_of_ok {s : Session} (h : (activate config w).outcome = .ok s) :
    ∃ es, s.connection = Connection.start.run es ∧ es.all Rpc.Event.keepsReceiver = true := by
  obtain ⟨-, html, reply, rfl, -⟩ := session_of_ok h
  obtain ⟨ts, hts⟩ := exists_awaited w
  have hkeeps : (ts.map Traffic.event).all Rpc.Event.keepsReceiver = true := by
    rw [List.all_map, List.all_eq_true]
    intro t _
    cases t <;> rfl
  refine ⟨(.requests (opening w) :: ts.map Traffic.event) ++
    [.notifies Lifecycle.initializedMethod Lifecycle.initializedParams], ?_, ?_⟩
  · rw [Connection.run_append, ← hts]
    rfl
  · rw [List.all_append, List.all_cons, hkeeps]
    rfl

theorem inOrder_of_ok {s : Session} (h : (activate config w).outcome = .ok s) : s.connection.InOrder := by
  obtain ⟨es, hes, -⟩ := exists_run_of_ok h
  exact hes ▸ Connection.inOrder_run Connection.inOrder_start es

end Activation

/-! ## 5. All or nothing -/

open Activation in
/-- **Activation is all or nothing.** A session that is activated has launched its process and not ended
    it; it has made one request, `initialize` under the number 1, and of its own sent that and then
    `initialized`. The server has answered: in the events that the handshake waited for, the first
    message under the number 1 holds no error and a result that reads as one of the handshake. No
    notification has been dispatched, and there is no panel.

    An activation that fails has done what `trail` tells: it has ended the process as often as it has
    launched one, which is once if it fails after the launch and otherwise never, and it has shown one
    message, or none if it fails before the launch. It fails before the launch exactly if the panel's
    document cannot be read or the port cannot be listened on; then it has done nothing at all. It
    succeeds exactly if moreover the server can be launched, connects and answers. -/
theorem activate_all_or_nothing (config : Config) (w : World) :
    let a := activate config w
    (∀ s, a.outcome = .ok s →
      a.steps = [.launched w.port] ∧ s.process = .start ∧
      s.connection.calls = [(1, .handshake (Lifecycle.handshakeParams w.processId))] ∧
      (s.connection.accepted.filter fun m => !m.isResponse) =
        [.request 1 "initialize" (some (Lifecycle.handshakeParams w.processId)),
          .notification "initialized" (some (.obj []))] ∧
      (∃ ts : List Traffic,
        let es := .requests (.handshake (Lifecycle.handshakeParams w.processId)) ::
          ts.map Traffic.event
        awaited w = Connection.start.run es ∧
        s.connection = (awaited w).step (.notifies "initialized" (some (.obj []))) ∧
        ∃ m result, (heardIn (Connection.start.history es)).find? (·.answers 1) = some m ∧
          m.error = none ∧
          Capabilities.handshakeResult.normalize (m.result.getD .null) = .ok result ∧
          s.capabilities = (result.get? "capabilities").getD .null) ∧
      s.dispatched = 0 ∧ s.context.panel.views = [] ∧
      ∀ message ∈ s.connection.accepted, message.body.length ≤ Frame.maxBodyBytes →
        ∀ ended rest, Frame.read ended (message.frame ++ rest) = .frame message.body rest) ∧
    (∀ e, a.outcome = .error e →
      a.steps = trail config w e ∧
      a.steps.countP ActivationStep.isEnd = a.steps.countP ActivationStep.isLaunch ∧
      a.steps.countP ActivationStep.isLaunch = (if e.isLate then 1 else 0) ∧
      a.steps.countP ActivationStep.isMessage = (if e.isEarly then 0 else 1) ∧
      (e.isEarly = true ↔ Barred config w)) ∧
    (Barred config w → a.steps = [] ∧ ∃ e, a.outcome = .error e) ∧
    ((∃ s, a.outcome = .ok s) ↔ ¬ Barred config w ∧ w.launchFailure = none ∧ Answered w) := by
  intro a
  have hc : Course config w a := course_activate config w
  have herror : ∀ e, a.outcome = .error e → a.steps = trail config w e := fun e he =>
    trail_of_error hc he
  refine ⟨fun s hs => ?_, fun e he => ?_, fun hb => ?_, exists_ok_iff hc⟩
  · obtain ⟨hsteps, html, reply, rfl, ho, hw⟩ := session_of_ok hs
    obtain ⟨ts, hts⟩ := exists_awaited w
    exact ⟨hsteps, rfl, calls_opened w, own_opened hw, ⟨ts, hts, rfl, answered ho hts⟩, rfl, rfl,
      fun message _ hfits ended rest => Frame.read_encode ended hfits [] rest⟩
  · rw [herror e he]
    obtain ⟨hends, hlaunches, hmessages⟩ := countP_trail config w e
    exact ⟨rfl, hends, hlaunches, hmessages, isEarly_iff_barred hc he⟩
  · cases ho : a.outcome with
    | ok s => exact absurd hb ((exists_ok_iff hc).mp ⟨s, ho⟩).1
    | error e =>
      refine ⟨?_, e, rfl⟩
      have hearly := (isEarly_iff_barred hc ho).mpr hb
      rw [herror e ho]
      cases e with
      | panelDocument path cause => rfl
      | transport cause => cases cause with
        | listen port cause => rfl
        | _ => cases hearly
      | _ => cases hearly

/-- One server shows a message and hangs up; another one shows it and answers. -/
theorem activate_all_or_nothing_shown :
    let config : Config :=
      ⟨⟨"java", "alloy.jar", ⟨30000⟩, ⟨3000⟩⟩, ⟨"alloy", .codeLens⟩, ⟨"Alloy", none⟩⟩
    let shows := Json.arr [.null, .str "window/showMessage", .arr [.int 1, .str "no"]]
    let agrees := Json.arr [.int 1, .null, .null, .obj [("capabilities", .obj [])]]
    let w (peer : List PeerAct) : World := ⟨fun _ => .error "", 50000, none, none, .connected, 7, peer⟩
    let failing := w [.sends (Frame.encode shows.printBytes), .hangsUp]
    let succeeding := w [.sends (Frame.encode shows.printBytes ++ Frame.encode agrees.printBytes)]
    (∃ e, (activate config failing).outcome = .error e ∧
      (activate config failing).steps.countP ActivationStep.isEnd = 1) ∧
    ∃ s, (activate config succeeding).outcome = .ok s ∧ s.connection.notifications.length = 1 ∧
      s.dispatched = 0 := by
  intro config shows agrees w failing succeeding
  have hfail : (activate config failing).outcome.toOption.isSome = false := by decide +kernel
  have hlaunch : (activate config failing).steps.countP ActivationStep.isLaunch = 1 := by
    decide +kernel
  have hsucceed : (activate config succeeding).outcome.toOption.map
      (·.connection.notifications.length) = some 1 := by decide +kernel
  constructor
  · cases he : (activate config failing).outcome with
    | ok s =>
      rw [he] at hfail
      cases hfail
    | error e =>
      obtain ⟨-, hends, -⟩ := (activate_all_or_nothing config failing).2.1 e he
      exact ⟨e, rfl, hends.trans hlaunch⟩
  · cases hs : (activate config succeeding).outcome with
    | error e =>
      rw [hs] at hsucceed
      cases hsucceed
    | ok s =>
      obtain ⟨-, -, -, -, -, hdispatched, -⟩ := (activate_all_or_nothing config succeeding).1 s hs
      rw [hs] at hsucceed
      exact ⟨s, rfl, Option.some.inj hsucceed, hdispatched⟩

end EditorBridge
