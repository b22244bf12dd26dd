import EditorBridge.Proofs.Rpc.Conservation
import EditorBridge.Proofs.Session.Activation
import EditorBridge.Proofs.Terminal.Effects

/-!
# What a step says to the server

Six methods frame a session: the handshake and its end, a document that is opened and closed, the request to
shut down and the notification to exit (`frames`). In most steps the bridge says nothing of this kind; it
only tells the server what a command is about, asks for lenses or links, and the tasks of the stream take
their turns (`Calm`).

* `frames_calm` -- such events add nothing to the frame of the session;
* `own_notifies`, `own_requests` -- on a connection that is up, what is sent is accepted;
* `quiet_stream` to `quiet_takeLine` -- the steps in which only such events happen (`Quiet`);
* **`progress_of_step?`** -- every other step is one of four: the loop ends, the server agrees to the end or
  does not in time, the process has ended.
-/

namespace EditorBridge

open Rpc (Connection Outgoing Message heardIn)

namespace Rpc

/-! ## 1. The frame of a session -/

/-- The method of a message that is no answer. -/
def Outgoing.method? : Outgoing → Option String
  | .request _ method _ => some method
  | .notification method _ => some method
  | .response _ _ => none

/-- The methods that frame a session. -/
def framingMethods : List String :=
  ["initialize", "initialized", "textDocument/didOpen", "textDocument/didClose", "shutdown", "exit"]

/-- Whether a message belongs to the frame of the session. -/
def Outgoing.isFraming (m : Outgoing) : Bool := m.method?.any framingMethods.contains

/-- What happens while nothing is said that belongs to the frame of the session. -/
inductive Calm : Event → Prop
  | tells (o : Outbound) : Calm o.event
  | asksLenses (uri : Url) : Calm (.requests (.codeLenses uri))
  | asksLinks (uri : Url) : Calm (.requests (.documentLinks uri))
  | stream (t : Session.Traffic) : Calm t.event

namespace Connection

variable {c : Connection}

/-- The messages of the bridge's own that belong to the frame of the session. -/
def frames (c : Connection) : List Outgoing := c.own.filter Outgoing.isFraming

/-- The connection is up: both tasks run. -/
def isUp (c : Connection) : Bool := c.reader == .running && c.writer == .running

theorem isUp_iff (c : Connection) : c.isUp = true ↔ c.reader = .running ∧ c.accepts = true := by
  rw [isUp, Bool.and_eq_true, beq_iff_eq, accepts]

/-- **A calm event** adds nothing to the frame of the session. -/
theorem frames_step_calm (h : c.InOrder) {e : Event} (he : Calm e) :
    (c.step e).frames = c.frames := by
  have hnone : ((c.submitted e).filter fun m => !m.isResponse).filter Outgoing.isFraming = [] := by
    cases he with
    | tells o =>
      rw [submitted_eq h]
      split
      · cases o <;> rfl
      · rfl
    | asksLenses uri | asksLinks uri =>
      rw [submitted_eq h, offered]
      split
      · split <;> rfl
      · rfl
    | stream t => rw [own_submitted_traffic c t, List.filter_nil]
  rw [frames, own_step h, List.filter_append, hnone, List.append_nil]
  rfl

theorem frames_calm (h : c.InOrder) {es : List Event} (hes : ∀ e ∈ es, Calm e) :
    (c.run es).frames = c.frames := by
  induction es generalizing c with
  | nil => rfl
  | cons e es ih =>
    rw [run_cons, ih (inOrder_step h e) fun x hx => hes x (List.mem_cons_of_mem e hx),
      frames_step_calm h (hes e List.mem_cons_self)]

/-- The bridge's own messages only grow. -/
theorem own_prefix_run (h : c.InOrder) (es : List Event) : c.own <+: (c.run es).own := by
  induction es generalizing c with
  | nil => exact List.prefix_rfl
  | cons e es ih =>
    have hstep : c.own <+: (c.step e).own := by
      rw [own_step h]
      exact List.prefix_append _ _
    exact hstep.trans (ih (inOrder_step h e))

/-! ## 2. A connection that is up -/

theorem own_notifies (h : c.InOrder) (hup : c.isUp = true) (method : String) (params : Option Json) :
    (c.step (.notifies method params)).own = c.own ++ [.notification method params] ∧
      (c.step (.notifies method params)).isUp = true := by
  have ha := ((isUp_iff c).mp hup).2
  constructor
  · rw [own_step h, submitted_eq h, if_pos ha]
    rfl
  · rw [step, notify_of_accepted ha, submit, if_pos ha]
    exact hup

theorem own_requests (h : c.InOrder) (hup : c.isUp = true) (r : Request) :
    (c.step (.requests r)).own = c.own ++ [.request c.nextId r.method r.params] ∧
      (c.step (.requests r)).isUp = true := by
  obtain ⟨hr, ha⟩ := (isUp_iff c).mp hup
  have hne : c.reader ≠ .ended := fun he => by
    rw [he] at hr
    cases hr
  constructor
  · rw [own_step h, submitted_eq h, if_pos ha, offered, if_neg hne]
    rfl
  · rw [step, request_of_accepted hne ha]
    exact hup

/-- What is up has been up. -/
theorem isUp_of_run {es : List Event} (hup : (c.run es).isUp = true) : c.isUp = true := by
  obtain ⟨hr, ha⟩ := (isUp_iff _).mp hup
  have hreader : c.reader = .running := by
    by_cases hc : c.reader = .running
    · exact hc
    · exact absurd ((reader_run_of_not_running hc es).symm.trans hr) hc
  have hwriter : c.writer = .running := running_of_run ((accepts_iff _).mp ha)
  rw [isUp, hreader, hwriter]
  rfl

end Connection

end Rpc

/-! ## 3. Quiet steps -/

theorem Context.settings_dispatch (c : Context) (env : Surroundings) (n : Rpc.Notification) :
    (c.dispatch env n).1.settings = c.settings := by
  cases h : n.listing? with
  | some items => rw [dispatch_of_listing h]
  | none => exact (quiet_dispatch h).settings

namespace Terminal.Interaction

open Rpc (Calm)

variable {i j k : Interaction} {e : Event}

/-- The message that the reader acts on in an event. -/
def heard (i : Interaction) : Event → List Message
  | .reads => heardIn [i.session.connection.happening .reads]
  | _ => []

/-- A step in which nothing is said that belongs to the frame of the session. Requests are made only at the
    prompt. -/
structure Quiet (i : Interaction) (e : Event) (j : Interaction) : Prop where
  connection : ∃ cs, (∀ x ∈ cs, Calm x) ∧ j.session.connection = i.session.connection.run cs ∧
    heardIn (i.session.connection.history cs) = i.heard e ∧
    (i.stage ≠ .prompt → (i.session.connection.history cs).flatMap Rpc.Happening.made = [])
  language : j.session.context.settings.languageId = i.session.context.settings.languageId
  model : j.model = i.model
  stage : j.stage = i.stage ∨ i.stage.inLoop = true ∧ j.stage.inLoop = true

/-- Nothing is said at all. -/
theorem quiet_of_silent (hc : j.session.connection = i.session.connection)
    (hl : j.session.context.settings.languageId = i.session.context.settings.languageId)
    (hm : j.model = i.model) (hs : j.stage = i.stage ∨ i.stage.inLoop = true ∧ j.stage.inLoop = true)
    (he : i.heard e = []) : Quiet i e j :=
  ⟨⟨[], fun _ hx => absurd hx List.not_mem_nil, hc, he.symm, fun _ => rfl⟩, hl, hm, hs⟩

theorem history_tells (c : Connection) (os : List Outbound) :
    heardIn (c.history (os.map Outbound.event)) = [] ∧
      (c.history (os.map Outbound.event)).flatMap Rpc.Happening.made = [] := by
  induction os generalizing c with
  | nil => exact ⟨rfl, rfl⟩
  | cons o os ih => exact ih (c.step o.event)

/-- Notifications are sent, and then something is shown. -/
theorem quiet_of_shown (os : List Outbound) (h : Shown (i.tell os) j) (he : i.heard e = []) : Quiet i e j := by
  obtain ⟨host, printed, panel, picks, rfl⟩ := h
  obtain ⟨hheard, hmade⟩ := history_tells i.session.connection os
  refine ⟨⟨os.map Outbound.event, fun x hx => ?_, rfl, hheard.trans he.symm, fun _ => hmade⟩, rfl, rfl,
    Or.inl rfl⟩
  obtain ⟨o, -, rfl⟩ := List.mem_map.mp hx
  exact .tells o

/-- Notifications are sent, the context changes but for its settings, and then something is shown. -/
theorem quiet_of_become {r : Context × List Effect} (hr : r.1.settings = i.session.context.settings)
    (he : i.heard e = []) : Quiet i e (i.become (i.session.become r)) := by
  have hshown := shown_become i (i.session.become r)
  rw [Session.become_eq, Session.notices_eq] at hshown ⊢
  have hquiet := quiet_of_shown (i := { i with session := { i.session with context := r.1 } })
    (r.2.filterMap Effect.sent?) hshown he
  exact ⟨hquiet.connection, hquiet.language.trans (congrArg Settings.languageId hr), hquiet.model,
    hquiet.stage⟩

theorem quiet_stream (t : Session.Traffic) (he : e = streamEvent t) :
    Quiet i e
      { i with session := { i.session with connection := i.session.connection.step t.event } } := by
  refine ⟨⟨[t.event], fun x hx => List.mem_singleton.mp hx ▸ .stream t, rfl, ?_, fun _ => ?_⟩, rfl, rfl,
    Or.inl rfl⟩
  · cases t <;> cases he <;> rfl
  · have hmade : (i.session.connection.happening t.event).made = [] := by
      cases t with
      | reads => exact Rpc.Connection.made_reading _
      | _ => rfl
    rw [Connection.history, Connection.history, List.flatMap_cons, hmade]
    rfl

theorem quiet_dispatches {r : Session × List Effect} (h : i.session.dispatchNext? i.surroundings = some r) :
    Quiet i .dispatches (i.become r) := by
  obtain ⟨-, ⟨n, -, rfl⟩ | ⟨-, rfl⟩⟩ := Session.dispatchNext?_cases h
  · have hquiet := quiet_of_become (e := .dispatches)
      (i := { i with session := { i.session with dispatched := i.session.dispatched + 1 } })
      (Context.settings_dispatch i.session.context (i.session.surroundings i.surroundings) n) rfl
    exact ⟨hquiet.connection, hquiet.language, hquiet.model, hquiet.stage⟩
  · exact quiet_of_silent rfl rfl rfl (Or.inl rfl) rfl

theorem quiet_relays {n : Nat} {r : Session × List Effect}
    (h : i.session.relayTurn? i.surroundings n = some r) : Quiet i (.relays n) (i.become r) := by
  rw [Session.relayTurn?, Option.map_eq_some_iff] at h
  obtain ⟨r, hr, rfl⟩ := h
  exact quiet_of_become (Context.quiet_relayTurn hr).settings rfl

theorem quiet_postFromPanel (i : Interaction) (message : Json) (he : i.heard e = []) :
    Quiet i e (i.postFromPanel message) := by
  rw [postFromPanel]
  split
  · exact quiet_of_silent rfl rfl rfl (Or.inl rfl) he
  · exact quiet_of_become (Context.quiet_handlePanelMessage _ _ _).settings he

theorem quiet_execute (i : Interaction) (name : String) (arguments : List Json) (he : i.heard e = []) :
    Quiet i e (i.execute name arguments) := by
  obtain ⟨os, h⟩ := exists_shown_execute i name arguments
  exact quiet_of_shown os h he

/-- A request is made at the prompt. -/
theorem quiet_of_request {r : Rpc.Request} (hp : i.stage = .prompt) (hr : Calm (.requests r))
    (he : i.heard e = []) {stage : Stage} (hs : stage.inLoop = true) :
    Quiet i e
      { i with
        session := { i.session with connection := i.session.connection.step (.requests r) }
        stage } := by
  refine ⟨⟨[.requests r], fun x hx => List.mem_singleton.mp hx ▸ hr, rfl, ?_, fun h => absurd hp h⟩, rfl, rfl,
    Or.inr ⟨hp ▸ rfl, hs⟩⟩
  exact Eq.trans rfl he.symm

theorem quiet_obey (hp : i.stage = .prompt) (c : TypedCommand) (he : i.heard e = []) :
    Quiet i e (i.obey c) := by
  have hsilent : ∀ {j : Interaction}, j.session.connection = i.session.connection →
      j.session.context.settings.languageId = i.session.context.settings.languageId →
      j.model = i.model → j.stage = i.stage → Quiet i e j :=
    fun hc hl hm hs => quiet_of_silent hc hl hm (Or.inl hs) he
  cases c with
  | all | list | under | latest | editor =>
    rw [obey, executeBridge]
    exact quiet_execute i _ _ he
  | run index =>
    rw [obey, withDocument]
    split
    · exact quiet_execute i _ _ he
    · exact hsilent rfl rfl rfl rfl
  | lenses =>
    rw [obey, withDocument]
    split
    · exact quiet_of_request hp (.asksLenses _) he rfl
    · exact hsilent rfl rfl rfl rfl
  | links =>
    rw [obey, withDocument]
    split
    · split
      · rename_i hask
        rw [Session.askLinks?] at hask
        split at hask
        · cases hask
          exact quiet_of_request hp (.asksLinks _) he rfl
        · cases hask
      · exact hsilent rfl rfl rfl rfl
    · exact hsilent rfl rfl rfl rfl
  | cursor p =>
    rw [obey]
    split
    · exact hsilent rfl rfl rfl rfl
    · exact hsilent rfl rfl rfl rfl
  | stop | openModel link => exact quiet_postFromPanel i _ he
  | mode m | help | quit => exact hsilent rfl rfl rfl rfl

/-- **A line** ends the loop or is quiet. -/
theorem quiet_takeLine (hp : i.stage = .prompt) (text : String) :
    Quiet i (.line text) (i.takeLine text) ∨ i.takeLine text = i.leave := by
  rw [takeLine]
  split
  · refine Or.inl ?_
    dsimp only
    split
    · rename_i host picked _
      exact quiet_of_shown [] (Shown.trans ⟨_, _, _, _, rfl⟩ (shown_closePick { i with host } picked)) rfl
    · exact quiet_of_silent rfl rfl rfl (Or.inl rfl) rfl
  · rw [parseLine]
    split
    · exact Or.inl (quiet_of_silent rfl rfl rfl (Or.inl rfl) rfl)
    · exact Or.inr rfl
    · exact Or.inl (quiet_obey hp _ rfl)
    · exact Or.inl (quiet_of_silent rfl rfl rfl (Or.inl rfl) rfl)

/-! ## 4. All steps -/

/-- What a step is to the session: quiet, or one of the four steps to its end. -/
inductive Progress (i : Interaction) : Event → Interaction → Prop
  | quiet {e : Event} {j : Interaction} (h : Quiet i e j) : Progress i e j
  | leaves {e : Event} (hp : i.stage = .prompt) (inputFailure : Option String) :
      Progress i e { i.leave with inputFailure }
  | agreed {call : Nat} {r : Except Rpc.CallError Rpc.Reply} (hl : i.stage = .leaving call)
      (hr : i.session.outcome? call = some r) (process : Supervisor) :
      Progress i .resumes { i with session := { i.session.shutdownAnswered r with process }, stage := .ending }
  | patienceEnds {call : Nat} (hl : i.stage = .leaving call) (hr : i.session.outcome? call = none)
      (process : Supervisor) :
      Progress i .patienceEnds { i with session := { i.session with process }, stage := .ending }
  | finishes (he : i.stage = .ending) :
      Progress i .finishes { i with session := i.session.finish, stage := .over }

/-- **What a step is to the session.** -/
theorem progress_of_step? (h : i.step? e = some j) : i.stage ≠ .over ∧ i.Progress e j := by
  obtain ⟨hover, hnext⟩ := next_of_step? h
  refine ⟨hover, ?_⟩
  cases hnext with
  | stream t he => exact .quiet (quiet_stream t he)
  | dispatches hd => exact .quiet (quiet_dispatches hd)
  | relays hr => exact .quiet (quiet_relays hr)
  | line hp =>
    rcases quiet_takeLine hp _ with hq | hq
    · exact .quiet hq
    · rw [hq]
      exact .leaves hp i.leave.inputFailure
  | inputEnds hp => exact .leaves hp i.leave.inputFailure
  | inputFails hp => exact .leaves hp _
  | command hp hq =>
    rename_i c queue
    have hquiet := quiet_execute (e := .command) { i with host := { i.host with queue } } c.command
      (c.arguments.getD []) rfl
    exact .quiet ⟨hquiet.connection, hquiet.language, hquiet.model, hquiet.stage⟩
  | goesOn hl => exact .quiet (quiet_of_silent rfl rfl rfl (Or.inr ⟨hl, rfl⟩) rfl)
  | agreed hl hr process => exact .agreed hl hr process
  | patienceEnds hl hr process => exact .patienceEnds hl hr process
  | process p => exact .quiet (quiet_of_silent rfl rfl rfl (Or.inl rfl) rfl)
  | finishes he => exact .finishes he

end Terminal.Interaction

end EditorBridge
