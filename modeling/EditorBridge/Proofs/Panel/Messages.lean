import EditorBridge.Proofs.Panel.Relay
import EditorBridge.Proofs.Session.Dispatch

/-!
# Messages of the panels and the latest instance

A message comes out of the channel of a panel, or is handed to the session directly. It may ask for a
notification to the server (`PanelMessage.asks?`) and it may record a link (`PanelMessage.records?`);
any other value does nothing at all.

* `Context.handlePanelMessage_eq` -- all that one message does;
* `attempts_step`, `latest_step` -- what one event attempts because of messages, and which link is the
  latest after it;
* `panel_step`, `taken_moves` -- the panels see a run of the session as a list of moves;
* **`panel_messages`** -- the three together, over every run of an activated session.
-/

namespace EditorBridge

open Panel (Bridge Move)

/-! ## 1. One message -/

namespace PanelMessage

/-- The method of a posted value. -/
def method? (j : Json) : Option String := (j.get? "method").bind Json.str?

/-- The notification that a posted value asks for. -/
def asks? (j : Json) : Option Outbound :=
  if method? j = some "model" then (link? j).map .openModel
  else if method? j = some "stop" then some .stopExecution
  else none

/-- The link that a posted value records. -/
def records? (j : Json) : Option String :=
  if method? j = some "model" ∨ method? j = some "instanceCreated" then link? j else none

theorem method?_eq_some_iff (j : Json) (method : String) :
    method? j = some method ↔ j.get? "method" = some (.str method) := by
  simp [method?, Option.bind_eq_some_iff, Json.str?_eq_some_iff]

theorem link?_eq_some_iff (j : Json) (link : String) :
    link? j = some link ↔ ∃ data, j.get? "data" = some data ∧ data.get? "link" = some (.str link) := by
  simp [link?, Option.bind_eq_some_iff, Json.str?_eq_some_iff]

/-- A value asks for a model to be opened, or for the execution to be stopped. -/
theorem asks?_eq_some_iff (j : Json) (o : Outbound) :
    asks? j = some o ↔
      (j.get? "method" = some (.str "model") ∧ ∃ link, link? j = some link ∧ o = .openModel link) ∨
        j.get? "method" = some (.str "stop") ∧ o = .stopExecution := by
  rw [← method?_eq_some_iff, ← method?_eq_some_iff, asks?]
  by_cases hmodel : method? j = some "model"
  · simp only [hmodel, if_true, true_and, Option.map_eq_some_iff]
    simp [eq_comm]
  · by_cases hstop : method? j = some "stop"
    · simp [hstop, eq_comm]
    · simp [hmodel, hstop]

/-- A value records its link if it comes with a model or an instance. -/
theorem records?_eq_some_iff (j : Json) (link : String) :
    records? j = some link ↔
      (j.get? "method" = some (.str "model") ∨ j.get? "method" = some (.str "instanceCreated")) ∧
        link? j = some link := by
  rw [← method?_eq_some_iff, ← method?_eq_some_iff, records?]
  by_cases h : method? j = some "model" ∨ method? j = some "instanceCreated"
  · simp [h]
  · simp [h]

/-- What a posted value means, and what it asks for and records. -/
theorem ofJson?_cases (j : Json) :
    (∃ link, ofJson? j = some (.model link) ∧ asks? j = some (.openModel link) ∧ records? j = some link) ∨
    (∃ link, ofJson? j = some (.instanceCreated link) ∧ asks? j = none ∧ records? j = some link) ∨
    (ofJson? j = some .stop ∧ asks? j = some .stopExecution ∧ records? j = none) ∨
    (ofJson? j = none ∧ asks? j = none ∧ records? j = none) := by
  have hmeaning : ofJson? j =
      if method? j = some "model" then (link? j).map model
      else if method? j = some "instanceCreated" then (link? j).map instanceCreated
      else if method? j = some "stop" then some stop
      else none := by
    rw [ofJson?]
    split
    · rename_i h
      have hmethod : method? j = some "model" := h
      simp [hmethod]
    · rename_i h
      have hmethod : method? j = some "instanceCreated" := h
      simp [hmethod]
    · rename_i h
      have hmethod : method? j = some "stop" := h
      simp [hmethod]
    · rename_i h₁ h₂ h₃
      exact ((if_neg h₁).trans ((if_neg h₂).trans (if_neg h₃))).symm
  rw [hmeaning, asks?, records?]
  by_cases hmodel : method? j = some "model"
  · simp only [hmodel, if_true, true_or]
    cases hlink : link? j with
    | none => exact Or.inr (Or.inr (Or.inr ⟨rfl, rfl, rfl⟩))
    | some link => exact Or.inl ⟨link, rfl, rfl, rfl⟩
  · by_cases hinstance : method? j = some "instanceCreated"
    · simp only [hinstance]
      cases hlink : link? j with
      | none => exact Or.inr (Or.inr (Or.inr ⟨rfl, rfl, rfl⟩))
      | some link => exact Or.inr (Or.inl ⟨link, rfl, rfl, rfl⟩)
    · by_cases hstop : method? j = some "stop"
      · simp only [hstop]
        exact Or.inr (Or.inr (Or.inl ⟨rfl, rfl, rfl⟩))
      · rw [if_neg hmodel, if_neg hmodel, if_neg hinstance, if_neg hstop, if_neg hstop,
          if_neg fun h => h.elim hmodel hinstance]
        exact Or.inr (Or.inr (Or.inr ⟨rfl, rfl, rfl⟩))

end PanelMessage

/-- The notification that an effect attempts to send, whether it reaches the server or not. -/
def Effect.attempted? : Effect → Option Outbound
  | .notify o _ => some o
  | _ => none

namespace Context

theorem attempted_send (env : Surroundings) (o : Outbound) :
    (send env o).filterMap Effect.attempted? = [o] := by
  rw [send]
  split <;> rfl

theorem attempted_sendQuietly (env : Surroundings) (purpose : String) (o : Outbound) :
    (sendQuietly env purpose o).filterMap Effect.attempted? = [o] := by
  rw [sendQuietly]
  split <;> rfl

/-- **All that a message does**: it records its link and attempts what it asks for. -/
theorem handlePanelMessage_eq (c : Context) (env : Surroundings) (j : Json) :
    (c.handlePanelMessage env j).1 = { c with latest := (PanelMessage.records? j).or c.latest } ∧
    (c.handlePanelMessage env j).2.filterMap Effect.attempted? = (PanelMessage.asks? j).toList ∧
    (PanelMessage.asks? j = none → (c.handlePanelMessage env j).2 = []) := by
  rw [handlePanelMessage]
  rcases PanelMessage.ofJson?_cases j with ⟨link, hj, hasks, hrecords⟩ | ⟨link, hj, hasks, hrecords⟩ |
    ⟨hj, hasks, hrecords⟩ | ⟨hj, hasks, hrecords⟩
  · rw [hj, hasks, hrecords]
    exact ⟨rfl, attempted_sendQuietly env _ _, fun h => nomatch h⟩
  · rw [hj, hasks, hrecords]
    exact ⟨rfl, rfl, fun _ => rfl⟩
  · rw [hj, hasks, hrecords]
    exact ⟨rfl, attempted_sendQuietly env _ _, fun h => nomatch h⟩
  · rw [hj, hasks, hrecords]
    exact ⟨rfl, rfl, fun _ => rfl⟩

/-- A notification of the server records no link. -/
theorem latest_dispatch (c : Context) (env : Surroundings) (n : Rpc.Notification) :
    (c.dispatch env n).1.latest = c.latest := by
  unfold dispatch
  split
  · rfl
  · split
    · unfold offerCommands
      split <;> rfl
    · split
      · split <;> rfl
      · split
        · split <;> rfl
        · rfl

/-- A notification of the server makes a panel current if it is output, and else touches none. -/
theorem panel_dispatch (c : Context) (env : Surroundings) (n : Rpc.Notification) :
    (c.dispatch env n).1.panel =
      if n.method = "alloy/showExecutionOutput" then c.panel.ensure.1 else c.panel := by
  by_cases ho : n.method = "alloy/showExecutionOutput"
  · rw [if_pos ho, dispatch_of_output ho, showOutput_eq]
  · rw [if_neg ho, (dispatch_of_not_output ho).1]

end Context

/-! ## 2. One event -/

/-- A message that has been handled, with the panel that it came from unless it was handed over directly. -/
structure Handled where
  panel : Option Nat
  message : Json

namespace Session

/-- The messages that are handled in an event: one at most. -/
def handledIn (s : Session) : Event → List Handled
  | .handles _ message => [⟨none, message⟩]
  | .relays _ n => ((s.context.panel.take? n).bind Prod.snd).toList.map (⟨some n, ·⟩)
  | _ => []

/-- The notifications that are attempted in an event because of messages. -/
def attemptsIn (s : Session) : Event → List Outbound
  | .handles env message => (s.react (.handles env message)).2.filterMap Effect.attempted?
  | .relays env n => (s.react (.relays env n)).2.filterMap Effect.attempted?
  | _ => []

/-- What an event is to the panels. -/
def moves (s : Session) : Event → List Move
  | .panel a => [a.move]
  | .relays _ n => .takes n :: if (s.context.panel.take? n).isSome then [.releases n] else []
  | .dispatches _ =>
    if s.dispatcher = .running ∧
        (s.connection.notifications[s.dispatched]?.map (·.method)) = some "alloy/showExecutionOutput" then
      [.ensures]
    else []
  | .finishes => [.shutsDown]
  | _ => []

/-- An outcome that is taken up changes at most the lenses. -/
theorem contextAfter_takesUp (s : Session) (call : Nat) :
    ∃ lenses, s.contextAfter (.takesUp call) = { s.context with lenses } := by
  rw [contextAfter]
  split
  · unfold Context.lensesArrived
    split <;> exact ⟨_, rfl⟩
  · exact ⟨_, rfl⟩

/-- A quick pick that is closed changes at most the picks. -/
theorem contextAfter_closesPick (s : Session) (number : Nat) (chosen : Option ListedCommand) :
    ∃ picks, s.contextAfter (.closesPick number chosen) = { s.context with picks } := by
  rw [contextAfter, Context.closePick?]
  cases s.context.pickItems? number with
  | none => exact ⟨_, rfl⟩
  | some items => exact ⟨_, rfl⟩

/-- **What is attempted is what the messages ask for.** -/
theorem attempts_step (s : Session) (e : Event) :
    s.attemptsIn e = (s.handledIn e).filterMap fun h => PanelMessage.asks? h.message := by
  cases e with
  | handles env message =>
    have h := (s.context.handlePanelMessage_eq (s.surroundings env) message).2.1
    show (s.context.handlePanelMessage (s.surroundings env) message).2.filterMap _ = _
    rw [h, handledIn]
    cases hasks : PanelMessage.asks? message <;> simp [hasks]
  | relays env n =>
    rw [attemptsIn, handledIn, react, relayTurn?, Context.relayTurn?]
    cases ht : s.context.panel.take? n with
    | none => rfl
    | some r =>
      obtain ⟨panel, message⟩ := r
      cases message with
      | none => rfl
      | some j =>
        have h := (({ s.context with panel } : Context).handlePanelMessage_eq (s.surroundings env) j).2.1
        show (({ s.context with panel } : Context).handlePanelMessage (s.surroundings env) j).2.filterMap _ = _
        rw [h]
        cases hasks : PanelMessage.asks? j <;> simp [hasks]
  | _ => rfl

/-- **The latest link is the one recorded last.** -/
theorem latest_step (s : Session) (e : Event) :
    (s.step e).context.latest =
      ((s.handledIn e).filterMap fun h => PanelMessage.records? h.message).getLast?.or s.context.latest := by
  rcases e.dispatches_or with ⟨env, rfl⟩ | he
  · have ht := s.turn_dispatches env
    rw [step]
    generalize s.react (.dispatches env) = r at ht
    cases ht with
    | @handles n =>
      rw [become_eq]
      exact s.context.latest_dispatch _ n
    | ends | idle => rfl
  · rw [step_eq s he]
    cases e with
    | handles env message =>
      have h := (s.context.handlePanelMessage_eq (s.surroundings env) message).1
      rw [contextAfter, h, handledIn]
      cases hrec : PanelMessage.records? message <;> simp [hrec]
    | relays env n =>
      rw [contextAfter, handledIn, Context.relayTurn?]
      cases ht : s.context.panel.take? n with
      | none => rfl
      | some r =>
        obtain ⟨panel, message⟩ := r
        cases message with
        | none => rfl
        | some j =>
          have h := (({ s.context with panel } : Context).handlePanelMessage_eq (s.surroundings env) j).1
          simp only [Option.map_some, Option.getD_some, h]
          cases hrec : PanelMessage.records? j <;> simp [hrec]
    | takesUp call =>
      obtain ⟨lenses, h⟩ := s.contextAfter_takesUp call
      rw [h]
      rfl
    | closesPick number chosen =>
      obtain ⟨picks, h⟩ := s.contextAfter_closesPick number chosen
      rw [h]
      rfl
    | _ => rfl

/-! ## 3. The panels in a run -/

/-- A relay that has taken a message runs on, and has nothing to release. -/
theorem Panel.Bridge.release_of_message {b b' : Bridge} {n : Nat} {j : Json}
    (h : b.take? n = some (b', some j)) : b'.release n = b' := by
  rw [Bridge.take?] at h
  split at h
  · cases h
  · rename_i v hv
    split at h
    · rename_i j' es hr hc
      cases h
      have hrelay : (b.update n ({ · with channel := es })).relay? n = some v.relay := by
        rw [Bridge.relay?, Bridge.getElem?_update _ hv, if_pos rfl]
        rfl
      rw [Bridge.release_eq, hrelay, hr, if_neg (by decide)]
    · cases h
    · split at h <;> cases h
    · cases h

/-- **To its panels, an event is the list of its moves.** -/
theorem panel_step (s : Session) (e : Event) :
    (s.step e).context.panel = s.context.panel.run (s.moves e) := by
  rcases e.dispatches_or with ⟨env, rfl⟩ | he
  · have ht := s.turn_dispatches env
    rw [step, moves]
    generalize s.react (.dispatches env) = r at ht
    cases ht with
    | @handles n hd hn =>
      rw [become_eq]
      show (s.context.dispatch _ n).1.panel = _
      rw [Context.panel_dispatch, hn]
      by_cases ho : n.method = "alloy/showExecutionOutput"
      · rw [if_pos ho, if_pos ⟨hd, congrArg some ho⟩]
        rfl
      · rw [if_neg ho, if_neg fun h => ho (Option.some.inj h.2)]
        rfl
    | ends hd hn =>
      rw [hn, if_neg fun h => absurd h.2.symm (Option.some_ne_none _)]
      rfl
    | idle h =>
      rw [if_neg]
      · rfl
      · rintro ⟨hd, hn⟩
        rw [(h hd).1] at hn
        cases hn
  · rw [step_eq s he]
    cases e with
    | dispatches env => exact absurd rfl (he env)
    | panel a => rfl
    | handles env message =>
      have h := (s.context.handlePanelMessage_eq (s.surroundings env) message).1
      rw [contextAfter, h]
      rfl
    | relays env n =>
      rw [contextAfter, moves, Context.relayTurn?, Bridge.run_cons, Bridge.step]
      cases ht : s.context.panel.take? n with
      | none => rfl
      | some r =>
        obtain ⟨panel, message⟩ := r
        have hrelease : (((some (panel, message)).map Prod.fst).getD s.context.panel).run
            (if (some (panel, message)).isSome then [.releases n] else []) = panel.release n := rfl
        rw [hrelease]
        cases message with
        | none => rfl
        | some j =>
          have h := (({ s.context with panel } : Context).handlePanelMessage_eq (s.surroundings env) j).1
          simp only [Option.map_some, Option.getD_some, h]
          exact (Panel.Bridge.release_of_message ht).symm
    | takesUp call =>
      obtain ⟨lenses, h⟩ := s.contextAfter_takesUp call
      rw [h]
      rfl
    | closesPick number chosen =>
      obtain ⟨picks, h⟩ := s.contextAfter_closesPick number chosen
      rw [h]
      rfl
    | _ => rfl

/-- The messages of a panel that are handled in an event are those that its relay takes. -/
theorem taken_moves (s : Session) (n : Nat) (e : Event) :
    s.context.panel.taken n (s.moves e) =
      ((s.handledIn e).filter fun h => h.panel = some n).map (·.message) := by
  cases e with
  | panel a => cases a <;> rfl
  | handles env message => rfl
  | relays env k =>
    have hfirst : s.context.panel.taken n (s.moves (.relays env k)) = s.context.panel.takenIn n (.takes k) := by
      rw [moves, Bridge.taken]
      split <;> exact List.append_nil _
    rw [hfirst, handledIn, Bridge.takenIn]
    by_cases hk : k = n
    · subst hk
      rw [if_pos rfl]
      cases (s.context.panel.take? k).bind Prod.snd <;> simp
    · rw [if_neg hk]
      cases (s.context.panel.take? k).bind Prod.snd <;> simp [hk]
  | dispatches env =>
    rw [moves]
    split <;> rfl
  | _ => rfl

/-! ## 4. A run -/

/-- To its panels, a run of a session is the list of its moves. -/
theorem panel_run (s : Session) (es : List Event) :
    (s.run es).context.panel = s.context.panel.run (s.trace moves es) := by
  induction es generalizing s with
  | nil => rfl
  | cons e es ih => rw [run_cons, ih, panel_step, trace, Bridge.run_append]

/-- The messages of a panel that are handled in a run are those that its relay takes. -/
theorem taken_trace (s : Session) (n : Nat) (es : List Event) :
    s.context.panel.taken n (s.trace moves es) =
      ((s.trace handledIn es).filter fun h => h.panel = some n).map (·.message) := by
  induction es generalizing s with
  | nil => rfl
  | cons e es ih =>
    rw [trace, Bridge.taken_append, taken_moves, ← panel_step, ih, trace, List.filter_append, List.map_append]

/-- Whether this is a turn of the relay of panel `n`. -/
def Event.isTurnOf (n : Nat) : Event → Bool
  | .relays _ k => k == n
  | _ => false

/-- A turn of a relay is one move of it. -/
theorem turns_moves (s : Session) (n : Nat) (e : Event) :
    Bridge.turns n (s.moves e) = if e.isTurnOf n then 1 else 0 := by
  cases e with
  | panel a => cases a <;> rfl
  | relays env k =>
    have hcons : Bridge.turns n (s.moves (.relays env k)) = if (Move.takes k).isTurnOf n then 1 else 0 := by
      rw [moves, Bridge.turns, List.countP_cons]
      split <;> simp [Move.isTurnOf]
    exact hcons
  | dispatches env =>
    rw [moves]
    split <;> rfl
  | _ => rfl

theorem turns_trace (s : Session) (n : Nat) (es : List Event) :
    Bridge.turns n (s.trace moves es) = es.countP (Event.isTurnOf n) := by
  induction es generalizing s with
  | nil => rfl
  | cons e es ih =>
    have happend : Bridge.turns n (s.trace moves (e :: es)) =
        Bridge.turns n (s.moves e) + Bridge.turns n ((s.step e).trace moves es) := List.countP_append ..
    rw [happend, turns_moves, ih, List.countP_cons, Nat.add_comm]

/-- What a run attempts because of messages is what they ask for. -/
theorem attempts_run (s : Session) (es : List Event) :
    s.trace attemptsIn es = (s.trace handledIn es).filterMap fun h => PanelMessage.asks? h.message := by
  induction es generalizing s with
  | nil => rfl
  | cons e es ih => rw [trace, attempts_step, ih, trace, List.filterMap_append]

/-- After a run the latest link is the one recorded last. -/
theorem latest_run (s : Session) (es : List Event) :
    (s.run es).context.latest =
      ((s.trace handledIn es).filterMap fun h => PanelMessage.records? h.message).getLast?.or
        s.context.latest := by
  induction es generalizing s with
  | nil => rfl
  | cons e es ih =>
    rw [run_cons, ih, latest_step, trace, List.filterMap_append, List.getLast?_append, Option.or_assoc]

/-! ## 5. The latest instance -/

/-- The command attempts to open the latest link, or says that there is none. -/
theorem execute_openLatestInstance (s : Session) (env : Surroundings) (arguments : List Json) :
    ∃ effects, (s.execute env "alloy.openLatestInstance" arguments).2 = .ok effects ∧
      effects.filterMap Effect.attempted? = s.context.latest.toList.map .openModel ∧
      (s.context.latest = none → effects = [.warning noInstancesYet] ∧
        (s.execute env "alloy.openLatestInstance" arguments).1 = s) := by
  have hname : BridgeCommand.ofName? "alloy.openLatestInstance" = some .openLatestInstance := by decide
  rw [execute, Context.run, hname]
  simp only [Context.runCommand]
  cases s.context.latest with
  | none => exact ⟨_, rfl, rfl, fun _ => ⟨rfl, rfl⟩⟩
  | some link => exact ⟨_, rfl, Context.attempted_send .., fun h => absurd h (Option.some_ne_none link)⟩

end Session

/-! ## 6. The messages of all panels -/

open Session in
/-- **Panel messages and the latest instance.** Over every run of an activated session:

    What the relay of a panel hands over begins the list of the messages that were sent to the panel before
    the first `disposed`, each once and in order. What is missing waits in the channel as long as the relay
    runs, nothing is missing when it has come to its own end, and as many turns as there are events waiting
    hand over the rest, unless the relay is stopped.

    The notifications that are attempted because of messages, from panels or directly, are exactly what
    they ask for, in the order in which they are handled, and the latest link is the one that was recorded
    last; reachable or not, the server has no part in either. A value that asks for nothing and records
    nothing changes nothing but the channel it came from. The command for the latest instance attempts to
    open exactly the latest link, and warns once and does nothing else where there is none. -/
theorem panel_messages {config : Config} {w : World} {s : Session} (h : (activate config w).outcome = .ok s)
    (es : List Event) :
    let t := s.run es
    let handled := s.trace handledIn es
    (∀ n v, t.context.panel.views[n]? = some v →
      let sent := s.context.panel.sent n (s.trace moves es)
      let taken := (handled.filter fun h => h.panel = some n).map (·.message)
      taken <+: Panel.messages sent ∧
      (v.relay = .running → sent = taken.map .message ++ v.channel) ∧
      (v.relay = .leaving ∨ v.relay = .finished → taken = Panel.messages sent) ∧
      ∀ fs, (t.run fs).context.panel.relay? n ≠ some .aborted →
        v.channel.length ≤ fs.countP (Event.isTurnOf n) →
        Panel.messages sent <+:
          ((s.trace handledIn (es ++ fs)).filter fun h => h.panel = some n).map (·.message)) ∧
    s.trace attemptsIn es = handled.filterMap (fun h => PanelMessage.asks? h.message) ∧
    t.context.latest = (handled.filterMap fun h => PanelMessage.records? h.message).getLast? ∧
    (∀ env message, PanelMessage.asks? message = none → PanelMessage.records? message = none →
      t.react (.handles env message) = (t, [])) ∧
    (∀ env n panel message, t.context.panel.take? n = some (panel, some message) →
      PanelMessage.asks? message = none → PanelMessage.records? message = none →
      t.react (.relays env n) = ({ t with context := { t.context with panel } }, [])) ∧
    ∀ env arguments, ∃ effects,
      (t.execute env "alloy.openLatestInstance" arguments).2 = .ok effects ∧
      effects.filterMap Effect.attempted? = t.context.latest.toList.map .openModel ∧
      (t.context.latest = none → effects = [.warning noInstancesYet] ∧
        (t.execute env "alloy.openLatestInstance" arguments).1 = t) := by
  intro t handled
  obtain ⟨-, html, reply, hsession, -⟩ := Activation.session_of_ok h
  have hlatest : s.context.latest = none := congrArg (·.context.latest) hsession
  have hpanel : s.context.panel = .empty config.panel.title html := congrArg (·.context.panel) hsession
  have hidle : ∀ (c : Context) env message, PanelMessage.asks? message = none →
      PanelMessage.records? message = none → c.handlePanelMessage env message = (c, []) := by
    intro c env message hasks hrecords
    obtain ⟨hc, -, heffects⟩ := c.handlePanelMessage_eq env message
    rw [hrecords] at hc
    exact Prod.ext hc (heffects hasks)
  refine ⟨fun n v hv => ?_, attempts_run s es, ?_, fun env message hasks hrecords => ?_,
    fun env n panel message htake hasks hrecords => ?_, fun env arguments =>
      execute_openLatestInstance t env arguments⟩
  · intro sent taken
    have htaken : s.context.panel.taken n (s.trace moves es) = taken := taken_trace s n es
    have hrun : t.context.panel = s.context.panel.run (s.trace moves es) := panel_run s es
    have haccount := Bridge.taken_of_run config.panel.title html n (s.trace moves es) (v := v)
    rw [← hpanel, ← hrun, htaken] at haccount
    obtain ⟨hbegins, hrunning, hended⟩ := haccount hv
    refine ⟨hbegins, hrunning, hended, fun fs hstays hturns => ?_⟩
    have hmoves : s.trace moves (es ++ fs) = s.trace moves es ++ t.trace moves fs := trace_append ..
    have hrest := Bridge.taken_of_turns config.panel.title html n (s.trace moves es) (t.trace moves fs)
      (v := v)
    rw [← hpanel, ← hrun, ← hmoves, ← panel_run, run_append, taken_trace, turns_trace] at hrest
    exact hrest hv hstays hturns
  · rw [latest_run, hlatest, Option.or_none]
  · show t.become (t.context.handlePanelMessage _ message) = _
    rw [hidle _ _ _ hasks hrecords]
    rfl
  · rw [react, relayTurn?, Context.relayTurn?, htake]
    simp only [Option.map_some, Option.getD_some]
    rw [hidle _ _ _ hasks hrecords]
    rfl

open Session in
/-- A panel posts a model, a null, and a model behind its end; then an instance is handed over directly. -/
theorem panel_messages_closed :
    let config : Config :=
      ⟨⟨"java", "alloy.jar", ⟨30000⟩, ⟨3000⟩⟩, ⟨"alloy", .codeLens⟩, ⟨"Alloy", none⟩⟩
    let output := Json.arr [.null, .str "alloy/showExecutionOutput", .str "x"]
    let agrees := Json.arr [.int 1, .null, .null, .obj [("capabilities", .obj [])]]
    let bytes := [output, agrees].flatMap fun j => Frame.encode j.printBytes
    let w : World := ⟨fun _ => .error "", 50000, none, none, .connected, 7, [.sends bytes]⟩
    let env : Surroundings := ⟨none, true, none, fun _ _ => true⟩
    let posts (j : Json) : Event := .panel (.sends 0 (.message j))
    let es : List Event :=
      [.dispatches env, posts (PanelMessage.model "a").toJson, posts .null, .panel (.sends 0 .disposed),
        posts (PanelMessage.model "late").toJson, .relays env 0, .relays env 0, .relays env 0, .relays env 0,
        .handles env (PanelMessage.instanceCreated "b").toJson]
    ∃ s, (activate config w).outcome = .ok s ∧ s.trace attemptsIn es = [.openModel "a"] ∧
      (s.run es).context.latest = some "b" := by
  intro config output agrees bytes w env posts es
  have hrun : (activate config w).outcome.toOption.map (fun s =>
      ((s.trace handledIn es).filterMap fun h => PanelMessage.asks? h.message,
        ((s.trace handledIn es).filterMap fun h => PanelMessage.records? h.message).getLast?)) =
        some ([.openModel "a"], some "b") := by
    decide +kernel
  cases hs : (activate config w).outcome with
  | error e =>
    rw [hs] at hrun
    cases hrun
  | ok s =>
    rw [hs] at hrun
    obtain ⟨hasked, hrecorded⟩ := Prod.mk.inj (Option.some.inj hrun)
    obtain ⟨-, hattempts, hlatest, -⟩ := panel_messages hs es
    exact ⟨s, rfl, hattempts.trans hasked, hlatest.trans hrecorded⟩

end EditorBridge
