import EditorBridge.Proofs.Protocol.NormalForm
import EditorBridge.Proofs.Session.Activation

/-!
# The dispatch of notifications

The dispatcher goes one by one through the notifications that have been delivered, beginning with those
that came before the handshake was over. A notification has its `reports`: these are all that the user and
the panel are told because of it (`report_dispatch`), and the server is told nothing
(`notices_dispatch`).

* `Paced.run` -- what has been told are the reports of the notifications handled so far, in their order,
  and at the end that the connection is closed;
* `run_turns` -- so many turns of the dispatcher handle so many notifications, whatever is open elsewhere.

**`notifications_in_order`** -- the two together, for every activated session.
-/

namespace EditorBridge

open Rpc (Connection)

/-! ## 1. What a notification does -/

/-- What the user or the panel is told because of a notification. -/
inductive Report where
  /-- A chunk of output for the panel. -/
  | output (params : Json)
  | error (message : String)
  | warning (message : String)
  /-- A quick pick with these items. -/
  | pick (items : List ListedCommand)

/-- The report that an effect is, if it is one. -/
def Effect.report? : Effect → Option Report
  | .post _ message => some (.output message)
  | .error message => some (.error message)
  | .warning message => some (.warning message)
  | .pick _ items => some (.pick items)
  | _ => none

/-- What the user is told because of a message, as it is written: one of kind 1 is an error, one of kind 2 a
    warning, and any other is nothing to the user. -/
def Report.ofMessage : Option (Int × String) → List Report
  | some (1, message) => [.error message]
  | some (2, message) => [.warning message]
  | _ => []

/-- What is told because of a notification. -/
def Rpc.Notification.reports (n : Rpc.Notification) : List Report :=
  if n.method = "alloy/showExecutionOutput" then [.output n.params]
  else if n.method = "alloy/commandsListResult" then
    match CommandListing.decode n.params with
    | .ok listing => [.pick listing.commands]
    | .error _ => []
  else if n.method = "window/showMessage" then Report.ofMessage (ShownMessage.written? n.params)
  else []

/-- What is told when no notification will come any more. -/
def Report.closed : Report := .warning "The Alloy language server connection was closed."

/-- What is told because of a message that decodes. -/
theorem Report.ofMessage_of_ok {what : String} {params : Json} {m : ShownMessage}
    (h : ShownMessage.decode what params = .ok m) :
    ofMessage (ShownMessage.written? params) =
      if m.kind = 1 then [.error m.message] else if m.kind = 2 then [.warning m.message] else [] := by
  obtain ⟨kind, message⟩ := m
  rw [ShownMessage.decode_eq_ok_iff.mp h]
  by_cases h₁ : kind = 1
  · subst h₁
    rfl
  by_cases h₂ : kind = 2
  · subst h₂
    rfl
  rw [if_neg h₁, if_neg h₂, ofMessage]
  · exact fun text he => h₁ (Int32.toInt_inj.mp (congrArg Prod.fst (Option.some.inj he)))
  · exact fun text he => h₂ (Int32.toInt_inj.mp (congrArg Prod.fst (Option.some.inj he)))

/-- Of a message that does not decode nothing is told. -/
theorem Report.ofMessage_of_error {what : String} {params : Json} {cause : DecodeError}
    (h : ShownMessage.decode what params = .error cause) : ofMessage (ShownMessage.written? params) = [] := by
  have hno (kind : Int32) (message : String) :
      ShownMessage.written? params ≠ some (kind.toInt, message) := fun hw => by
    cases h.symm.trans ((ShownMessage.decode_eq_ok_iff (m := ⟨kind, message⟩)).mpr hw)
  rw [ofMessage]
  · exact hno 1
  · exact hno 2

/-- A listing as it is written offers its commands. -/
theorem Rpc.Notification.reports_of_listing (n : Rpc.Notification) {listing : CommandListing}
    (hm : n.method = "alloy/commandsListResult") (hp : n.params = listing.toJson) :
    n.reports = [.pick listing.commands] := by
  have hout : n.method ≠ "alloy/showExecutionOutput" := by
    rw [hm]
    decide
  rw [reports, if_neg hout, if_pos hm, hp, listing.decode_toJson]

theorem Panel.Bridge.current_ensure (b : Panel.Bridge) : b.ensure.1.current = some b.ensure.2.1 := by
  unfold Panel.Bridge.ensure
  cases hc : b.current with
  | some n =>
    dsimp only
    split
    · exact hc
    · exact hc
  | none => rfl

/-- To make a panel current tells nobody anything. -/
theorem Panel.Bridge.quiet_ensure (b : Panel.Bridge) :
    b.ensure.2.2.filterMap Effect.report? = [] ∧ Session.notices b.ensure.2.2 = [] := by
  unfold Panel.Bridge.ensure
  split
  · split
    · exact ⟨rfl, rfl⟩
    · exact ⟨rfl, rfl⟩
  · exact ⟨rfl, rfl⟩

namespace Context

variable {c : Context} {env : Surroundings} {n : Rpc.Notification}

/-- Showing an output makes a panel current and posts the output to it. -/
theorem showOutput_eq (c : Context) (env : Surroundings) (output : Json) :
    c.showOutput env output = ({ c with panel := c.panel.ensure.1 },
      c.panel.ensure.2.2 ++ postOutput env c.panel.ensure.2.1 output) := rfl

/-- A chunk of output goes to the current panel, as it came. -/
theorem dispatch_of_output (h : n.method = "alloy/showExecutionOutput") :
    c.dispatch env n = c.showOutput env n.params := if_pos h

/-- A notification that is no output touches no panel, and all it does is logged or told. -/
theorem dispatch_of_not_output (h : n.method ≠ "alloy/showExecutionOutput") :
    (c.dispatch env n).1.panel = c.panel ∧
      (∀ e ∈ (c.dispatch env n).2, (∃ line, e = .log line) ∨ e.report? ≠ none) ∧
      (c.dispatch env n).2.filterMap Effect.report? = n.reports := by
  rw [dispatch, Rpc.Notification.reports, if_neg h, if_neg h]
  by_cases hl : n.method = "alloy/commandsListResult"
  · rw [if_pos hl, if_pos hl, offerCommands]
    cases CommandListing.decode n.params with
    | error cause => simp [Effect.report?, Effect.warn]
    | ok listing => simp [Effect.report?]
  · rw [if_neg hl, if_neg hl]
    by_cases hm : n.method = "window/logMessage"
    · have hs : n.method ≠ "window/showMessage" := by
        rw [hm]
        decide
      rw [if_pos hm, if_neg hs]
      cases ShownMessage.decode "LogMessageParams" n.params <;> simp [Effect.report?]
    · rw [if_neg hm]
      by_cases hs : n.method = "window/showMessage"
      · rw [if_pos hs, if_pos hs]
        cases hd : ShownMessage.decode "ShowMessageParams" n.params with
        | error cause =>
          rw [Report.ofMessage_of_error hd]
          simp
        | ok m =>
          rw [Report.ofMessage_of_ok hd]
          dsimp only
          split
          · exact ⟨rfl, by simp [Effect.report?], rfl⟩
          · split
            · exact ⟨rfl, by simp [Effect.report?], rfl⟩
            · exact ⟨rfl, by simp, rfl⟩
      · rw [if_neg hs, if_neg hs]
        simp

/-- **What a notification does is told by its reports.** -/
theorem report_dispatch (c : Context) (env : Surroundings) (n : Rpc.Notification) :
    (c.dispatch env n).2.filterMap Effect.report? = n.reports := by
  by_cases ho : n.method = "alloy/showExecutionOutput"
  · rw [dispatch_of_output ho, showOutput_eq, postOutput, Rpc.Notification.reports, if_pos ho]
    simp only [List.filterMap_append, c.panel.quiet_ensure.1, List.nil_append]
    split <;> rfl
  · exact (dispatch_of_not_output ho).2.2

/-- The server is told nothing because of a notification. -/
theorem notices_dispatch (c : Context) (env : Surroundings) (n : Rpc.Notification) :
    Session.notices (c.dispatch env n).2 = [] := by
  by_cases ho : n.method = "alloy/showExecutionOutput"
  · have hensure := c.panel.quiet_ensure.2
    rw [Session.notices] at hensure ⊢
    rw [dispatch_of_output ho, showOutput_eq, postOutput]
    simp only [List.filterMap_append, hensure, List.nil_append]
    split <;> rfl
  · refine List.filterMap_eq_nil_iff.mpr fun e he => ?_
    rcases (dispatch_of_not_output ho).2.1 e he with ⟨line, rfl⟩ | hr
    · rfl
    · cases e with
      | notify o reached => exact absurd rfl hr
      | _ => rfl

end Context

/-! ## 2. The turns of the dispatcher -/

namespace Session

/-- The server is not told of what is dispatched. -/
theorem become_dispatch (s : Session) (c : Context) (env : Surroundings) (n : Rpc.Notification) :
    s.become (c.dispatch env n) = ({ s with context := (c.dispatch env n).1 }, (c.dispatch env n).2) := by
  rw [become_eq, Context.notices_dispatch]
  rfl

variable {s : Session}

/-- A turn with a notification to handle. -/
theorem react_handles (hd : s.dispatcher = .running) {n : Rpc.Notification}
    (hn : s.connection.notifications[s.dispatched]? = some n) (env : Surroundings) :
    s.react (.dispatches env) =
      ({ s with
          dispatched := s.dispatched + 1
          context := (s.context.dispatch (s.surroundings env) n).1 },
        (s.context.dispatch (s.surroundings env) n).2) := by
  have ht := s.turn_dispatches env
  generalize s.react (.dispatches env) = r at ht
  cases ht with
  | handles _ hn' =>
    cases hn.symm.trans hn'
    exact become_dispatch ..
  | ends _ hn' _ => cases hn.symm.trans hn'
  | idle h => cases hn.symm.trans (h hd).1

/-- A turn after the last notification. -/
theorem react_ends (hd : s.dispatcher = .running)
    (hn : s.connection.notifications[s.dispatched]? = none) (hr : s.connection.reader ≠ .running)
    (env : Surroundings) :
    s.react (.dispatches env) = ({ s with dispatcher := .ended }, Context.notificationsEnded) := by
  have ht := s.turn_dispatches env
  generalize s.react (.dispatches env) = r at ht
  cases ht with
  | handles _ hn' => cases hn.symm.trans hn'
  | ends => rfl
  | idle h => exact absurd (h hd).2 hr

/-- A dispatcher that has stopped does nothing. -/
theorem react_stopped (hd : s.dispatcher ≠ .running) (env : Surroundings) :
    s.react (.dispatches env) = (s, []) := by
  have ht := s.turn_dispatches env
  generalize s.react (.dispatches env) = r at ht
  cases ht with
  | handles hd' => exact absurd hd' hd
  | ends hd' => exact absurd hd' hd
  | idle => rfl

/-! ## 3. What has been told -/

/-- What is told in an event because of the notifications of the server. -/
def reportsIn (s : Session) : Event → List Report
  | .dispatches env => (s.react (.dispatches env)).2.filterMap Effect.report?
  | _ => []

/-- What is told in a run because of the notifications of the server. -/
def reportsOf (s : Session) (es : List Event) : List Report := s.trace reportsIn es

/-- The reports of the notifications handled so far, and at the end that the connection is closed. -/
def reported (s : Session) : List Report :=
  (s.connection.notifications.take s.dispatched).flatMap (·.reports) ++
    if s.dispatcher = .ended then [Report.closed] else []

/-- The dispatcher is not ahead of the notifications, and it has ended only behind the last one. -/
structure Paced (s : Session) : Prop where
  inOrder : s.connection.InOrder
  le : s.dispatched ≤ s.connection.notifications.length
  ended : s.dispatcher = .ended →
    s.dispatched = s.connection.notifications.length ∧ s.connection.reader ≠ .running

/-- What happens elsewhere leaves what has been told as it is. -/
theorem Paced.of_run (h : s.Paced) {t : Session} {es : List Rpc.Event}
    (hc : t.connection = s.connection.run es) (hd : t.dispatched = s.dispatched)
    (he : t.dispatcher = .ended ↔ s.dispatcher = .ended) : t.Paced ∧ t.reported = s.reported := by
  obtain ⟨new, hnew, hprefix, -⟩ := h.inOrder.exists_notifications_run es
  have htake : t.connection.notifications.take t.dispatched =
      s.connection.notifications.take s.dispatched := by
    rw [hc, hd, hnew, List.take_append_of_le_length h.le]
  refine ⟨⟨hc ▸ Connection.inOrder_run h.inOrder es, ?_, fun hend => ?_⟩, ?_⟩
  · rw [hc, hd, hnew, List.length_append]
    exact Nat.le_trans h.le (Nat.le_add_right _ _)
  · -- the reader has stopped, so that nothing can have come
    obtain ⟨hall, hr⟩ := h.ended (he.mp hend)
    rw [Connection.bodies_of_not_running hr, List.filterMap_nil, List.prefix_nil] at hprefix
    rw [hc, hd, hnew, hprefix, List.append_nil, Connection.reader_run_of_not_running hr]
    exact ⟨hall, hr⟩
  · simp only [reported, htake, he]

/-- **What an event adds to what has been told.** -/
theorem Paced.step (h : s.Paced) (e : Event) :
    (s.step e).Paced ∧ (s.step e).reported = s.reported ++ s.reportsIn e := by
  rcases e.dispatches_or with ⟨env, rfl⟩ | he
  · have ht := s.turn_dispatches env
    rw [Session.step, reportsIn]
    generalize s.react (.dispatches env) = r at ht
    cases ht with
    | @handles n hd hn =>
      rw [become_dispatch]
      have hrun : s.dispatcher ≠ .ended := by
        rw [hd]
        decide
      refine ⟨⟨h.inOrder, (List.getElem?_eq_some_iff.mp hn).choose, fun hend => absurd hend hrun⟩, ?_⟩
      simp only [reported, if_neg hrun, List.append_nil, List.take_add_one, hn, Option.toList_some,
        List.flatMap_append, List.flatMap_singleton, Context.report_dispatch]
    | ends hd hn hr =>
      have hrun : s.dispatcher ≠ .ended := by
        rw [hd]
        decide
      have hall : s.dispatched = s.connection.notifications.length :=
        Nat.le_antisymm h.le (List.getElem?_eq_none_iff.mp hn)
      refine ⟨⟨h.inOrder, h.le, fun _ => ⟨hall, hr⟩⟩, ?_⟩
      simp only [reported, if_neg hrun, List.append_nil]
      rfl
    | idle => exact ⟨h, (List.append_nil _).symm⟩
  · have hnone : s.reportsIn e = [] := by
      cases e with
      | dispatches env => exact absurd rfl (he env)
      | _ => rfl
    rw [hnone, List.append_nil, step_eq s he]
    refine h.of_run rfl rfl ?_
    cases e with
    | beginsShutdown =>
      show (if s.dispatcher = .running then _ else s.dispatcher) = .ended ↔ _
      split
      · rename_i hd
        rw [hd]
        exact iff_of_false (by decide) (by decide)
      · exact Iff.rfl
    | _ => exact Iff.rfl

/-- **What has been told after a run.** -/
theorem Paced.run (h : s.Paced) (es : List Event) :
    (s.run es).Paced ∧ (s.run es).reported = s.reported ++ s.reportsOf es := by
  induction es generalizing s with
  | nil => exact ⟨h, (List.append_nil _).symm⟩
  | cons e es ih =>
    obtain ⟨hstep, hnow⟩ := h.step e
    obtain ⟨hrun, hlater⟩ := ih hstep
    refine ⟨hrun, hlater.trans ?_⟩
    rw [hnow, List.append_assoc]
    rfl

/-! ## 4. Progress -/

/-- **So many turns handle so many notifications**, whatever is open elsewhere. -/
theorem run_turns (hd : s.dispatcher = .running) {envs : List Surroundings}
    (hle : s.dispatched + envs.length ≤ s.connection.notifications.length) :
    (s.run (envs.map .dispatches)).dispatched = s.dispatched + envs.length ∧
      (s.run (envs.map .dispatches)).dispatcher = .running ∧
      (s.run (envs.map .dispatches)).connection = s.connection := by
  induction envs generalizing s with
  | nil => exact ⟨rfl, hd, rfl⟩
  | cons env envs ih =>
    rw [List.length_cons] at hle ⊢
    have hlt : s.dispatched < s.connection.notifications.length := by omega
    have hreact := react_handles hd (List.getElem?_eq_getElem hlt) env
    rw [List.map_cons, run_cons, Session.step, hreact]
    have hle' : s.dispatched + 1 + envs.length ≤ s.connection.notifications.length := by omega
    obtain ⟨hcount, hrun, hsame⟩ := @ih { s with
      dispatched := s.dispatched + 1
      context := (s.context.dispatch (s.surroundings env) s.connection.notifications[s.dispatched]).1 }
      hd hle'
    refine ⟨hcount.trans ?_, hrun, hsame⟩
    show s.dispatched + 1 + envs.length = _
    omega

theorem dispatcher_step_ne_running (hd : s.dispatcher ≠ .running) (e : Event) :
    (s.step e).dispatcher ≠ .running := by
  rcases e.dispatches_or with ⟨env, rfl⟩ | he
  · rw [Session.step, react_stopped hd]
    exact hd
  · rw [step_eq s he]
    cases e with
    | beginsShutdown =>
      show (if s.dispatcher = .running then _ else s.dispatcher) ≠ _
      rw [if_neg hd]
      exact hd
    | _ => exact hd

/-- A dispatcher that has stopped tells nothing any more. -/
theorem reportsOf_of_stopped (hd : s.dispatcher ≠ .running) (es : List Event) : s.reportsOf es = [] := by
  induction es generalizing s with
  | nil => rfl
  | cons e es ih =>
    have hnow : s.reportsIn e = [] := by
      cases e with
      | dispatches env =>
        rw [reportsIn, react_stopped hd]
        rfl
      | _ => rfl
    have hlater := ih (dispatcher_step_ne_running hd e)
    rw [reportsOf] at hlater ⊢
    rw [trace, hnow, hlater]
    rfl

theorem dispatcher_beginsShutdown (s : Session) : (s.step .beginsShutdown).dispatcher ≠ .running := by
  show (if s.dispatcher = .running then _ else s.dispatcher) ≠ _
  split
  · decide
  · assumption

/-! ## 5. Before the end of the session -/

theorem keepsReceiver_notices (effects : List Effect) :
    (notices effects).all Rpc.Event.keepsReceiver = true := by
  rw [List.all_eq_true]
  intro x hx
  obtain ⟨e, -, he⟩ := List.mem_filterMap.mp hx
  split at he
  · cases he
    rfl
  · cases he

/-- Only the end of the session lets go of the notifications. -/
theorem keepsReceiver_traffic {e : Event} (he : e ≠ .beginsShutdown) :
    (s.traffic e).all Rpc.Event.keepsReceiver = true := by
  cases e with
  | beginsShutdown => exact absurd rfl he
  | stream t => cases t <;> rfl
  | asksLenses | finishes => rfl
  | asksLinks =>
    rw [traffic]
    split <;> rfl
  | takesUp =>
    rw [traffic]
    split <;> rfl
  | synchronizes =>
    rw [traffic]
    split <;> rfl
  | opens =>
    rw [traffic]
    split
    · simp only [List.all_cons]
      split <;> rfl
    · rfl
  | _ => exact keepsReceiver_notices _

theorem keepsReceiver_trace {es : List Event} (hes : .beginsShutdown ∉ es) :
    (s.trace traffic es).all Rpc.Event.keepsReceiver = true := by
  induction es generalizing s with
  | nil => rfl
  | cons e es ih =>
    rw [trace, List.all_append, keepsReceiver_traffic fun h => hes (h ▸ List.mem_cons_self),
      ih fun h => hes (List.mem_cons_of_mem _ h)]
    rfl

/-- Until then the dispatcher is not stopped from outside. -/
theorem dispatcher_run_ne_aborted (hd : s.dispatcher ≠ .aborted) {es : List Event}
    (hes : .beginsShutdown ∉ es) : (s.run es).dispatcher ≠ .aborted := by
  induction es generalizing s with
  | nil => exact hd
  | cons e es ih =>
    refine ih ?_ fun h => hes (List.mem_cons_of_mem _ h)
    rcases e.dispatches_or with ⟨env, rfl⟩ | he
    · have ht := s.turn_dispatches env
      rw [Session.step]
      generalize s.react (.dispatches env) = r at ht
      cases ht with
      | handles =>
        rw [become_dispatch]
        exact hd
      | ends => exact fun h => by cases h
      | idle => exact hd
    · rw [step_eq s he]
      cases e with
      | beginsShutdown => exact absurd List.mem_cons_self hes
      | _ => exact hd

end Session

/-! ## 6. Notifications in order -/

open Session in
/-- **The notifications of the server are handled in order.** In any run of an activated session, what has
    been told because of notifications are the reports of those handled so far, in the order in which
    they arrived, beginning with those before the answer to the handshake; and behind them, once the
    dispatcher has ended, that the connection is closed. The notifications are those on which the reader
    has acted, up to the end of the session: the first ones in the stream of the server, and all of them
    if the reader was not stopped and has nothing left to do. The dispatcher ends only behind the last of
    them, when the reader has stopped; before the end of the session nothing else stops it, and from then
    on nothing is told.

    As long as the dispatcher runs, so many turns handle so many notifications and leave the connection
    as it is, whatever quick picks are open, and one more turn ends it if the reader has stopped. What a turn
    tells are the reports of its notification; a listing as it is written opens one quick pick with its
    commands. A turn with output makes a panel current and posts the parameters to it as they came. A turn
    with any other notification touches no panel, and all it does is logged or told. -/
theorem notifications_in_order {config : Config} {w : World} {s : Session}
    (h : (activate config w).outcome = .ok s) :
    ∃ es₀, s.connection = Connection.start.run es₀ ∧ ∀ es,
      let t := s.run es
      let c := t.connection
      let rs := es₀ ++ s.trace traffic es
      let heard := (Connection.start.bodies rs).filterMap Rpc.notification?
      let sent := (Frame.bodiesIn c.peerDone (Connection.start.arrivals rs)).filterMap Rpc.notification?
      s.reportsOf es = (c.notifications.take t.dispatched).flatMap (·.reports) ++
        (if t.dispatcher = .ended then [Report.closed] else []) ∧
      c.notifications <+: heard ∧ heard <+: sent ∧
      (c.reader ≠ .aborted → c.ear.nextBody? = none → heard = sent) ∧
      (.beginsShutdown ∉ es → c.notifications = heard ∧ t.dispatcher ≠ .aborted) ∧
      (t.dispatcher = .ended → t.dispatched = c.notifications.length ∧ c.reader ≠ .running) ∧
      (∀ fs, (t.step .beginsShutdown).reportsOf fs = []) ∧
      (t.dispatcher = .running → ∀ envs : List Surroundings,
        let u := t.run (envs.map .dispatches)
        (t.dispatched + envs.length ≤ c.notifications.length →
          u.dispatched = t.dispatched + envs.length ∧ u.dispatcher = .running ∧ u.connection = c) ∧
        (t.dispatched + envs.length = c.notifications.length → c.reader ≠ .running →
          ∀ env, (u.step (.dispatches env)).dispatcher = .ended)) ∧
      ∀ env n, t.dispatcher = .running → c.notifications[t.dispatched]? = some n →
        let (u, effects) := t.react (.dispatches env)
        let (b, panel, shown) := t.context.panel.ensure
        u.dispatched = t.dispatched + 1 ∧ u.connection = c ∧
        effects.filterMap Effect.report? = n.reports ∧
        (∀ listing : CommandListing, n.method = "alloy/commandsListResult" → n.params = listing.toJson →
          n.reports = [.pick listing.commands]) ∧
        (n.method = "alloy/showExecutionOutput" →
          u.context.panel = b ∧ b.current = some panel ∧
          effects = shown ++ [.post panel n.params] ++
            if env.takesPost panel n.params then []
            else [Effect.warn "result panel did not accept execution output"]) ∧
        (n.method ≠ "alloy/showExecutionOutput" →
          u.context.panel = t.context.panel ∧
          ∀ e ∈ effects, (∃ line, e = .log line) ∨ e.report? ≠ none) := by
  obtain ⟨es₀, hs, hkeeps⟩ := Activation.exists_run_of_ok h
  obtain ⟨-, html, reply, hsession, -⟩ := Activation.session_of_ok h
  have hcount : s.dispatched = 0 := congrArg Session.dispatched hsession
  have hrunning : s.dispatcher = .running := congrArg Session.dispatcher hsession
  have hpaced : s.Paced :=
    { inOrder := hs ▸ Connection.inOrder_run Connection.inOrder_start es₀
      le := hcount ▸ Nat.zero_le _
      ended := fun hend => nomatch hrunning.symm.trans hend }
  have hnothing : s.reported = [] := by
    rw [reported, hcount, hrunning]
    rfl
  refine ⟨es₀, hs, fun es => ?_⟩
  intro t c rs heard sent
  obtain ⟨htpaced, htold⟩ := hpaced.run es
  have hc : c = Connection.start.run rs := by
    rw [Connection.run_append, ← hs]
    exact connection_run s es
  obtain ⟨hsome, hall⟩ := Connection.bodies_of_run rs
  rw [← hc] at hsome hall
  refine ⟨?_, ?_, hsome.filterMap _, fun hr hnext => ?_, fun hno => ⟨?_, ?_⟩, htpaced.ended, fun fs => ?_,
    fun hd envs => ⟨?_, ?_⟩, ?_⟩
  · rw [hnothing, List.nil_append] at htold
    exact htold.symm
  · obtain ⟨new, hnew, hprefix, -⟩ :=
      Connection.inOrder_start.exists_notifications_run rs
    rw [hc, hnew]
    exact hprefix
  · exact congrArg (List.filterMap Rpc.notification?) (hall hr hnext)
  · rw [hc]
    refine Connection.notifications_run _ ?_
    rw [Connection.inOrder_start.hasReceiver_run, List.all_append, hkeeps, keepsReceiver_trace hno]
    rfl
  · exact dispatcher_run_ne_aborted (hrunning ▸ (nomatch ·)) hno
  · exact reportsOf_of_stopped t.dispatcher_beginsShutdown fs
  · exact run_turns hd
  · intro hlen hr env
    obtain ⟨hall, hrun, hsame⟩ := run_turns hd (Nat.le_of_eq hlen)
    have hnone : (t.run (envs.map .dispatches)).connection.notifications[
        (t.run (envs.map .dispatches)).dispatched]? = none := by
      rw [hsame, hall, hlen]
      exact List.getElem?_eq_none_iff.mpr (Nat.le_refl _)
    rw [Session.step, react_ends hrun hnone (hsame ▸ hr)]
  · intro env n hd hn
    rw [react_handles hd hn]
    refine ⟨rfl, rfl, Context.report_dispatch _ _ n, fun listing => n.reports_of_listing, fun ho => ?_,
      fun ho => ?_⟩
    · rw [Context.dispatch_of_output ho, Context.showOutput_eq]
      exact ⟨rfl, t.context.panel.current_ensure, List.append_cons ..⟩
    · obtain ⟨hpanel, hlogged, -⟩ :=
        @Context.dispatch_of_not_output t.context (t.surroundings env) n ho
      exact ⟨hpanel, hlogged⟩

open Session in
/-- Output and a warning come before the answer to the handshake; later the server hangs up. All three are told
    in this order. -/
theorem notifications_in_order_early :
    let config : Config :=
      ⟨⟨"java", "alloy.jar", ⟨30000⟩, ⟨3000⟩⟩, ⟨"alloy", .codeLens⟩, ⟨"Alloy", none⟩⟩
    let output := Json.arr [.null, .str "alloy/showExecutionOutput", .arr [.int 1]]
    let shows := Json.arr [.null, .str "window/showMessage", .arr [.int 2, .str "no"]]
    let agrees := Json.arr [.int 1, .null, .null, .obj [("capabilities", .obj [])]]
    let bytes := [output, shows, agrees].flatMap fun j => Frame.encode j.printBytes
    let w : World := ⟨fun _ => .error "", 50000, none, none, .connected, 7, [.sends bytes]⟩
    let env : Surroundings := ⟨none, true, none, fun _ _ => true⟩
    let es : List Event :=
      [.dispatches env, .stream .hangsUp, .stream .reads, .dispatches env, .dispatches env]
    ∃ s params, (activate config w).outcome = .ok s ∧
      s.reportsOf es = [.output params, .warning "no", Report.closed] ∧
      params.printBytes = (Json.arr [.int 1]).printBytes := by
  intro config output shows agrees bytes w env es
  have hended : (activate config w).outcome.toOption.map
      (fun s => ((s.run es).dispatcher, (s.run es).dispatched)) = some (.ended, 2) := by
    decide +kernel
  have hseen : (activate config w).outcome.toOption.map (fun s => (s.run es).connection.notifications.map
      fun n => (n.method, n.params.printBytes, ShownMessage.written? n.params)) =
        some [("alloy/showExecutionOutput", (Json.arr [.int 1]).printBytes, none),
          ("window/showMessage", (Json.arr [.int 2, .str "no"]).printBytes, some (2, "no"))] := by
    decide +kernel
  cases hs : (activate config w).outcome with
  | error e =>
    rw [hs] at hended
    cases hended
  | ok s =>
    rw [hs] at hended hseen
    obtain ⟨hended, hcount⟩ := Prod.mk.inj (Option.some.inj hended)
    obtain ⟨n, ns, hn, hfirst, hns⟩ := List.map_eq_cons_iff.mp (Option.some.inj hseen)
    obtain ⟨m, ms, rfl, hsecond, hms⟩ := List.map_eq_cons_iff.mp hns
    obtain ⟨hnmethod, hnparams⟩ := Prod.mk.inj hfirst
    obtain ⟨hmmethod, hmparams⟩ := Prod.mk.inj hsecond
    obtain ⟨es₀, -, hall⟩ := notifications_in_order hs
    obtain ⟨htold, -⟩ := hall es
    have houtput : n.reports = [.output n.params] := if_pos hnmethod
    have hwarning : m.reports = [.warning "no"] := by
      rw [Rpc.Notification.reports, hmmethod, (Prod.mk.inj hmparams).2]
      rfl
    refine ⟨s, n.params, rfl, ?_, (Prod.mk.inj hnparams).1⟩
    rw [htold, if_pos hended, hcount, hn, List.map_eq_nil_iff.mp hms]
    show n.reports ++ (m.reports ++ []) ++ _ = _
    rw [houtput, hwarning]
    rfl

end EditorBridge
