import EditorBridge.Proofs.Panel.Moves
import EditorBridge.Proofs.Rpc.Run
import EditorBridge.Session.Basic

/-!
# Runs of a session

A run is a sequence of events in any order: what the server, the process, the user and the panels do, the
turns of the tasks, and the calls of whoever holds the session. An event that cannot happen leaves the
session as it is.

A request is made in one event and its outcome taken up in another one (`takesUp`), so that anything may
happen in between. A caller takes up an outcome once; nothing here depends on that, and no event is barred
for it.

* `carryOut_eq` -- to carry out effects is to send the notifications among them;
* **`step_eq`**, **`turn_dispatches`** -- all that an event does, the turns of the dispatcher apart, and
  all that such a turn does;
* **`connection_run`** -- what a run is to the connection of the session: the events of `traffic`.
-/

namespace EditorBridge

open Rpc (Connection)

namespace Session

/-! ## 1. Events -/

/-- What happens to the stream of a session. -/
inductive Traffic where
  /-- Bytes arrive from the server. -/
  | receives (bs : List UInt8)
  | hangsUp
  | deafens
  | reads
  | writes

/-- The same, for the connection. -/
def Traffic.event : Traffic → Rpc.Event
  | receives bs => .receives bs
  | hangsUp => .hangsUp
  | deafens => .deafens
  | reads => .reads
  | writes => .writes

/-- What happens to a panel outside the session. -/
inductive PanelAct where
  | sends (n : Nat) (e : Panel.Event)
  | closes (n : Nat)
  | setsVisible (n : Nat) (visible : Bool)

/-- The same, for the bridge. -/
def PanelAct.move : PanelAct → Panel.Move
  | sends n e => .sends n e
  | closes n => .closes n
  | setsVisible n visible => .setsVisible n visible

/-- What happens to a session. -/
inductive Event where
  | stream (t : Traffic)
  | panel (a : PanelAct)
  | executes (env : Surroundings) (name : String) (arguments : List Json)
  /-- A value that the panel's script has posted is acted on. -/
  | handles (env : Surroundings) (message : Json)
  | relays (env : Surroundings) (panel : Nat)
  | closesPick (number : Nat) (chosen : Option ListedCommand)
  | setsMode (mode : HighlightMode)
  | asksLenses (uri : Url)
  | asksLinks (uri : Url)
  /-- The caller of a request takes up its outcome. -/
  | takesUp (call : Nat)
  | synchronizes (d : TextDocument) (change : DocumentChange)
  | opens (d : TextDocument) (text : String)
  /-- The dispatcher takes its turn. -/
  | dispatches (env : Surroundings)
  | beginsShutdown
  | process (e : Supervisor.Event)
  | asksToEnd
  | finishes

theorem Event.dispatches_or (e : Event) :
    (∃ env, e = .dispatches env) ∨ ∀ env, e ≠ .dispatches env := by
  cases e with
  | dispatches env => exact Or.inl ⟨env, rfl⟩
  | _ => exact Or.inr fun _ => (nomatch ·)

/-- Does what the caller of a request does with its outcome; nothing as long as there is none. -/
def takeUp (s : Session) (call : Nat) : Session :=
  match s.connection.calls[call]?, s.outcome? call with
  | some (_, .codeLenses uri), some r => (s.lensesArrived uri r).1
  | some (_, .shutdown), some r => s.shutdownAnswered r
  | _, _ => s

/-- One event: the session after it, and its effects. -/
def react (s : Session) : Event → Session × List Effect
  | .stream t => ({ s with connection := s.connection.step t.event }, [])
  | .panel a => ({ s with context := { s.context with panel := s.context.panel.step a.move } }, [])
  | .executes env name arguments =>
    match s.execute env name arguments with
    | (s, .ok effects) => (s, effects)
    | (s, .error _) => (s, [])
  | .handles env message => s.handlePanelMessage env message
  | .relays env panel => (s.relayTurn? env panel).getD (s, [])
  | .closesPick number chosen => (s.closePick? number chosen).getD (s, [])
  | .setsMode mode => (s.setMode mode, [])
  | .asksLenses uri => ((s.askLenses uri).1, [])
  | .asksLinks uri => (((s.askLinks? uri).map Prod.fst).getD s, [])
  | .takesUp call => (s.takeUp call, [])
  | .synchronizes d change => ((s.synchronize d change).1, [])
  | .opens d text => ((s.openDocument d text).1, [])
  | .dispatches env => (s.dispatchNext? env).getD (s, [])
  | .beginsShutdown => (s.beginShutdown.1, [])
  | .process e => ((s.processEvent? e).getD s, [])
  | .asksToEnd => (s.askToEnd, [])
  | .finishes => (s.finish, [])

/-- One event. -/
def step (s : Session) (e : Event) : Session := (s.react e).1

/-- A sequence of events. -/
def run (s : Session) (es : List Event) : Session := es.foldl step s

/-- What the events of a run yield, one after another, if `f` says what each yields. -/
def trace {α : Type} (f : Session → Event → List α) (s : Session) : List Event → List α
  | [] => []
  | e :: es => f s e ++ trace f (s.step e) es

@[simp] theorem run_nil (s : Session) : s.run [] = s := rfl

@[simp] theorem run_cons (s : Session) (e : Event) (es : List Event) :
    s.run (e :: es) = (s.step e).run es := rfl

theorem run_append (s : Session) (es fs : List Event) : s.run (es ++ fs) = (s.run es).run fs :=
  List.foldl_append

theorem trace_append {α : Type} (f : Session → Event → List α) (s : Session) (es fs : List Event) :
    s.trace f (es ++ fs) = s.trace f es ++ (s.run es).trace f fs := by
  induction es generalizing s with
  | nil => rfl
  | cons e es ih => rw [List.cons_append, trace, ih, trace, run_cons, List.append_assoc]

/-! ## 2. Effects on the server -/

/-- The notifications among some effects, as events of the connection. -/
def notices (effects : List Effect) : List Rpc.Event :=
  effects.filterMap fun e => match e with
    | .notify o true => some (.notifies o.method o.params)
    | _ => none

/-- To carry out effects is to send the notifications among them. -/
theorem carryOut_eq (s : Session) (effects : List Effect) :
    s.carryOut effects = { s with connection := s.connection.run (notices effects) } := by
  induction effects generalizing s with
  | nil => rfl
  | cons e effects ih =>
    have hcons : s.carryOut (e :: effects) =
        (match e with
          | .notify o true => { s with connection := (s.connection.notify o.method o.params).2 }
          | _ => s : Session).carryOut effects := rfl
    rw [hcons, ih]
    cases e with
    | notify o reached => cases reached <;> rfl
    | _ => rfl

theorem become_eq (s : Session) (r : Context × List Effect) :
    s.become r = ({ s with context := r.1, connection := s.connection.run (notices r.2) }, r.2) := by
  rw [become, carryOut_eq]

/-! ## 3. The parts of a session -/

/-- What an event of a session is to its connection. -/
def traffic (s : Session) : Event → List Rpc.Event
  | .stream t => [t.event]
  | .asksLenses uri => [.requests (.codeLenses uri)]
  | .asksLinks uri => if s.context.linksWanted then [.requests (.documentLinks uri)] else []
  | .takesUp call =>
    match s.connection.calls[call]?, s.outcome? call with
    | some (_, .shutdown), some (.ok _) => [.notifies Lifecycle.exitMethod none]
    | _, _ => []
  | .synchronizes d change =>
    if s.context.settings.isSynchronized d then [.notifies change.method (some (change.params d))] else []
  | .opens d text =>
    if s.context.settings.isSynchronized d then
      let change := DocumentChange.opened 1 text
      .notifies change.method (some (change.params d)) ::
        if s.connection.accepts then [.requests (.codeLenses d.uri)] else []
    else []
  | .beginsShutdown => [.dropsReceiver, .requests .shutdown]
  | .finishes => [.aborts]
  | e => notices (s.react e).2

/-- What an event that is no turn of the dispatcher makes of the context. -/
def contextAfter (s : Session) : Event → Context
  | .panel a => { s.context with panel := s.context.panel.step a.move }
  | .handles env message => (s.context.handlePanelMessage (s.surroundings env) message).1
  | .relays env panel =>
    ((s.context.relayTurn? (s.surroundings env) panel).map Prod.fst).getD s.context
  | .closesPick number chosen => ((s.context.closePick? number chosen).map Prod.fst).getD s.context
  | .setsMode mode => s.context.setMode mode
  | .takesUp call =>
    match s.connection.calls[call]?, s.outcome? call with
    | some (_, .codeLenses uri), some r => (s.context.lensesArrived uri (lensesOf r)).1
    | _, _ => s.context
  | .finishes => { s.context with panel := s.context.panel.shutdown }
  | _ => s.context

/-- What an event that is no turn of the dispatcher makes of the dispatcher. -/
def dispatcherAfter (s : Session) : Event → Rpc.TaskState
  | .beginsShutdown => if s.dispatcher = .running then .aborted else s.dispatcher
  | _ => s.dispatcher

/-- What an event makes of the process. -/
def processAfter (s : Session) : Event → Supervisor
  | .process e => (s.process.step? e).getD s.process
  | .asksToEnd => (s.process.step? (.asks s.grace)).getD s.process
  | _ => s.process

theorem execute_eq (s : Session) (env : Surroundings) (name : String) (arguments : List Json) :
    s.step (.executes env name arguments) =
      { s with
        connection := s.connection.run (notices (s.react (.executes env name arguments)).2) } := by
  rw [step, react, execute]
  cases s.context.run (s.surroundings env) name arguments with
  | ok effects =>
    dsimp only
    rw [carryOut_eq]
  | error e => rfl

theorem takeUp_eq (s : Session) (call : Nat) :
    s.takeUp call =
      { s with
        connection := s.connection.run (s.traffic (.takesUp call))
        context := s.contextAfter (.takesUp call) } := by
  rw [takeUp, traffic, contextAfter]
  cases s.connection.calls[call]? with
  | none => rfl
  | some c =>
    obtain ⟨id, r⟩ := c
    cases s.outcome? call with
    | none => cases r <;> rfl
    | some o =>
      cases r with
      | shutdown => cases o <;> rfl
      | _ => rfl

theorem synchronize_eq (s : Session) (d : TextDocument) (change : DocumentChange) :
    (s.synchronize d change).1 =
      { s with connection := s.connection.run (s.traffic (.synchronizes d change)) } := by
  rw [synchronize, traffic]
  split
  · rfl
  · rfl

theorem openDocument_eq (s : Session) (d : TextDocument) (text : String) :
    (s.openDocument d text).1 =
      { s with connection := s.connection.run (s.traffic (.opens d text)) } := by
  rw [openDocument, traffic]
  split
  · rename_i hs
    rw [synchronize, if_pos hs]
    cases ha : s.connection.accepts with
    | true =>
      simp only [if_true, Connection.run_cons, Connection.step, Connection.notify_of_accepted ha]
      rfl
    | false =>
      simp only [Bool.false_eq_true, if_false, Connection.run_cons, Connection.step,
        Connection.notify_of_refused ha]
      rfl
  · rfl

theorem processEvent_eq (s : Session) (e : Supervisor.Event) :
    (s.processEvent? e).getD s = { s with process := (s.process.step? e).getD s.process } := by
  rw [processEvent?]
  cases s.process.step? e <;> rfl

/-- **All that an event does**, if it is no turn of the dispatcher. -/
theorem step_eq (s : Session) {e : Event} (he : ∀ env, e ≠ .dispatches env) :
    s.step e =
      { s with
        connection := s.connection.run (s.traffic e)
        context := s.contextAfter e
        dispatcher := s.dispatcherAfter e
        process := s.processAfter e } := by
  cases e with
  | dispatches env => exact absurd rfl (he env)
  | executes env name arguments => exact execute_eq s env name arguments
  | handles env message =>
    exact congrArg Prod.fst (become_eq s (s.context.handlePanelMessage (s.surroundings env) message))
  | relays env panel =>
    have ht : s.traffic (.relays env panel) =
      notices ((s.relayTurn? env panel).getD (s, [])).2 := rfl
    rw [step, react, ht, contextAfter, relayTurn?]
    cases s.context.relayTurn? (s.surroundings env) panel with
    | none => rfl
    | some r => exact congrArg Prod.fst (become_eq s r)
  | closesPick number chosen =>
    have ht : s.traffic (.closesPick number chosen) =
      notices ((s.closePick? number chosen).getD (s, [])).2 := rfl
    rw [step, react, ht, contextAfter, closePick?]
    cases s.context.closePick? number chosen with
    | none => rfl
    | some r => exact congrArg Prod.fst (become_eq s r)
  | asksLinks uri =>
    rw [step, react, traffic, askLinks?]
    split
    · rfl
    · rfl
  | takesUp call => exact takeUp_eq s call
  | synchronizes d change => exact synchronize_eq s d change
  | opens d text => exact openDocument_eq s d text
  | process e => exact processEvent_eq s e
  | asksToEnd => exact processEvent_eq s (.asks s.grace)
  | _ => rfl

/-- What a turn of the dispatcher does. -/
inductive Turn (s : Session) (env : Surroundings) : Session × List Effect → Prop
  | handles {n : Rpc.Notification} (hd : s.dispatcher = .running)
      (hn : s.connection.notifications[s.dispatched]? = some n) :
      Turn s env (({ s with dispatched := s.dispatched + 1 } : Session).become
        (s.context.dispatch (s.surroundings env) n))
  | ends (hd : s.dispatcher = .running) (hn : s.connection.notifications[s.dispatched]? = none)
      (hr : s.connection.reader ≠ .running) :
      Turn s env ({ s with dispatcher := .ended }, Context.notificationsEnded)
  | idle (h : s.dispatcher = .running →
      s.connection.notifications[s.dispatched]? = none ∧ s.connection.reader = .running) :
      Turn s env (s, [])

/-- A turn of the dispatcher that can be taken handles a notification, or is its last. -/
theorem dispatchNext?_cases {s : Session} {env : Surroundings} {r : Session × List Effect}
    (h : s.dispatchNext? env = some r) :
    s.dispatcher = .running ∧
      ((∃ n, s.connection.notifications[s.dispatched]? = some n ∧
          r = ({ s with dispatched := s.dispatched + 1 } : Session).become
            (s.context.dispatch (s.surroundings env) n)) ∨
        s.connection.notifications[s.dispatched]? = none ∧
          r = ({ s with dispatcher := .ended }, Context.notificationsEnded)) := by
  rw [dispatchNext?] at h
  split at h
  · rename_i hd
    split at h
    · rename_i n hn
      cases h
      exact ⟨hd, Or.inl ⟨n, hn, rfl⟩⟩
    · rename_i hn
      split at h
      · cases h
      · cases h
        exact ⟨hd, Or.inr ⟨hn, rfl⟩⟩
  · cases h

/-- **All that a turn of the dispatcher does.** -/
theorem turn_dispatches (s : Session) (env : Surroundings) : s.Turn env (s.react (.dispatches env)) := by
  rw [react, dispatchNext?]
  by_cases hd : s.dispatcher = .running
  · rw [if_pos hd]
    cases hn : s.connection.notifications[s.dispatched]? with
    | some n => exact .handles hd hn
    | none =>
      by_cases hr : s.connection.reader = .running
      · simp only [if_pos hr]
        exact .idle fun _ => ⟨hn, hr⟩
      · simp only [if_neg hr]
        exact .ends hd hn hr
  · rw [if_neg hd]
    exact .idle fun h => absurd h hd

theorem connection_dispatch (s : Session) (env : Surroundings) :
    (s.step (.dispatches env)).connection = s.connection.run (s.traffic (.dispatches env)) := by
  have ht := s.turn_dispatches env
  change (s.react (.dispatches env)).1.connection =
    s.connection.run (notices (s.react (.dispatches env)).2)
  generalize s.react (.dispatches env) = r at ht
  cases ht with
  | handles => rw [become_eq]
  | ends | idle => rfl

theorem connection_step (s : Session) (e : Event) :
    (s.step e).connection = s.connection.run (s.traffic e) := by
  rcases e.dispatches_or with ⟨env, rfl⟩ | he
  · exact connection_dispatch s env
  · rw [step_eq s he]

/-- **To its connection, a run of a session is the run of its traffic.** -/
theorem connection_run (s : Session) (es : List Event) :
    (s.run es).connection = s.connection.run (s.trace traffic es) := by
  induction es generalizing s with
  | nil => rfl
  | cons e es ih => rw [run_cons, ih, connection_step, trace, Connection.run_append]

end Session

end EditorBridge
