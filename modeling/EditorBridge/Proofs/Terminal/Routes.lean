import EditorBridge.Proofs.Session.Activation
import EditorBridge.Proofs.Terminal.Grammar
import EditorBridge.Proofs.Terminal.Panels

/-!
# The two routes of a message

A typed `stop` or `open` comes to the same through the panel and without one. What is said to the server
because of messages is what they ask for, in the order in which they are handled (`told`); and as long as
nothing else is typed, nothing else is said (`Posting`).

* `Session.handleAll` -- messages that are handled one after another, with no panel at all;
* `posting_step`, **`own_run`** -- what the bridge says while only messages are typed.

**`two_routes`** -- both routes agree, whenever the panel comes up and however slow its relay is.
-/

namespace EditorBridge

open Rpc (Connection Outgoing)

/-! ## 1. What a message says -/

namespace PanelMessage

/-- The notification that a message is told to the server as. -/
def notification? : PanelMessage → Option Outbound
  | model link => some (.openModel link)
  | instanceCreated _ => none
  | stop => some .stopExecution

/-- The link that a message records. -/
def recorded? : PanelMessage → Option String
  | model link => some link
  | instanceCreated link => some link
  | stop => none

theorem asks?_toJson (m : PanelMessage) : asks? m.toJson = m.notification? := by
  cases m <;> rfl

theorem records?_toJson (m : PanelMessage) : records? m.toJson = m.recorded? := by
  cases m <;> rfl

end PanelMessage

/-- A notification, as a message of the connection. -/
def Outbound.outgoing (o : Outbound) : Outgoing := .notification o.method o.params

/-- The notification that a message asks for is sent if the server is in reach. -/
theorem Context.sent_handlePanelMessage (c : Context) (env : Surroundings) (j : Json) :
    (c.handlePanelMessage env j).2.filterMap Effect.sent? =
      if env.reachable then (PanelMessage.asks? j).toList else [] := by
  have hquiet : ∀ purpose o, (sendQuietly env purpose o).filterMap Effect.sent? =
      if env.reachable then [o] else [] := by
    intro purpose o
    rw [sendQuietly]
    split <;> rfl
  rw [handlePanelMessage]
  rcases PanelMessage.ofJson?_cases j with ⟨link, hj, hasks, -⟩ | ⟨link, hj, hasks, -⟩ | ⟨hj, hasks, -⟩ |
    ⟨hj, hasks, -⟩
  · rw [hj, hasks]
    exact hquiet _ _
  · rw [hj, hasks]
    exact (ite_self _).symm
  · rw [hj, hasks]
    exact hquiet _ _
  · rw [hj, hasks]
    exact (ite_self _).symm

/-- A notification is one of the bridge's own messages. -/
theorem Rpc.Connection.own_tells {c : Connection} (h : c.InOrder) (ha : c.accepts = true) (os : List Outbound) :
    (c.run (os.map Outbound.event)).own = c.own ++ os.map Outbound.outgoing ∧
      (c.run (os.map Outbound.event)).accepts = true := by
  induction os generalizing c with
  | nil => exact ⟨(List.append_nil _).symm, ha⟩
  | cons o os ih =>
    have hstep : (c.step o.event).own = c.own ++ [o.outgoing] := by
      rw [own_step h, Outbound.event, submitted_eq h, if_pos ha]
      rfl
    have hup : (c.step o.event).accepts = true := by
      rw [Outbound.event, step, notify_of_accepted ha, submit, if_pos ha]
      exact ha
    obtain ⟨hown, haccepts⟩ := ih (inOrder_step h o.event) hup
    refine ⟨?_, haccepts⟩
    rw [List.map_cons, run_cons, hown, hstep, List.append_assoc]
    rfl

namespace Session

/-- The session when messages have been handled at once, one after another. -/
def handleAll (s : Session) (env : Surroundings) (ms : List PanelMessage) : Session :=
  ms.foldl (fun s m => (s.handlePanelMessage env m.toJson).1) s

theorem handlePanelMessage_fst (s : Session) (env : Surroundings) (j : Json) :
    (s.handlePanelMessage env j).1 =
      { s with
        connection := s.connection.run
          ((if s.connection.accepts then (PanelMessage.asks? j).toList else []).map Outbound.event)
        context := { s.context with latest := (PanelMessage.records? j).or s.context.latest } } := by
  rw [handlePanelMessage, become_eq, notices_eq, Context.sent_handlePanelMessage,
    (s.context.handlePanelMessage_eq _ j).1]
  rfl

/-- **Messages that are handled at once** are told in their order, and the last link is the latest. -/
theorem handleAll_eq {s : Session} (h : s.connection.InOrder) (ha : s.connection.accepts = true)
    (env : Surroundings) (ms : List PanelMessage) :
    (s.handleAll env ms).connection.own =
        s.connection.own ++ (ms.filterMap PanelMessage.notification?).map Outbound.outgoing ∧
      (s.handleAll env ms).context.latest =
        (ms.filterMap PanelMessage.recorded?).getLast?.or s.context.latest := by
  induction ms generalizing s with
  | nil => exact ⟨(List.append_nil _).symm, rfl⟩
  | cons m ms ih =>
    have hfirst := s.handlePanelMessage_fst env m.toJson
    rw [if_pos ha, PanelMessage.asks?_toJson, PanelMessage.records?_toJson] at hfirst
    obtain ⟨hown, hup⟩ := Connection.own_tells h ha m.notification?.toList
    obtain ⟨hrest, hlatest⟩ := ih (s := (s.handlePanelMessage env m.toJson).1)
      (by rw [hfirst]; exact Connection.inOrder_run h _) (by rw [hfirst]; exact hup)
    have hcons : s.handleAll env (m :: ms) = (s.handlePanelMessage env m.toJson).1.handleAll env ms := rfl
    rw [hcons, hrest, hlatest, hfirst, hown]
    constructor
    · rw [List.append_assoc, ← List.map_append]
      cases hm : m.notification? <;> simp [hm]
    · cases hm : m.recorded? <;> simp [hm, List.getLast?_cons]

end Session

namespace Terminal

/-! ## 2. A session in which only messages are typed -/

/-- An event while only messages to the panel are typed and the input does not end. -/
def Event.isPosting : Event → Bool
  | .line text => (messageOf? text).isSome
  | .inputEnds => false
  | .inputFails _ => false
  | _ => true

/-- A message is no number, so that it chooses nothing. -/
theorem chosenBy_of_messageOf {text : String} {m : PanelMessage} (h : messageOf? text = some m)
    (items : List ListedCommand) : chosenBy items text = none := by
  refine Option.eq_none_iff_forall_ne_some.mpr fun item hitem => ?_
  obtain ⟨k, hk, -⟩ := (chosenBy_eq_some_iff items text item).mp hitem
  obtain ⟨numeral, ⟨before, after, htext, hbefore, hafter⟩, hspells, -⟩ :=
    (Text.readUnsigned_trim_eq_some_iff _ _ _).mp hk
  have hnumber : TypedCommand.Consists text [String.ofList numeral] := by
    rw [TypedCommand.Consists, htext, List.map_singleton, String.toList_ofList]
    exact .word hbefore (Text.isBlank_of_mem_numeral hspells) (fun c hc => hafter c (List.mem_of_mem_head? hc))
      (.blank hafter)
  rcases messageOf?_cases h with ⟨hparse, -⟩ | ⟨link, hparse, -⟩
  · obtain ⟨ws, hws, hform⟩ := ((TypedCommand.parse_outcome text).2.1 _).mp hparse
    cases hform
    have hstop : numeral = "stop".toList := by
      rw [← String.toList_ofList (l := numeral), ← (List.cons.inj (TypedCommand.consists_unique hws hnumber)).1]
    obtain ⟨ds, hds, -, hdigits, -⟩ := hspells
    rcases hds with rfl | hds
    · exact absurd (hdigits 's' (hstop ▸ List.mem_cons_self)) (by decide)
    · rw [hds] at hstop
      exact absurd (List.cons.inj hstop).1 (by decide)
  · obtain ⟨ws, hws, hform⟩ := ((TypedCommand.parse_outcome text).2.1 _).mp hparse
    cases hform
    cases (List.cons.inj (TypedCommand.consists_unique hws hnumber)).2

namespace Interaction

variable {i j : Interaction} {e : Event}

/-- The notifications that messages are told as in an event. -/
def told (i : Interaction) (e : Event) : List Outbound :=
  if i.session.connection.accepts then (i.handled e).filterMap fun h => PanelMessage.asks? h.message else []

/-- The loop runs, and no command waits. -/
structure Posting (i : Interaction) : Prop where
  inLoop : i.stage.inLoop = true
  sound : i.desk.Sound
  queue : i.host.queue = []
  inOrder : i.session.connection.InOrder

theorem queue_deskAfter (hq : i.host.queue = []) (he : e.isPosting = true) : (i.deskAfter e).queue = [] := by
  have hsame : i.desk.queue = [] := hq
  cases e with
  | dispatches =>
    rw [deskAfter]
    cases i.listing? with
    | none => exact hsame
    | some items =>
      rw [Option.elim_some, Desk.offer]
      split <;> exact hsame
  | line text =>
    obtain ⟨m, hm⟩ := Option.isSome_iff_exists.mp he
    rw [deskAfter]
    split
    · rw [chosenBy_of_messageOf hm]
      exact (congrArg Desk.queue (Desk.ask_nil _)).trans hsame
    · rw [isQuit, typedAsks]
      rcases messageOf?_cases hm with ⟨hparse, -⟩ | ⟨link, hparse, -⟩
      all_goals
        rw [hparse]
        exact (congrArg Desk.queue (Desk.ask_nil _)).trans hsame
  | inputEnds | inputFails => cases he
  | command =>
    rw [deskAfter, hq]
    exact congrArg Desk.queue (Desk.ask_nil _)
  | _ => exact hsame

theorem told_of_handled_nil (h : i.handled e = []) : i.told e = [] := by
  rw [told, h]
  exact ite_self _

/-- Showing effects says nothing more. -/
theorem unsaid_become (i : Interaction) (r : Session × List Effect) :
    (i.become r).session.connection = r.1.connection ∧ (i.become r).stage = i.stage := by
  obtain ⟨host, printed, panel, picks, h⟩ := shown_become i r
  rw [h]
  exact ⟨rfl, rfl⟩

/-- A message that is handled is told, if the connection takes it. -/
theorem connection_handles (i : Interaction) (c : Context) (message : Json) :
    (i.become (i.session.become
        (c.handlePanelMessage (i.session.surroundings i.surroundings) message))).session.connection =
      i.session.connection.run
        ((if i.session.connection.accepts then (PanelMessage.asks? message).toList else []).map
          Outbound.event) := by
  rw [(unsaid_become i _).1, Session.become_eq, Session.notices_eq, Context.sent_handlePanelMessage]
  rfl

theorem told_of_handled_one {p : Option Nat} {message : Json} (h : i.handled e = [⟨p, message⟩]) :
    i.told e = if i.session.connection.accepts then (PanelMessage.asks? message).toList else [] := by
  rw [told, h]
  cases hasks : PanelMessage.asks? message <;> simp [hasks]

/-- A step, but for what happens to the stream, says what messages are told as. -/
def Says (i : Interaction) (e : Event) (j : Interaction) : Prop :=
  j.session.connection = i.session.connection.run ((i.told e).map Outbound.event) ∧
    (j.stage = i.stage ∨ i.stage.inLoop = true ∧ j.stage.inLoop = true)

theorem says_of_silent (hh : i.handled e = []) (hc : j.session.connection = i.session.connection)
    (hs : j.stage = i.stage) : Says i e j := by
  refine ⟨?_, Or.inl hs⟩
  rw [told_of_handled_nil hh]
  exact hc

theorem says_dispatches {r : Session × List Effect} (h : i.session.dispatchNext? i.surroundings = some r) :
    Says i .dispatches (i.become r) := by
  obtain ⟨hc, hs⟩ := unsaid_become i r
  refine says_of_silent rfl (hc.trans ?_) hs
  obtain ⟨-, ⟨n, -, rfl⟩ | ⟨-, rfl⟩⟩ := Session.dispatchNext?_cases h
  · rw [Session.become_dispatch]
  · rfl

theorem says_relays {n : Nat} {r : Session × List Effect}
    (h : i.session.relayTurn? i.surroundings n = some r) : Says i (.relays n) (i.become r) := by
  rw [Session.relayTurn?, Option.map_eq_some_iff] at h
  obtain ⟨r, hr, rfl⟩ := h
  have hs := (unsaid_become i (i.session.become r)).2
  rw [Context.relayTurn?] at hr
  split at hr
  · cases hr
  · rename_i panel htake
    cases hr
    refine says_of_silent ?_ (unsaid_become i _).1 hs
    rw [handled, htake]
    rfl
  · rename_i panel message htake
    cases hr
    have hh : i.handled (.relays n) = [⟨some n, message⟩] := by
      rw [handled, htake]
      rfl
    refine ⟨?_, Or.inl hs⟩
    rw [told_of_handled_one hh]
    exact connection_handles i _ message

/-- A line that is a message. -/
theorem says_takeLine {text : String} {m : PanelMessage} (h : messageOf? text = some m) :
    Says i (.line text) (i.takeLine text) := by
  cases hp : i.host.pending with
  | some p =>
    have hh : i.handled (.line text) = [] := by
      rw [handled, typed, hp]
      exact ite_self _
    obtain ⟨pending, nextPick, queue, printed, picks, hnoted⟩ := noted_takeLine hp text
    rw [hnoted]
    exact says_of_silent hh rfl rfl
  | none =>
    have ht : i.typed (.line text) = [m] := by
      rw [typed, hp, h]
      rfl
    rw [takeLine_of_none hp, parseLine_of_messageOf h, postFromPanel, ← route?]
    cases hroute : i.route? with
    | some n =>
      have hh : i.handled (.line text) = [] := by
        rw [handled, hroute]
        rfl
      exact says_of_silent hh rfl rfl
    | none =>
      have hh : i.handled (.line text) = [⟨none, m.toJson⟩] := by
        rw [handled, hroute, ht]
        rfl
      refine ⟨?_, Or.inl (unsaid_become i _).2⟩
      rw [told_of_handled_one hh]
      exact connection_handles i _ m.toJson

/-- **What a step says** while only messages are typed. -/
theorem posting_step (hi : i.Posting) (he : e.isPosting = true) (h : i.step? e = some j) :
    j.Posting ∧ (j.session.connection.accepts = true → i.session.connection.accepts = true) ∧
      j.session.connection.own = i.session.connection.own ++ (i.told e).map Outbound.outgoing := by
  have hdesk : j.desk = i.deskAfter e := desk_step hi.sound h
  have hrun : ∀ cs, j.session.connection = i.session.connection.run cs →
      j.stage = i.stage ∨ i.stage.inLoop = true ∧ j.stage.inLoop = true →
      j.Posting ∧ (j.session.connection.accepts = true → i.session.connection.accepts = true) := by
    intro cs hc hs
    refine ⟨⟨?_, hdesk ▸ sound_deskAfter hi.sound e, ?_, hc ▸ Connection.inOrder_run hi.inOrder cs⟩,
      fun hup => ?_⟩
    · rcases hs with hs | ⟨-, hs⟩
      · exact hs ▸ hi.inLoop
      · exact hs
    · exact (congrArg Desk.queue hdesk).trans (queue_deskAfter hi.queue he)
    · rw [hc, Connection.accepts_iff] at hup
      exact (Connection.accepts_iff _).mpr (Connection.running_of_run hup)
  have hsays : Says i e j →
      j.Posting ∧ (j.session.connection.accepts = true → i.session.connection.accepts = true) ∧
        j.session.connection.own = i.session.connection.own ++ (i.told e).map Outbound.outgoing := by
    rintro ⟨hc, hs⟩
    obtain ⟨hposting, hup⟩ := hrun _ hc hs
    refine ⟨hposting, hup, ?_⟩
    rw [hc]
    by_cases ha : i.session.connection.accepts = true
    · exact (Connection.own_tells hi.inOrder ha _).1
    · rw [told, if_neg ha]
      exact (List.append_nil _).symm
  obtain ⟨-, hnext⟩ := next_of_step? h
  have hstays : ∀ {s : Stage}, i.stage = s → s.inLoop = true := fun hs => hs ▸ hi.inLoop
  cases hnext with
  | stream t hevent =>
    -- The reader can answer the server, which is no message of the bridge's own.
    obtain ⟨hposting, hup⟩ := hrun [t.event] rfl (Or.inl rfl)
    have hnone : i.told e = [] := by
      refine told_of_handled_nil ?_
      cases t <;> cases hevent <;> rfl
    refine ⟨hposting, hup, ?_⟩
    rw [hnone]
    show (i.session.connection.step t.event).own = _
    rw [Connection.own_step hi.inOrder, Connection.own_submitted_traffic]
    rfl
  | dispatches hr => exact hsays (says_dispatches hr)
  | relays hr => exact hsays (says_relays hr)
  | @line text =>
    obtain ⟨m, hm⟩ := Option.isSome_iff_exists.mp he
    exact hsays (says_takeLine hm)
  | inputEnds | inputFails => cases he
  | command _ hq => cases hi.queue.symm.trans hq
  | goesOn hl =>
    refine hsays ⟨?_, Or.inr ⟨hl, rfl⟩⟩
    rw [told_of_handled_nil rfl]
    rfl
  | agreed hl | patienceEnds hl => cases hstays hl
  | process => exact hsays (says_of_silent rfl rfl rfl)
  | finishes hl => cases hstays hl

/-- **What the bridge says** while only messages are typed. If the connection takes messages at the end, every
    message that has been handled has been told. -/
theorem own_run (hi : i.Posting) {es : List Event} (hes : ∀ e ∈ es, e.isPosting = true)
    (h : i.run? es = some j) :
    j.session.connection.own = i.session.connection.own ++ (i.trace told es).map Outbound.outgoing ∧
      (j.session.connection.accepts = true → i.session.connection.accepts = true ∧
        i.trace told es = (i.trace handled es).filterMap fun h => PanelMessage.asks? h.message) := by
  induction es generalizing i with
  | nil =>
    cases h
    exact ⟨(List.append_nil _).symm, fun hup => ⟨hup, rfl⟩⟩
  | cons e es ih =>
    obtain ⟨k, hk, hrun⟩ := Option.bind_eq_some_iff.mp h
    obtain ⟨hposting, hup, hown⟩ := posting_step hi (hes e List.mem_cons_self) hk
    obtain ⟨hlater, hall⟩ := ih hposting (fun x hx => hes x (List.mem_cons_of_mem e hx)) hrun
    rw [trace_cons told hk, trace_cons handled hk]
    constructor
    · rw [hlater, hown, List.map_append, List.append_assoc]
    · intro hj
      obtain ⟨hk, hrest⟩ := hall hj
      refine ⟨hup hk, ?_⟩
      rw [hrest, told, if_pos (hup hk), List.filterMap_append]

/-! ## 3. Every run -/

/-- What is typed stops the execution or opens a model. -/
theorem notification_of_typed (i : Interaction) (e : Event) :
    (i.typed e).map PanelMessage.notification? =
      ((i.typed e).filterMap PanelMessage.notification?).map some := by
  cases e with
  | line text =>
    rw [typed]
    split
    · rfl
    · cases hm : messageOf? text with
      | none => rfl
      | some m =>
        rcases messageOf?_cases hm with ⟨-, rfl⟩ | ⟨link, -, rfl⟩
        · rfl
        · rfl
  | _ => rfl

/-- Every message that is typed asks for one notification. -/
theorem notifications_of_typed {es : List Event} (h : i.run? es = some j) :
    (i.trace typed es).map PanelMessage.notification? =
      ((i.trace typed es).filterMap PanelMessage.notification?).map some := by
  induction es generalizing i with
  | nil => rfl
  | cons e es ih =>
    obtain ⟨k, hk, hrun⟩ := Option.bind_eq_some_iff.mp h
    rw [trace_cons typed hk, List.map_append, List.filterMap_append, List.map_append, notification_of_typed,
      ih hrun]

/-- At the start there is no panel, no link, and nothing waits. -/
theorem start_posting {config : Config} {w : World} {s : Session} (hs : (activate config w).outcome = .ok s)
    (model : Option (TextDocument × String)) (failure : Option LaunchError) :
    (start s model failure).viewer.Bare ∧ (start s model failure).viewer.latest = none ∧
      (start s model failure).Posting := by
  have hdesk := desk_start hs model failure
  obtain ⟨stage, printed, hstage, hstart⟩ := exists_start s model failure
  have hopened := inOrder_opened (Activation.inOrder_of_ok hs) model
  obtain ⟨-, html, reply, hsession, -⟩ := Activation.session_of_ok hs
  have hcontext : (start s model failure).session.context = s.context := by
    rw [hstart]
    exact context_opened s model
  have hpanel : (start s model failure).session.context.panel = .empty config.panel.title html := by
    rw [hcontext, hsession]
    rfl
  refine ⟨⟨congrArg _ hpanel, congrArg _ hpanel, ?_⟩, ?_, ?_, ?_, congrArg Desk.queue hdesk, ?_⟩
  · rw [hstart]
    rfl
  · show (start s model failure).session.context.latest = none
    rw [hcontext, hsession]
    rfl
  · rw [hstart]
    exact hstage
  · rw [hdesk]
    exact ⟨rfl, fun p hp => by cases hp⟩
  · rw [hstart]
    exact hopened

/-- **The two routes of `stop` and `open` agree.** Take any run of an activated session at the terminal, whenever
    output brings the panel up in it and whenever the relay takes its turns.

    The messages that were typed before some place have been handled at once, and those behind it go through the
    channel of the panel, where they come out in their order: each has been handled on one route, once, or waits.
    The latest link is the last one among those handled. What waits is handled in as many turns of the relay,
    which it can take at any time before the session is over.

    When nothing waits, the messages handled are those typed, in that order, and the latest link is the one of the
    last model. If nothing but messages was typed, the bridge has told the server what they ask for whenever the
    connection took it, and nothing else; and if nothing waits and the connection still takes messages, it has
    told one notification for each message that was typed, in that order: this, and the latest link, is what
    comes of handling all of them at once, with no panel at all. Reading the frame of a message yields its body,
    if that is not longer than what is read at all. -/
theorem two_routes {config : Config} {w : World} {s : Session} (hs : (activate config w).outcome = .ok s)
    {model : Option (TextDocument × String)} {failure : Option LaunchError} {es : List Event}
    {i : Interaction} (hi : (start s model failure).run? es = some i) :
    let i₀ := start s model failure
    let typed := i₀.trace typed es
    let handled := i₀.trace handled es
    let own := i₀.session.connection.own
    (∃ before after relayed, typed = before ++ after ∧
      handled = before.map (fun m => ⟨none, m.toJson⟩) ++ relayed.map (⟨some 0, ·⟩) ∧
      after.map PanelMessage.toJson = relayed ++ i.viewer.waiting) ∧
    i.session.context.latest = (handled.filterMap fun h => PanelMessage.records? h.message).getLast? ∧
    (i.stage ≠ .over → ∃ j, i.run? (List.replicate i.viewer.waiting.length (.relays 0)) = some j ∧
      j.viewer.waiting = []) ∧
    (i.viewer.waiting = [] → handled.map (·.message) = typed.map PanelMessage.toJson ∧
      i.session.context.latest = (typed.filterMap PanelMessage.recorded?).getLast?) ∧
    ((∀ e ∈ es, e.isPosting = true) →
      i.session.connection.own = own ++ (i₀.trace told es).map Outbound.outgoing ∧
      (i.viewer.waiting = [] → i.session.connection.accepts = true →
        (∃ os : List Outbound, typed.map PanelMessage.notification? = os.map some ∧
          i.session.connection.own = own ++ os.map Outbound.outgoing) ∧
        ∀ env, (i₀.session.handleAll env typed).connection.own = i.session.connection.own ∧
          (i₀.session.handleAll env typed).context.latest = i.session.context.latest)) ∧
    ∀ message ∈ i.session.connection.own, message.body.length ≤ Frame.maxBodyBytes →
      ∀ ended rest, Frame.read ended (message.frame ++ rest) = .frame message.body rest := by
  intro i₀ typed handled own
  obtain ⟨hbare, hlatest₀, hposting⟩ := start_posting hs model failure
  have hrouted := routed_of_run (Or.inl hbare) hi
  obtain ⟨before, after, relayed, htyped, hhandled, haccount, -⟩ := hrouted.routes
  rw [hbare.waiting_eq, List.nil_append] at haccount
  have hlatest : i.session.context.latest =
      (handled.filterMap fun h => PanelMessage.records? h.message).getLast? := by
    have h := hrouted.latest
    rw [hlatest₀, Option.or_none] at h
    exact h
  have hall : i.viewer.waiting = [] → handled.map (·.message) = typed.map PanelMessage.toJson := by
    intro hnone
    rw [hnone, List.append_nil] at haccount
    show (i₀.trace Interaction.handled es).map _ = (i₀.trace Interaction.typed es).map _
    rw [hhandled, htyped, List.map_append, List.map_append, haccount, List.map_map, List.map_map]
    exact congrArg _ (List.map_id relayed)
  -- what is read off the messages handled can then be read off those typed
  have hread : ∀ {α : Type} (f : Json → Option α), i.viewer.waiting = [] →
      (handled.filterMap fun h => f h.message) = typed.filterMap fun m => f m.toJson := by
    intro α f hnone
    have hsame := congrArg (List.filterMap f) (hall hnone)
    rw [List.filterMap_map, List.filterMap_map] at hsame
    exact hsame
  have hlast : i.viewer.waiting = [] →
      i.session.context.latest = (typed.filterMap PanelMessage.recorded?).getLast? := by
    intro hnone
    rw [hlatest, hread _ hnone]
    simp only [PanelMessage.records?_toJson]
  refine ⟨⟨before, after, relayed, htyped, hhandled, haccount⟩, hlatest, fun hover => ?_,
    fun hnone => ⟨hall hnone, hlast hnone⟩, fun hes => ?_,
    fun message _ hfits ended rest => Frame.read_encode ended hfits [] rest⟩
  · rcases hrouted.sound hover with hno | ⟨js, hsingle⟩
    · rw [hno.waiting_eq]
      exact ⟨i, rfl, hno.waiting_eq⟩
    · rw [hsingle.waiting_eq]
      exact exists_relayed hsingle hover
  · obtain ⟨hown, hup⟩ := own_run hposting hes hi
    refine ⟨hown, fun hnone ha => ?_⟩
    obtain ⟨ha₀, htold⟩ := hup ha
    have hasked : i₀.trace told es = typed.filterMap PanelMessage.notification? := by
      rw [htold]
      refine (hread _ hnone).trans ?_
      simp only [PanelMessage.asks?_toJson]
    rw [hasked] at hown
    refine ⟨⟨_, notifications_of_typed hi, hown⟩, fun env => ?_⟩
    obtain ⟨hdirect, hlink⟩ := Session.handleAll_eq hposting.inOrder ha₀ env typed
    have hnolink : i₀.session.context.latest = none := hlatest₀
    rw [hdirect, hlink, hown, hlast hnone, hnolink, Option.or_none]
    exact ⟨rfl, rfl⟩

/-- The panel comes up between the second message and the third, which is relayed. -/
theorem two_routes_switched :
    let config : Config :=
      ⟨⟨"java", "alloy.jar", ⟨30000⟩, ⟨3000⟩⟩, ⟨"alloy", .codeLens⟩, ⟨"Alloy", none⟩⟩
    let agrees := Json.arr [.int 1, .null, .null, .obj [("capabilities", .obj [])]]
    let w : World := ⟨fun _ => .error "", 50000, none, none, .connected, 7,
      [.sends (Frame.encode agrees.printBytes)]⟩
    let output := Json.arr [.null, .str "alloy/showExecutionOutput", (ExecutionOutput.mk "found" 0 true).toJson]
    let es : List Event := [.line "open a", .line "stop", .sends (Frame.encode output.printBytes), .reads,
      .dispatches, .line " open b", .relays 0]
    ∃ s i, (activate config w).outcome = .ok s ∧ (start s none none).run? es = some i ∧
      ((start s none none).trace handled es).map Handled.panel = [none, none, some 0] ∧
      i.session.connection.own = (start s none none).session.connection.own ++
        [.notification "OpenModel" (some (.str "a")), .notification "StopExecution" none,
          .notification "OpenModel" (some (.str "b"))] ∧
      i.session.context.latest = some "b" := by
  intro config agrees w output es
  have hrun : (activate config w).outcome.toOption.bind (fun s => ((start s none none).run? es).map fun i =>
      (i.viewer.waiting.isEmpty, i.session.connection.accepts, (start s none none).trace typed es,
        ((start s none none).trace handled es).map Handled.panel)) =
      some (true, true, [.model "a", .stop, .model "b"], [none, none, some 0]) := by
    decide +kernel
  cases hs : (activate config w).outcome with
  | error e =>
    rw [hs] at hrun
    cases hrun
  | ok s =>
    rw [hs] at hrun
    change ((start s none none).run? es).map _ = _ at hrun
    obtain ⟨i, hi, hrun⟩ := Option.map_eq_some_iff.mp hrun
    rw [Prod.mk.injEq, Prod.mk.injEq, Prod.mk.injEq] at hrun
    obtain ⟨hwaiting, haccepts, htyped, hpanels⟩ := hrun
    have hnone : i.viewer.waiting = [] := List.isEmpty_iff.mp hwaiting
    obtain ⟨-, -, -, hlast, hown, -⟩ := two_routes hs hi
    obtain ⟨-, hlatest⟩ := hlast hnone
    obtain ⟨-, hsaid⟩ := hown (by decide +kernel)
    obtain ⟨⟨os, hos, hsaid⟩, -⟩ := hsaid hnone haccepts
    rw [htyped] at hlatest hos
    refine ⟨s, i, rfl, hi, hpanels, ?_, hlatest⟩
    change List.map some [Outbound.openModel "a", .stopExecution, .openModel "b"] = os.map some at hos
    rw [hsaid, ← List.map_injective_iff.mpr (fun _ _ => Option.some.inj) hos]
    rfl

end Interaction

end Terminal

end EditorBridge
