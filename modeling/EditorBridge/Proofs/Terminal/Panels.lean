import EditorBridge.Proofs.Panel.Messages
import EditorBridge.Proofs.Terminal.Picks

/-!
# The panel at the terminal

The terminal closes no panel, so that there is none at all (`Viewer.Bare`) or a single one, whose relay runs
to the end of the session (`Viewer.Single`); `Viewer.Sound` says so. A message that is typed takes one of two
routes: it goes into the channel of the panel, or is handled at once where there is none.

* `viewer_obey`, `viewer_dispatches` -- what has nothing to do with messages, and what brings the panel up;
* `viewer_handles`, `exists_relayTurn` -- a message that is handled;
* **`advance_of_step?`** -- what a step does to the messages that are typed and those that wait;
* **`routed_of_run`** -- over a run, the messages before some place are handled at once, and those behind it
  go through the channel.
-/

namespace EditorBridge

/-- The message to the panel that a typed command is. -/
def TypedCommand.message? : TypedCommand → Option PanelMessage
  | .stop => some .stop
  | .openModel link => some (.model link)
  | _ => none

theorem Context.bringsNoPanelUp (c : Context) (env : Surroundings) (message : Json) :
    ∀ e ∈ (c.handlePanelMessage env message).2, e.bringsPanelUp = false := by
  have hquiet : ∀ purpose o, ∀ e ∈ sendQuietly env purpose o, e.bringsPanelUp = false := by
    intro purpose o
    rw [sendQuietly]
    split <;> simp [Effect.bringsPanelUp, Effect.warn]
  rw [handlePanelMessage]
  split
  · exact hquiet _ _
  · exact fun e he => absurd he List.not_mem_nil
  · exact hquiet _ _
  · exact fun e he => absurd he List.not_mem_nil

namespace Terminal

/-- The message to the panel that a line is, if it parses as one. -/
def messageOf? (line : String) : Option PanelMessage :=
  match TypedCommand.parse line with
  | .ok (some c) => c.message?
  | _ => none

theorem messageOf?_cases {text : String} {m : PanelMessage} (h : messageOf? text = some m) :
    TypedCommand.parse text = .ok (some .stop) ∧ m = .stop ∨
      ∃ link, TypedCommand.parse text = .ok (some (.openModel link)) ∧ m = .model link := by
  rw [messageOf?] at h
  split at h
  · rename_i c hparse
    cases c with
    | stop =>
      cases h
      exact Or.inl ⟨hparse, rfl⟩
    | openModel link =>
      cases h
      exact Or.inr ⟨link, hparse, rfl⟩
    | _ => cases h
  · cases h

/-! ## 1. What shows instances -/

/-- What shows instances: the screens of the terminal, the panels of the session, and the latest link. -/
structure Viewer where
  screens : List Screen
  panel : Panel.Bridge
  latest : Option String

namespace Viewer

variable {v : Viewer}

/-- The messages that wait in the channels of the panels. -/
def waiting (v : Viewer) : List Json := v.panel.views.flatMap fun p => Panel.messages p.channel

/-- No panel has come up. -/
structure Bare (v : Viewer) : Prop where
  views : v.panel.views = []
  current : v.panel.current = none
  screens : v.screens = []

/-- One panel has come up, and these messages wait in its channel. -/
structure Single (v : Viewer) (js : List Json) : Prop where
  views : v.panel.views = [⟨true, js.map .message, false, .running⟩]
  current : v.panel.current = some 0
  screens : ∃ s, v.screens = [s] ∧ s.hasListener = true

/-- There is one panel at most. -/
def Sound (v : Viewer) : Prop := v.Bare ∨ ∃ js, v.Single js

theorem Bare.waiting_eq (h : v.Bare) : v.waiting = [] := by
  rw [waiting, h.views]
  rfl

theorem Single.waiting_eq {js : List Json} (h : v.Single js) : v.waiting = js := by
  rw [waiting, h.views, List.flatMap_singleton, Panel.messages_map]

/-- Output needs a first panel, -/
theorem Bare.ensure_eq (h : v.Bare) :
    v.panel.ensure = ({ v.panel with current := some 0, views := [⟨true, [], false, .running⟩] }, 0,
      [.createPanel 0 v.panel.title v.panel.html, .reveal 0]) := by
  rw [Panel.Bridge.ensure, h.current, h.views]
  rfl

/-- and no other one. -/
theorem Single.ensure_eq {js : List Json} (h : v.Single js) : v.panel.ensure = (v.panel, 0, []) := by
  rw [Panel.Bridge.ensure, h.current, h.views]
  rfl

/-- The relay takes the message that has waited longest. -/
theorem Single.take?_cons {m : Json} {ms : List Json} (h : v.Single (m :: ms)) :
    v.panel.take? 0 =
      some ({ v.panel with views := [⟨true, ms.map .message, false, .running⟩] }, some m) := by
  rw [Panel.Bridge.take?, h.views]
  show some (v.panel.update 0 _, some m) = _
  rw [Panel.Bridge.update, h.views]
  rfl

theorem Single.take?_cases {js : List Json} (h : v.Single js) (n : Nat) :
    v.panel.take? n = none ∨ n = 0 ∧ ∃ m ms, js = m :: ms := by
  cases n with
  | zero =>
    cases js with
    | nil =>
      rw [Panel.Bridge.take?, h.views]
      exact Or.inl rfl
    | cons m ms => exact Or.inr ⟨rfl, m, ms, rfl⟩
  | succ n =>
    rw [Panel.Bridge.take?, h.views]
    exact Or.inl rfl

/-- At the end the relay is stopped, and what waits is left. -/
theorem waiting_shutdown (h : v.Sound) :
    { v with panel := v.panel.shutdown }.waiting = v.waiting := by
  rcases h with hbare | ⟨js, hsingle⟩
  · rw [waiting, Panel.Bridge.shutdown, hbare.current]
    rfl
  · rw [waiting, Panel.Bridge.shutdown, hsingle.current]
    show (v.panel.update 0 _).views.flatMap _ = _
    rw [Panel.Bridge.update, waiting, hsingle.views]
    rfl

theorem Bare.take? (h : v.Bare) (n : Nat) : v.panel.take? n = none := by
  rw [Panel.Bridge.take?, h.views]
  rfl

end Viewer

namespace Interaction

variable {i j : Interaction} {e : Event}

/-- What shows instances. -/
def viewer (i : Interaction) : Viewer := ⟨i.host.screens, i.session.context.panel, i.session.context.latest⟩

/-- The panel that takes a message of the user, if one does. -/
def route? (i : Interaction) : Option Nat := i.host.messageTarget?.filter i.session.context.panel.accepts

theorem route_of_bare (h : i.viewer.Bare) : i.route? = none := by
  have hscreens : i.host.screens = [] := h.screens
  rw [route?, Host.messageTarget?, hscreens]
  rfl

theorem route_of_single {js : List Json} (h : i.viewer.Single js) : i.route? = some 0 := by
  obtain ⟨s, hscreens, hlistens⟩ := h.screens
  change i.host.screens = [s] at hscreens
  have hviews : i.session.context.panel.views = [⟨true, js.map .message, false, .running⟩] := h.views
  have haccepts : i.session.context.panel.accepts 0 = true := by
    rw [Panel.Bridge.accepts, hviews]
    rfl
  rw [route?, Host.messageTarget?, hscreens]
  show (if s.hasListener then some 0 else none).filter _ = some 0
  rw [if_pos hlistens, Option.filter_some, if_pos haccepts]

/-! ## 2. What has nothing to do with messages -/

theorem Noted.viewer (h : Noted i j) : j.viewer = i.viewer := by
  obtain ⟨pending, nextPick, queue, printed, picks, rfl⟩ := h
  rfl

theorem viewer_execute (i : Interaction) (name : String) (arguments : List Json) :
    (i.execute name arguments).viewer = i.viewer := by
  obtain ⟨os, h⟩ := exists_noted_execute i name arguments
  exact h.viewer

theorem viewer_leave (i : Interaction) : i.leave.viewer = i.viewer := by
  rw [viewer, context_leave]
  rfl

theorem viewer_obey {c : TypedCommand} (hc : c.message? = none) (i : Interaction) :
    (i.obey c).viewer = i.viewer := by
  cases c with
  | all | list | under | latest | editor => exact viewer_execute i _ []
  | stop | openModel link => cases hc
  | run n =>
    rw [obey, withDocument]
    split
    · exact viewer_execute i _ _
    · rfl
  | lenses =>
    rw [obey, withDocument]
    split <;> rfl
  | links =>
    rw [obey, withDocument]
    split
    · split
      · rename_i hask
        rw [Session.askLinks?] at hask
        split at hask
        · cases hask
          rfl
        · cases hask
      · rfl
    · rfl
  | cursor p =>
    rw [obey]
    split
    · rename_i host hmove
      rw [Host.moveCursor?, Option.map_eq_some_iff] at hmove
      obtain ⟨a, -, rfl⟩ := hmove
      rfl
    · rfl
  | mode | help | quit => rfl

theorem viewer_parseLine {text : String} (hm : messageOf? text = none) (i : Interaction) :
    (i.parseLine text).viewer = i.viewer := by
  rw [parseLine]
  rw [messageOf?] at hm
  cases hparse : TypedCommand.parse text with
  | error e => rfl
  | ok c =>
    cases c with
    | none => rfl
    | some c =>
      rw [hparse] at hm
      cases c with
      | quit => exact viewer_leave i
      | _ => exact viewer_obey hm i

/-! ## 3. What brings the panel up -/

/-- A first panel is created and revealed. -/
theorem viewer_firstPanel (hs : i.host.screens = []) (title html : String) :
    ((i.present (.createPanel 0 title html)).present (.reveal 0)).viewer =
      { i.viewer with screens := [⟨title, true, true⟩] } := by
  obtain ⟨session, ⟨active, pending, nextPick, queue, takesCommands, screens⟩, _, _, _, _, _⟩ := i
  cases hs
  rfl

theorem viewer_shows {r : Session × List Effect} (hr : ∀ f ∈ r.2, f.bringsPanelUp = false) (i : Interaction) :
    (i.become r).viewer = { i with session := r.1 }.viewer :=
  (noted_become hr i).viewer

/-- Output brings up the panel, or is posted to the one that is there. -/
theorem viewer_output (h : i.viewer.Sound) {s : Session}
    (hs : s.context = { i.session.context with panel := i.viewer.panel.ensure.1 })
    {fs : List Effect} (hfs : ∀ f ∈ fs, f.bringsPanelUp = false) :
    let k := i.become (s, i.viewer.panel.ensure.2.2 ++ fs)
    k.viewer = i.viewer ∨ i.viewer.Bare ∧ k.viewer.Single [] ∧ k.viewer.latest = i.viewer.latest := by
  intro k
  rcases h with hbare | ⟨js, hsingle⟩
  · have hk : k.viewer = ⟨[⟨i.viewer.panel.title, true, true⟩], s.context.panel, s.context.latest⟩ := by
      let m := ({ i with session := s }.present
        (.createPanel 0 i.viewer.panel.title i.viewer.panel.html)).present (.reveal 0)
      have hm : k = m.become (m.session, fs) := by
        show i.become (s, _) = _
        rw [hbare.ensure_eq]
        rfl
      rw [hm, viewer_shows hfs]
      exact viewer_firstPanel (i := { i with session := s }) hbare.screens _ _
    rw [hs, hbare.ensure_eq] at hk
    rw [hk]
    exact Or.inr ⟨hbare, ⟨rfl, rfl, _, rfl, rfl⟩, rfl⟩
  · have hk : k.viewer = ⟨i.host.screens, s.context.panel, s.context.latest⟩ := by
      show (i.become (s, _)).viewer = _
      rw [hsingle.ensure_eq]
      exact viewer_shows hfs i
    rw [hs, hsingle.ensure_eq] at hk
    exact Or.inl hk

/-- **A turn of the dispatcher** brings up the panel or leaves it as it is. -/
theorem viewer_dispatches (h : i.viewer.Sound) {r : Session × List Effect}
    (hr : i.session.dispatchNext? i.surroundings = some r) :
    (i.become r).viewer = i.viewer ∨
      i.viewer.Bare ∧ (i.become r).viewer.Single [] ∧ (i.become r).viewer.latest = i.viewer.latest := by
  obtain ⟨-, ⟨n, -, rfl⟩ | ⟨-, rfl⟩⟩ := Session.dispatchNext?_cases hr
  · rw [Session.become_dispatch]
    by_cases ho : n.method = "alloy/showExecutionOutput"
    · rw [Context.dispatch_of_output ho, Context.showOutput_eq]
      refine viewer_output h rfl fun f hf => ?_
      rw [Context.postOutput, List.mem_cons] at hf
      rcases hf with rfl | hf
      · rfl
      · split at hf
        · cases hf
        · cases List.mem_singleton.mp hf
          rfl
    · obtain ⟨hpanel, heffects, -⟩ :=
        @Context.dispatch_of_not_output i.session.context (i.session.surroundings i.surroundings) n ho
      have hlatest := i.session.context.latest_dispatch (i.session.surroundings i.surroundings) n
      refine Or.inl ((viewer_shows (fun f hf => ?_) i).trans ?_)
      · rcases heffects f hf with ⟨line, rfl⟩ | hreport
        · rfl
        · cases f with
          | createPanel | reveal => exact absurd rfl hreport
          | _ => rfl
      · exact congrArg₂ (Viewer.mk i.host.screens) hpanel hlatest
  · exact Or.inl rfl

/-! ## 4. Messages -/

/-- A message that is typed is posted. -/
theorem parseLine_of_messageOf {text : String} {m : PanelMessage} (hm : messageOf? text = some m)
    (i : Interaction) : i.parseLine text = i.postFromPanel m.toJson := by
  rw [parseLine]
  rcases messageOf?_cases hm with ⟨hparse, rfl⟩ | ⟨link, hparse, rfl⟩
  · rw [hparse]
    rfl
  · rw [hparse]
    rfl

/-- A message that is handled records its link, and touches no panel. -/
theorem viewer_handles (i : Interaction) (c : Context) (env : Surroundings) (message : Json) :
    (i.become (i.session.become (c.handlePanelMessage env message))).viewer =
      ⟨i.host.screens, c.panel, (PanelMessage.records? message).or c.latest⟩ := by
  rw [Session.become_eq, viewer_shows (c.bringsNoPanelUp env message)]
  show Viewer.mk _ (c.handlePanelMessage env message).1.panel (c.handlePanelMessage env message).1.latest = _
  rw [(c.handlePanelMessage_eq env message).1]

/-- The messages that are typed in an event: a line that answers no quick pick can be one. -/
def typed (i : Interaction) : Event → List PanelMessage
  | .line text => if i.host.pending.isSome then [] else (messageOf? text).toList
  | _ => []

/-- The messages that are handled in an event: one that is typed where no panel takes it, and one that a relay
    takes. -/
def handled (i : Interaction) : Event → List Handled
  | .line text => if i.route?.isSome then [] else (i.typed (.line text)).map fun m => ⟨none, m.toJson⟩
  | .relays n => ((i.session.context.panel.take? n).bind Prod.snd).toList.map (⟨some n, ·⟩)
  | _ => []

/-- What a step does to the messages. -/
inductive Routes (i : Interaction) (e : Event) (j : Interaction) : Prop
  /-- What is typed is handled at once. -/
  | atOnce (h : i.viewer.Bare) (h' : j.viewer.Bare ∨ j.viewer.Single [])
      (hh : i.handled e = (i.typed e).map fun m => ⟨none, m.toJson⟩)
  /-- What is typed goes into the channel, and what is handled comes out of it. -/
  | through {js ks taken : List Json} (h : i.viewer.Single js) (h' : j.viewer.Single ks)
      (hh : i.handled e = taken.map (⟨some 0, ·⟩))
      (haccount : js ++ (i.typed e).map PanelMessage.toJson = taken ++ ks)
  /-- The session is over, and what waits is left. -/
  | ended (hover : j.stage = .over) (hw : j.viewer.waiting = i.viewer.waiting) (ht : i.typed e = [])
      (hh : i.handled e = [])

/-- What a step does to the messages, and to the latest link. -/
structure Advance (i : Interaction) (e : Event) (j : Interaction) : Prop where
  routes : i.Routes e j
  latest : j.viewer.latest =
    ((i.handled e).filterMap fun h => PanelMessage.records? h.message).getLast?.or i.viewer.latest

/-- A step without a message. -/
theorem advance_idle (h : i.viewer.Sound) (ht : i.typed e = []) (hh : i.handled e = [])
    (hv : j.viewer = i.viewer ∨
      i.viewer.Bare ∧ j.viewer.Single [] ∧ j.viewer.latest = i.viewer.latest) : Advance i e j := by
  have hlatest : j.viewer.latest = i.viewer.latest := by
    rcases hv with hv | ⟨-, -, hv⟩
    · rw [hv]
    · exact hv
  refine ⟨?_, by rw [hh]; exact hlatest⟩
  rcases hv with hv | ⟨hbare, hsingle, -⟩
  · rcases h with hbare | ⟨js, hsingle⟩
    · exact .atOnce hbare (Or.inl (hv ▸ hbare)) (by rw [hh, ht]; rfl)
    · have hnone : i.handled e = ([] : List Json).map (⟨some 0, ·⟩) := hh
      exact .through hsingle (hv ▸ hsingle) hnone (by rw [ht]; exact List.append_nil js)
  · exact .atOnce hbare (Or.inr hsingle) (by rw [hh, ht]; rfl)

/-- **A turn of the relay** handles the message that has waited longest. -/
theorem exists_relayTurn {m : Json} {ms : List Json} (h : i.viewer.Single (m :: ms)) :
    ∃ r, i.session.relayTurn? i.surroundings 0 = some r ∧ (i.become r).viewer.Single ms ∧
      (i.become r).viewer.latest = (PanelMessage.records? m).or i.viewer.latest := by
  have htake : i.session.context.panel.take? 0 = some (_, some m) := h.take?_cons
  refine ⟨_, by rw [Session.relayTurn?, Context.relayTurn?, htake]; rfl, ?_, ?_⟩
  · rw [viewer_handles]
    exact ⟨rfl, h.current, h.screens⟩
  · rw [viewer_handles]
    rfl

theorem advance_relays (h : i.viewer.Sound) {n : Nat} {r : Session × List Effect}
    (hr : i.session.relayTurn? i.surroundings n = some r) : Advance i (.relays n) (i.become r) := by
  have htaken : ¬ i.viewer.panel.take? n = none := by
    intro hnone
    change i.session.context.panel.take? n = none at hnone
    rw [Session.relayTurn?, Context.relayTurn?, hnone] at hr
    cases hr
  rcases h with hbare | ⟨js, hsingle⟩
  · exact absurd (hbare.take? n) htaken
  · obtain ⟨rfl, m, ms, rfl⟩ := (hsingle.take?_cases n).resolve_left htaken
    obtain ⟨r', hr', hrest, hlatest⟩ := exists_relayTurn hsingle
    cases hr.symm.trans hr'
    have htake : i.session.context.panel.take? 0 = some (_, some m) := hsingle.take?_cons
    have hhandled : i.handled (.relays 0) = [m].map (⟨some 0, ·⟩) := by
      rw [handled, htake]
      rfl
    refine ⟨.through hsingle hrest hhandled (List.append_nil _), ?_⟩
    rw [hlatest, hhandled]
    cases hrecords : PanelMessage.records? m <;> simp [hrecords]

/-- A message that is typed. -/
theorem advance_postFromPanel (h : i.viewer.Sound) {m : PanelMessage}
    (ht : i.typed e = [m]) (hh : i.handled e = if i.route?.isSome then [] else [⟨none, m.toJson⟩]) :
    Advance i e (i.postFromPanel m.toJson) := by
  rcases h with hbare | ⟨js, hsingle⟩
  · have hroute : i.route? = none := route_of_bare hbare
    have hpost : i.postFromPanel m.toJson =
        i.become (i.session.handlePanelMessage i.surroundings m.toJson) := by
      rw [postFromPanel, ← route?, hroute]
    rw [hroute] at hh
    have hv := viewer_handles i i.session.context (i.session.surroundings i.surroundings) m.toJson
    rw [← Session.handlePanelMessage, ← hpost] at hv
    constructor
    · refine .atOnce hbare (Or.inl ?_) (by rw [hh, ht]; rfl)
      rw [hv]
      exact ⟨hbare.views, hbare.current, hbare.screens⟩
    · rw [hv, hh]
      cases hrecords : PanelMessage.records? m.toJson <;> simp [hrecords, viewer]
  · have hroute : i.route? = some 0 := route_of_single hsingle
    have haccepts : i.session.context.panel.accepts 0 = true := (Option.filter_eq_some_iff.mp hroute).2
    have hviews : i.session.context.panel.views = [⟨true, js.map .message, false, .running⟩] := hsingle.views
    rw [hroute] at hh
    have hpost : (i.postFromPanel m.toJson).viewer =
        { i.viewer with panel := i.session.context.panel.send 0 (.message m.toJson) } := by
      rw [postFromPanel, ← route?, hroute]
      rfl
    rw [Panel.Bridge.send, if_pos haccepts, Panel.Bridge.update, hviews] at hpost
    have hqueued : (i.postFromPanel m.toJson).viewer.Single (js ++ [m.toJson]) := by
      rw [hpost]
      refine ⟨?_, hsingle.current, hsingle.screens⟩
      rw [List.map_append]
      rfl
    have hnone : i.handled e = ([] : List Json).map (⟨some 0, ·⟩) := hh
    refine ⟨.through hsingle hqueued hnone (by rw [ht]; rfl), ?_⟩
    rw [hpost, hh]
    rfl

theorem advance_takeLine (h : i.viewer.Sound) (text : String) :
    Advance i (.line text) (i.takeLine text) := by
  have hidle : ∀ {j}, i.typed (.line text) = [] → j.viewer = i.viewer → Advance i (.line text) j := by
    intro j ht hv
    refine advance_idle h ht ?_ (Or.inl hv)
    rw [handled, ht]
    exact ite_self _
  cases hp : i.host.pending with
  | some p =>
    exact hidle (by rw [typed, hp]; rfl) (noted_takeLine hp text).viewer
  | none =>
    have ht : i.typed (.line text) = (messageOf? text).toList := by
      rw [typed, hp]
      rfl
    rw [takeLine_of_none hp]
    cases hm : messageOf? text with
    | none =>
      rw [hm] at ht
      exact hidle ht (viewer_parseLine hm i)
    | some m =>
      rw [hm] at ht
      have hh : i.handled (.line text) = if i.route?.isSome then [] else [⟨none, m.toJson⟩] := by
        rw [handled, ht]
        rfl
      rw [parseLine_of_messageOf hm]
      exact advance_postFromPanel h ht hh

/-- **What a step does to the messages.** -/
theorem advance_of_step? (h : i.viewer.Sound) (hstep : i.step? e = some j) :
    Advance i e j := by
  obtain ⟨-, hnext⟩ := next_of_step? hstep
  have hidle : ∀ {e j}, i.typed e = [] → i.handled e = [] → j.viewer = i.viewer → Advance i e j :=
    fun ht hh hv => advance_idle h ht hh (Or.inl hv)
  cases hnext with
  | stream t he => cases t <;> cases he <;> exact hidle rfl rfl rfl
  | dispatches hr => exact advance_idle h rfl rfl (viewer_dispatches h hr)
  | relays hr => exact advance_relays h hr
  | line => exact advance_takeLine h _
  | inputEnds | inputFails => exact hidle rfl rfl (viewer_leave i)
  | command => exact hidle rfl rfl (viewer_execute _ _ _)
  | goesOn | patienceEnds | process => exact hidle rfl rfl rfl
  | @agreed _ r => cases r <;> exact hidle rfl rfl rfl
  | finishes => exact ⟨.ended rfl (Viewer.waiting_shutdown h) rfl rfl, rfl⟩

/-! ## 5. Runs -/

/-- What a run does to the messages. Those before some place are handled at once, and those behind it go through
    the channel of the panel, as what waits there already does. -/
structure Routed (i : Interaction) (es : List Event) (j : Interaction) : Prop where
  sound : j.stage ≠ .over → j.viewer.Sound
  latest : j.viewer.latest =
    ((i.trace handled es).filterMap fun h => PanelMessage.records? h.message).getLast?.or i.viewer.latest
  routes : ∃ before after relayed, i.trace typed es = before ++ after ∧
    i.trace handled es = before.map (fun m => ⟨none, m.toJson⟩) ++ relayed.map (⟨some 0, ·⟩) ∧
    i.viewer.waiting ++ after.map PanelMessage.toJson = relayed ++ j.viewer.waiting ∧
    ((∃ js, i.viewer.Single js) → before = [])

theorem eq_nil_of_over (h : i.stage = .over) {es : List Event} (hrun : i.run? es = some j) : es = [] ∧ j = i := by
  cases es with
  | nil =>
    cases hrun
    exact ⟨rfl, rfl⟩
  | cons e es =>
    obtain ⟨k, hk, -⟩ := Option.bind_eq_some_iff.mp hrun
    exact absurd h (next_of_step? hk).1

/-- **No message is lost, handled twice or overtaken**, whenever the panel comes up. -/
theorem routed_of_run (h : i.viewer.Sound) {es : List Event}
    (hrun : i.run? es = some j) : Routed i es j := by
  induction es generalizing i with
  | nil =>
    cases hrun
    exact ⟨fun _ => h, rfl, [], [], [], rfl, rfl, List.append_nil _, fun _ => rfl⟩
  | cons e es ih =>
    obtain ⟨k, hk, hrun⟩ := Option.bind_eq_some_iff.mp hrun
    obtain ⟨hroutes, hlatest⟩ := advance_of_step? h hk
    have htyped := trace_cons typed hk es
    have hhandled := trace_cons handled hk es
    have hlater : Routed k es j → j.viewer.latest =
        ((i.trace handled (e :: es)).filterMap fun h => PanelMessage.records? h.message).getLast?.or
          i.viewer.latest := by
      intro hk
      rw [hk.latest, hlatest, hhandled, List.filterMap_append, List.getLast?_append, Option.or_assoc]
    -- Where a panel is up nothing is handled at once any more, so that the routes change once.
    cases hroutes with
    | atOnce hbare hk' hh =>
      have hsound : k.viewer.Sound := hk'.imp_right fun hs => ⟨[], hs⟩
      have hempty : k.viewer.waiting = [] := hk'.elim (·.waiting_eq) (·.waiting_eq)
      have hrest := ih hsound hrun
      obtain ⟨before, after, relayed, ht, hr, haccount, -⟩ := hrest.routes
      refine ⟨hrest.sound, hlater hrest, i.typed e ++ before, after, relayed, ?_, ?_, ?_, ?_⟩
      · rw [htyped, ht, List.append_assoc]
      · rw [hhandled, hr, hh, List.map_append, List.append_assoc]
      · rw [hempty] at haccount
        rw [hbare.waiting_eq]
        exact haccount
      · rintro ⟨js, hsingle⟩
        cases hbare.screens.symm.trans hsingle.screens.choose_spec.1
    | @through js ks taken hsingle hk' hh hacc =>
      have hrest := ih (Or.inr ⟨ks, hk'⟩) hrun
      obtain ⟨before, after, relayed, ht, hr, haccount, hnone⟩ := hrest.routes
      cases hnone ⟨ks, hk'⟩
      refine ⟨hrest.sound, hlater hrest, [], i.typed e ++ after, taken ++ relayed, ?_, ?_, ?_, fun _ => rfl⟩
      · rw [htyped, ht]
        rfl
      · rw [hhandled, hr, hh, List.map_append]
        rfl
      · rw [hk'.waiting_eq] at haccount
        rw [hsingle.waiting_eq, List.map_append, ← List.append_assoc, hacc, List.append_assoc, haccount,
          List.append_assoc]
    | ended hover hw ht hh =>
      obtain ⟨rfl, rfl⟩ := eq_nil_of_over hover hrun
      refine ⟨fun hno => absurd hover hno, ?_, [], [], [], ?_, ?_, ?_, fun _ => rfl⟩
      · rw [hhandled, hlatest, hh]
        rfl
      · rw [htyped, ht]
        rfl
      · rw [hhandled, hh]
        rfl
      · rw [hw]
        exact List.append_nil _

/-- **What waits is handled** when the relay has had its turns. -/
theorem exists_relayed {js : List Json} (h : i.viewer.Single js) (hover : i.stage ≠ .over) :
    ∃ j, i.run? (List.replicate js.length (.relays 0)) = some j ∧ j.viewer.waiting = [] := by
  induction js generalizing i with
  | nil => exact ⟨i, rfl, h.waiting_eq⟩
  | cons m ms ih =>
    obtain ⟨r, hr, hrest, -⟩ := exists_relayTurn h
    have hstage : (i.become r).stage = i.stage := by
      obtain ⟨host, printed, panel, picks, heq⟩ := shown_become i r
      rw [heq]
    have hstep : i.step? (.relays 0) = some (i.become r) := by
      rw [step?, if_neg hover, hr]
      rfl
    obtain ⟨j, hj, hempty⟩ := ih hrest (hstage ▸ hover)
    refine ⟨j, ?_, hempty⟩
    rw [List.length_cons, List.replicate_succ, run?_cons, hstep]
    exact hj

end Interaction

end Terminal

end EditorBridge
