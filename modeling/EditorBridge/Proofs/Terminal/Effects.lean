import EditorBridge.Proofs.Session.Commands
import EditorBridge.Proofs.Session.Dispatch
import EditorBridge.Terminal.Interaction

/-!
# What effects do at the terminal

The effects of an operation are shown one by one. Showing them never reaches the server: it changes the
terminal, what is printed, the panels and the open quick picks, and nothing else (`Shown`).

The quick picks and the commands to run are in the terminal and in the session; `Desk` puts them side by
side.

* `closePick_of_open`, `closePick_of_not_open` -- all that closing a quick pick does;
* **`shown_become`** -- what showing effects leaves alone; `noted_become` -- and if they bring no panel up
  (`Noted`);
* **`desk_become`** -- effects without a quick pick leave the desk alone but for the commands to run, which
  are queued in their order;
* `desk_run`, `desk_executed` -- what a command is to the desk;
* **`next_of_step?`** -- all that a step can be (`Next`), for every proof about steps;
* `exists_start` -- how an interaction begins.
-/

namespace EditorBridge

/-- The command that an effect asks to run. -/
def Effect.command? : Effect → Option Command
  | .execute c => some c
  | _ => none

/-- The command that a deed asks to run. -/
def Deed.command? : Deed → Option Command
  | .runs c => some c
  | _ => none

/-- The quick pick that an effect opens. -/
def Effect.pick? : Effect → Option (Nat × List ListedCommand)
  | .pick n items => some (n, items)
  | _ => none

/-- Whether an effect brings a panel up. -/
def Effect.bringsPanelUp : Effect → Bool
  | .createPanel _ _ _ => true
  | .reveal _ => true
  | _ => false

/-- Whether the main task is in its loop or still on the way there. -/
def Terminal.Stage.inLoop : Terminal.Stage → Bool
  | .leaving _ => false
  | .ending => false
  | .over => false
  | _ => true

namespace Terminal.Interaction

variable {i j k : Interaction}

/-! ## 1. Runs -/

@[simp] theorem run?_cons (i : Interaction) (e : Event) (es : List Event) :
    i.run? (e :: es) = (i.step? e).bind (·.run? es) := rfl

/-- What the events of a run yield, one after another, if `f` says what each yields. -/
def trace {α : Type} (f : Interaction → Event → List α) (i : Interaction) : List Event → List α
  | [] => []
  | e :: es => f i e ++ ((i.step? e).map fun j => trace f j es).getD []

theorem trace_cons {α : Type} (f : Interaction → Event → List α) {e : Event} (h : i.step? e = some j)
    (es : List Event) : i.trace f (e :: es) = f i e ++ j.trace f es := by
  rw [trace, h]
  rfl

/-! ## 2. Closing a quick pick -/

/-- Closing a quick pick that is open takes it from the open ones and queues its command, if one was
    chosen. -/
theorem closePick_of_open {n : Nat} {items : List ListedCommand}
    (h : i.session.context.pickItems? n = some items) (chosen : Option ListedCommand) :
    i.closePick (n, chosen) =
      { i with
        host := (chosen.map (·.command)).elim i.host i.host.execute
        session := { i.session with
          context := { i.session.context with
            picks := i.session.context.picks.filter fun p => p.1 != n } } } := by
  rw [closePick, Session.closePick?, Context.closePick?, h]
  cases chosen with
  | none => rfl
  | some item => rfl

theorem closePick_of_not_open {n : Nat} (h : i.session.context.pickItems? n = none)
    (chosen : Option ListedCommand) : i.closePick (n, chosen) = i := by
  rw [closePick, Session.closePick?, Context.closePick?, h]
  rfl

/-! ## 3. What showing effects leaves alone -/

/-- `j` is `i` but for the terminal, what is printed, the panels and the open quick picks. -/
def Shown (i j : Interaction) : Prop :=
  ∃ host printed panel picks, j =
    { i with
      host, printed
      session := { i.session with context := { i.session.context with panel, picks } } }

theorem Shown.refl (i : Interaction) : Shown i i := ⟨_, _, _, _, rfl⟩

theorem Shown.trans (h : Shown i j) (h' : Shown j k) : Shown i k := by
  obtain ⟨host, printed, panel, picks, rfl⟩ := h
  obtain ⟨host', printed', panel', picks', rfl⟩ := h'
  exact ⟨_, _, _, _, rfl⟩

theorem shown_closePick (i : Interaction) (p : Host.Picked) : Shown i (i.closePick p) := by
  obtain ⟨n, chosen⟩ := p
  cases h : i.session.context.pickItems? n with
  | some items =>
    rw [closePick_of_open h]
    exact ⟨_, _, _, _, rfl⟩
  | none =>
    rw [closePick_of_not_open h]
    exact .refl i

theorem shown_openPick (i : Interaction) (n : Nat) (items : List ListedCommand) :
    Shown i (i.openPick n items) := by
  have hclosed : ∀ (ps : List Host.Picked) (i : Interaction), Shown i (ps.foldl closePick i) := by
    intro ps
    induction ps with
    | nil => exact .refl
    | cons p ps ih => exact fun i => (shown_closePick i p).trans (ih _)
  rw [openPick]
  exact Shown.trans ⟨_, _, _, _, rfl⟩ (hclosed _ _)

theorem shown_present (i : Interaction) (e : Effect) : Shown i (i.present e) := by
  cases e with
  | pick n items => exact shown_openPick i n items
  | _ => exact ⟨_, _, _, _, rfl⟩

/-- **What showing effects leaves alone.** -/
theorem shown_become (i : Interaction) (r : Session × List Effect) :
    Shown { i with session := r.1 } (i.become r) := by
  rw [become]
  generalize { i with session := r.1 } = i
  induction r.2 generalizing i with
  | nil => exact .refl i
  | cons e es ih => exact (shown_present i e).trans (ih _)

/-- `j` is `i` but for the quick picks, the commands to run and what is printed. -/
def Noted (i j : Interaction) : Prop :=
  ∃ pending nextPick queue printed picks, j =
    { i with
      host := { i.host with pending, nextPick, queue }
      printed
      session := { i.session with context := { i.session.context with picks } } }

theorem Noted.refl (i : Interaction) : Noted i i := ⟨_, _, _, _, _, rfl⟩

theorem Noted.trans (h : Noted i j) (h' : Noted j k) : Noted i k := by
  obtain ⟨pending, nextPick, queue, printed, picks, rfl⟩ := h
  obtain ⟨pending', nextPick', queue', printed', picks', rfl⟩ := h'
  exact ⟨_, _, _, _, _, rfl⟩

theorem noted_queue (i : Interaction) (c : Command) : Noted i { i with host := i.host.execute c } := by
  rw [Host.execute]
  split <;> exact ⟨_, _, _, _, _, rfl⟩

theorem noted_closePick (i : Interaction) (p : Host.Picked) : Noted i (i.closePick p) := by
  obtain ⟨n, chosen⟩ := p
  cases h : i.session.context.pickItems? n with
  | none =>
    rw [closePick_of_not_open h]
    exact .refl i
  | some items =>
    rw [closePick_of_open h]
    cases chosen with
    | none => exact ⟨_, _, _, _, _, rfl⟩
    | some item => exact (noted_queue i item.command).trans ⟨_, _, _, _, _, rfl⟩

theorem noted_openPick (i : Interaction) (n : Nat) (items : List ListedCommand) :
    Noted i (i.openPick n items) := by
  have hclosed : ∀ (ps : List Host.Picked) (i : Interaction), Noted i (ps.foldl closePick i) := by
    intro ps
    induction ps with
    | nil => exact .refl
    | cons p ps ih => exact fun i => (noted_closePick i p).trans (ih _)
  rw [openPick]
  cases items with
  | nil => exact Noted.trans ⟨_, _, _, _, _, rfl⟩ (hclosed _ _)
  | cons item items => exact Noted.trans ⟨_, _, _, _, _, rfl⟩ (hclosed _ _)

theorem noted_present {e : Effect} (he : e.bringsPanelUp = false) (i : Interaction) :
    Noted i (i.present e) := by
  cases e with
  | pick n items => exact noted_openPick i n items
  | execute c => exact noted_queue i c
  | createPanel | reveal => cases he
  | _ => exact ⟨_, _, _, _, _, rfl⟩

/-- **What showing effects that bring no panel up leaves alone.** -/
theorem noted_become {r : Session × List Effect} (h : ∀ e ∈ r.2, e.bringsPanelUp = false) (i : Interaction) :
    Noted { i with session := r.1 } (i.become r) := by
  rw [become]
  generalize { i with session := r.1 } = i
  revert h
  generalize r.2 = es
  intro h
  induction es generalizing i with
  | nil => exact .refl i
  | cons e es ih =>
    exact (noted_present (h e List.mem_cons_self) i).trans
      (ih _ fun x hx => h x (List.mem_cons_of_mem e hx))

/-! ## 4. Quick picks and commands to run -/

/-- The quick picks and the commands to run. -/
structure Desk where
  pending : Option (Nat × List ListedCommand)
  queue : List Command
  takesCommands : Bool
  picks : List (Nat × List ListedCommand)
  nextPick : Nat

/-- The desk of an interaction. -/
def desk (i : Interaction) : Desk :=
  ⟨i.host.pending, i.host.queue, i.host.takesCommands, i.session.context.picks,
    i.session.context.nextPick⟩

/-- Commands are asked to be run. -/
def Desk.ask (d : Desk) (cs : List Command) : Desk :=
  { d with queue := d.queue ++ if d.takesCommands then cs else [] }

@[simp] theorem Desk.ask_nil (d : Desk) : d.ask [] = d := by
  rw [ask, ite_self, List.append_nil]

theorem Desk.ask_append (d : Desk) (cs ds : List Command) : d.ask (cs ++ ds) = (d.ask cs).ask ds := by
  cases h : d.takesCommands <;> simp [ask, h]

/-- A command that the terminal is asked to run. -/
theorem desk_execute (i : Interaction) (c : Command) :
    { i with host := i.host.execute c }.desk = i.desk.ask [c] := by
  obtain ⟨session, ⟨active, pending, nextPick, queue, takesCommands, screens⟩, _, _, _, _, _⟩ := i
  cases takesCommands with
  | true => rfl
  | false => exact (congrArg (Desk.mk pending · _ _ _) (List.append_nil queue).symm)

theorem desk_present {e : Effect} (h : e.pick? = none) (i : Interaction) :
    (i.present e).desk = i.desk.ask e.command?.toList := by
  cases e with
  | pick n items => cases h
  | execute c => exact desk_execute i c
  | reveal n =>
    refine Eq.trans ?_ i.desk.ask_nil.symm
    show ({ i with host := (i.host.reveal n).1 }.print (i.host.reveal n).2).desk = i.desk
    rw [Host.reveal]
    split
    · split
      · rfl
      · rfl
    · rfl
  | _ => exact i.desk.ask_nil.symm

/-- **Effects without a quick pick** leave the desk alone but for the commands to run. -/
theorem desk_become {r : Session × List Effect} (h : r.2.filterMap Effect.pick? = []) (i : Interaction) :
    (i.become r).desk = { i with session := r.1 }.desk.ask (r.2.filterMap Effect.command?) := by
  rw [become]
  generalize { i with session := r.1 } = i
  revert h
  generalize r.2 = es
  intro h
  induction es generalizing i with
  | nil => exact i.desk.ask_nil.symm
  | cons e es ih =>
    rw [List.filterMap_eq_nil_iff] at h
    have hcommands : (e :: es).filterMap Effect.command? =
        e.command?.toList ++ es.filterMap Effect.command? := by
      cases e <;> rfl
    rw [List.foldl_cons, hcommands, Desk.ask_append, ← desk_present (h e List.mem_cons_self)]
    exact ih (i.present e) (List.filterMap_eq_nil_iff.mpr fun x hx => h x (List.mem_cons_of_mem e hx))

end Terminal.Interaction

/-! ## 5. Operations of the session -/

/-- The commands that a notification lists, if it is such a one. -/
def Rpc.Notification.listing? (n : Rpc.Notification) : Option (List ListedCommand) :=
  if n.method = "alloy/commandsListResult" then
    (CommandListing.decode n.params).toOption.map (·.commands)
  else none

/-- The notification that an effect has sent. -/
def Effect.sent? : Effect → Option Outbound
  | .notify o true => some o
  | _ => none

/-- A notification of the bridge, as an event of the connection. -/
def Outbound.event (o : Outbound) : Rpc.Event := .notifies o.method o.params

theorem Session.notices_eq (effects : List Effect) :
    notices effects = (effects.filterMap Effect.sent?).map Outbound.event := by
  rw [List.map_filterMap]
  refine List.filterMap_congr fun e _ => ?_
  cases e with
  | notify o reached => cases reached <;> rfl
  | _ => rfl

namespace Context

variable {c : Context} {env : Surroundings}

/-- The command of the lens under the cursor. -/
def cursorCommand? (c : Context) (env : Surroundings) : Option Command :=
  (c.supportedEditor env).bind fun e => (c.lenses.findAt? e.document.uri e.cursor).bind (·.command)

/-- What a command asks to be run: only the one under the cursor asks for anything. -/
def asked (c : Context) (env : Surroundings) (name : String) : List Command :=
  if name = BridgeCommand.name .executeUnderCursor then (c.cursorCommand? env).toList else []

/-- The result of an operation that opens no quick pick, closes none, asks for no command and changes no
    setting. -/
structure Quiet (c : Context) (r : Context × List Effect) : Prop where
  pick : r.2.filterMap Effect.pick? = []
  command : r.2.filterMap Effect.command? = []
  picks : r.1.picks = c.picks
  nextPick : r.1.nextPick = c.nextPick
  settings : r.1.settings = c.settings

/-- A deed opens no quick pick, and asks at most for its command. -/
theorem desk_leaves {deed : Deed} {effects : List Effect} (h : deed.Leaves env effects) :
    effects.filterMap Effect.pick? = [] ∧ effects.filterMap Effect.command? = deed.command?.toList := by
  cases h <;> exact ⟨rfl, rfl⟩

theorem quiet_handlePanelMessage (c : Context) (env : Surroundings) (message : Json) :
    c.Quiet (c.handlePanelMessage env message) := by
  have hquiet : ∀ purpose o, (sendQuietly env purpose o).filterMap Effect.pick? = [] ∧
      (sendQuietly env purpose o).filterMap Effect.command? = [] := by
    intro purpose o
    unfold sendQuietly
    split <;> exact ⟨rfl, rfl⟩
  rw [handlePanelMessage]
  split
  · exact ⟨(hquiet _ _).1, (hquiet _ _).2, rfl, rfl, rfl⟩
  · exact ⟨rfl, rfl, rfl, rfl, rfl⟩
  · exact ⟨(hquiet _ _).1, (hquiet _ _).2, rfl, rfl, rfl⟩
  · exact ⟨rfl, rfl, rfl, rfl, rfl⟩

theorem quiet_relayTurn {n : Nat} {r : Context × List Effect} (h : c.relayTurn? env n = some r) :
    c.Quiet r := by
  rw [relayTurn?] at h
  split at h
  · cases h
  · cases h
    exact ⟨rfl, rfl, rfl, rfl, rfl⟩
  · rename_i panel message _
    cases h
    obtain ⟨hpick, hcommand, hpicks, hnext, hsettings⟩ :=
      quiet_handlePanelMessage { c with panel } env message
    exact ⟨hpick, hcommand, hpicks, hnext, hsettings⟩

theorem dispatch_of_listing {n : Rpc.Notification} {items : List ListedCommand}
    (h : n.listing? = some items) :
    c.dispatch env n =
      ({ c with picks := c.picks ++ [(c.nextPick, items)], nextPick := c.nextPick + 1 },
        [.pick c.nextPick items]) := by
  rw [Rpc.Notification.listing?] at h
  split at h
  · rename_i hm
    have hout : n.method ≠ "alloy/showExecutionOutput" := by
      rw [hm]
      decide
    rw [dispatch, if_neg hout, if_pos hm, offerCommands]
    cases hd : CommandListing.decode n.params with
    | error cause =>
      rw [hd] at h
      cases h
    | ok listing =>
      rw [hd] at h
      cases h
      rfl
  · cases h

/-- A notification that lists nothing is quiet. -/
theorem quiet_dispatch {n : Rpc.Notification} (h : n.listing? = none) : c.Quiet (c.dispatch env n) := by
  by_cases ho : n.method = "alloy/showExecutionOutput"
  · have hensure : c.panel.ensure.2.2.filterMap Effect.pick? = [] ∧
        c.panel.ensure.2.2.filterMap Effect.command? = [] := by
      unfold Panel.Bridge.ensure
      split
      · split <;> exact ⟨rfl, rfl⟩
      · exact ⟨rfl, rfl⟩
    rw [dispatch_of_output ho, showOutput_eq, postOutput]
    constructor <;> simp only [List.filterMap_append, hensure, List.nil_append]
    · split <;> rfl
    · split <;> rfl
  · rw [dispatch, if_neg ho]
    by_cases hl : n.method = "alloy/commandsListResult"
    · rw [Rpc.Notification.listing?, if_pos hl] at h
      rw [if_pos hl, offerCommands]
      cases hd : CommandListing.decode n.params with
      | error cause => exact ⟨rfl, rfl, rfl, rfl, rfl⟩
      | ok listing =>
        rw [hd] at h
        cases h
    · rw [if_neg hl]
      split
      · split <;> exact ⟨rfl, rfl, rfl, rfl, rfl⟩
      · split
        · split
          · constructor <;> dsimp only
            · split
              · rfl
              · split <;> rfl
            · split
              · rfl
              · split <;> rfl
          · exact ⟨rfl, rfl, rfl, rfl, rfl⟩
        · exact ⟨rfl, rfl, rfl, rfl, rfl⟩

/-- What a command asks for is in its deed. -/
theorem asked_name (c : Context) (env : Surroundings) (arguments : List Json) (b : BridgeCommand) :
    c.asked env b.name = ((c.deed? env arguments b).bind Deed.command?).toList := by
  by_cases hb : b = .executeUnderCursor
  · subst hb
    rw [asked, if_pos rfl, cursorCommand?, deed?]
    cases c.supportedEditor env with
    | none => rfl
    | some e =>
      rw [Option.bind_some, Option.map_some, Option.bind_some, deedUnderCursor]
      cases (c.lenses.findAt? e.document.uri e.cursor).bind (·.command) <;> rfl
  · rw [asked, if_neg (mt BridgeCommand.name_inj.mp hb)]
    cases b with
    | executeUnderCursor => exact absurd rfl hb
    | execute => rw [deed?]; cases ExecuteParams.decode (.arr arguments) <;> rfl
    | executeAll | list => rw [deed?]; cases c.supportedEditor env <;> rfl
    | openEditor => rfl
    | openLatestInstance => rw [deed?]; cases c.latest <;> rfl

/-- **What a command is to the desk.** -/
theorem desk_run {effects : List Effect} {name : String} {arguments : List Json}
    (h : c.run env name arguments = .ok effects) :
    effects.filterMap Effect.pick? = [] ∧ effects.filterMap Effect.command? = c.asked env name := by
  rw [run] at h
  split at h
  · rename_i b hb
    rw [← BridgeCommand.name_of_ofName? hb, c.asked_name env arguments]
    rcases runCommand_cases h with ⟨hnone, rfl⟩ | ⟨deed, hdeed, hleaves⟩
    · rw [hnone]
      exact ⟨rfl, rfl⟩
    · rw [hdeed]
      exact desk_leaves hleaves
  · cases h

/-- A command that is not run asks for nothing. -/
theorem asked_of_error {e : CommandError} {name : String} {arguments : List Json}
    (h : c.run env name arguments = .error e) : c.asked env name = [] := by
  refine if_neg fun hname => ?_
  rw [hname, run_name] at h
  exact absurd (exists_runCommand_error_iff.mp ⟨e, h⟩).1 (by decide)

end Context

namespace Terminal.Interaction

variable {i : Interaction}

/-- The command under the cursor. -/
def cursorCommand? (i : Interaction) : Option Command := i.session.context.cursorCommand? i.surroundings

/-- What running a command asks to be run. -/
def asked (i : Interaction) (name : String) : List Command :=
  i.session.context.asked (i.session.surroundings i.surroundings) name

theorem asked_of_ne {b : BridgeCommand} (hb : b ≠ .executeUnderCursor) (i : Interaction) :
    i.asked b.name = [] := by
  exact if_neg (mt BridgeCommand.name_inj.mp hb)

/-- What the session makes of a command. -/
def effectsOf (i : Interaction) (name : String) (arguments : List Json) :
    Except CommandError (List Effect) :=
  i.session.context.run (i.session.surroundings i.surroundings) name arguments

/-- The interaction when notifications have been sent. -/
def tell (i : Interaction) (os : List Outbound) : Interaction :=
  { i with session := { i.session with connection := i.session.connection.run (os.map Outbound.event) } }

theorem execute_ok {name : String} {arguments : List Json} {effects : List Effect}
    (h : i.effectsOf name arguments = .ok effects) :
    i.execute name arguments =
      i.become ((i.tell (effects.filterMap Effect.sent?)).session, effects) := by
  rw [effectsOf] at h
  rw [execute, Session.execute, h]
  dsimp only
  rw [Session.carryOut_eq, Session.notices_eq]
  rfl

theorem execute_error {name : String} {arguments : List Json} {e : CommandError}
    (h : i.effectsOf name arguments = .error e) : i.execute name arguments = i.complain e.message := by
  rw [effectsOf] at h
  rw [execute, Session.execute, h]

/-- **What running a command leaves alone**: the connection gets some notifications. -/
theorem exists_shown_execute (i : Interaction) (name : String) (arguments : List Json) :
    ∃ os, Shown (i.tell os) (i.execute name arguments) := by
  cases h : i.effectsOf name arguments with
  | ok effects =>
    rw [execute_ok h]
    exact ⟨_, shown_become i _⟩
  | error e =>
    rw [execute_error h]
    exact ⟨[], _, _, _, _, rfl⟩

/-- What a command does brings no panel up. -/
theorem exists_noted_execute (i : Interaction) (name : String) (arguments : List Json) :
    ∃ os, Noted (i.tell os) (i.execute name arguments) := by
  cases h : i.effectsOf name arguments with
  | error e =>
    rw [execute_error h]
    exact ⟨[], _, _, _, _, _, rfl⟩
  | ok effects =>
    have hnone : ∀ e ∈ effects, e.bringsPanelUp = false := by
      rcases Context.run_leaves h with rfl | ⟨deed, hleaves⟩
      · exact fun e he => absurd he List.not_mem_nil
      · cases hleaves <;> simp [Effect.bringsPanelUp]
    rw [execute_ok h]
    exact ⟨_, noted_become hnone i⟩

/-- What running a command is to the connection. -/
theorem connection_execute {name : String} {arguments : List Json} {effects : List Effect}
    (h : i.effectsOf name arguments = .ok effects) :
    (i.execute name arguments).session.connection =
      i.session.connection.run ((effects.filterMap Effect.sent?).map Outbound.event) := by
  obtain ⟨host, printed, panel, picks, heq⟩ :=
    shown_become i ((i.tell (effects.filterMap Effect.sent?)).session, effects)
  rw [execute_ok h, heq]
  rfl

/-- **What running a command is to the desk.** -/
theorem desk_executed (i : Interaction) (name : String) (arguments : List Json) :
    (i.execute name arguments).desk = i.desk.ask (i.asked name) := by
  cases h : i.effectsOf name arguments with
  | ok effects =>
    obtain ⟨hpicks, hcommands⟩ := Context.desk_run h
    rw [execute_ok h, desk_become hpicks, hcommands]
    rfl
  | error e =>
    have hnone : i.asked name = [] := Context.asked_of_error h
    rw [execute_error h, hnone, Desk.ask_nil]
    rfl

/-- A quiet operation of the session leaves the desk alone. -/
theorem desk_become_quiet {r : Context × List Effect} (h : i.session.context.Quiet r) {s : Session} :
    (i.become (s.become r)).desk = i.desk := by
  rw [Session.become_eq, desk_become h.pick, h.command, Desk.ask_nil, desk, h.picks, h.nextPick]
  rfl

/-! ## 6. What the main task takes up -/

theorem exists_lensesArrived (s : Session) (uri : Url) (o : Except Rpc.CallError Rpc.Reply) :
    ∃ lenses, (s.lensesArrived uri o).1 = { s with context := { s.context with lenses } } := by
  rw [Session.lensesArrived]
  cases Session.lensesOf o <;> exact ⟨_, rfl⟩

/-- **What the main task takes up**: lenses or links, after which the loop goes on, or the answer to the
    request to shut down. -/
theorem resume_cases {j : Interaction} (h : i.resume? = some j) :
    (i.stage.inLoop ∧ ∃ lenses printed, j =
      { i with
        session := { i.session with context := { i.session.context with lenses } }
        stage := .prompt, printed }) ∨
    ∃ call r, i.stage = .leaving call ∧ i.session.outcome? call = some r ∧
      j = { i with session := (i.session.shutdownAnswered r).askToEnd, stage := .ending } := by
  rw [resume?] at h
  split at h
  · rename_i call hstage
    split at h
    · rename_i r d _ _
      obtain ⟨lenses, hl⟩ := exists_lensesArrived i.session d.uri r
      cases hr : i.session.lensesArrived d.uri r with
      | mk s shown =>
        rw [hr] at h hl
        cases hl
        refine Or.inl ⟨hstage ▸ rfl, lenses, ?_⟩
        cases shown <;> cases h <;> exact ⟨_, rfl⟩
    · cases h
  · rename_i call uri hstage
    rw [Option.map_eq_some_iff] at h
    obtain ⟨r, -, h⟩ := h
    obtain ⟨lenses, hl⟩ := exists_lensesArrived i.session uri r
    cases hr : i.session.lensesArrived uri r with
    | mk s shown =>
      rw [hr] at h hl
      cases hl
      refine Or.inl ⟨hstage ▸ rfl, lenses, ?_⟩
      cases shown <;> cases h <;> exact ⟨_, rfl⟩
  · rename_i call hstage
    rw [Option.map_eq_some_iff] at h
    obtain ⟨r, -, h⟩ := h
    refine Or.inl ⟨hstage ▸ rfl, i.session.context.lenses, ?_⟩
    cases hl : Session.linksOf r with
    | ok ls =>
      rw [hl] at h
      cases h
      exact ⟨_, rfl⟩
    | error e =>
      rw [hl] at h
      cases h
      exact ⟨_, rfl⟩
  · rename_i call hstage
    rw [Option.map_eq_some_iff] at h
    obtain ⟨r, hr, rfl⟩ := h
    exact Or.inr ⟨call, r, hstage, hr, rfl⟩
  · cases h

/-! ## 7. Steps -/

/-- Asking the process to end changes nothing else. -/
theorem askToEnd_eq (s : Session) : s.askToEnd = { s with process := s.askToEnd.process } := by
  rw [Session.askToEnd, Session.processEvent_eq]

/-- What happens to the stream of the session, as an event of the interaction. -/
def streamEvent : Session.Traffic → Event
  | .receives bs => .sends bs
  | .hangsUp => .hangsUp
  | .deafens => .deafens
  | .reads => .reads
  | .writes => .writes

/-- All that a step can be. -/
inductive Next (i : Interaction) : Event → Interaction → Prop
  | stream {e : Event} (t : Session.Traffic) (he : e = streamEvent t) :
      Next i e
        { i with session := { i.session with connection := i.session.connection.step t.event } }
  | dispatches {r : Session × List Effect} (h : i.session.dispatchNext? i.surroundings = some r) :
      Next i .dispatches (i.become r)
  | relays {n : Nat} {r : Session × List Effect} (h : i.session.relayTurn? i.surroundings n = some r) :
      Next i (.relays n) (i.become r)
  | line {text : String} (hp : i.stage = .prompt) : Next i (.line text) (i.takeLine text)
  | inputEnds (hp : i.stage = .prompt) : Next i .inputEnds i.leave
  | inputFails {cause : String} (hp : i.stage = .prompt) :
      Next i (.inputFails cause) { i.leave with inputFailure := some cause }
  | command {c : Command} {queue : List Command} (hp : i.stage = .prompt) (hq : i.host.queue = c :: queue) :
      Next i .command
        ({ i with host := { i.host with queue } }.execute c.command (c.arguments.getD []))
  /-- The lenses or links that were asked for are there. -/
  | goesOn {lenses : LensCache} {printed : List Output} (hl : i.stage.inLoop) :
      Next i .resumes
        { i with
          session := { i.session with context := { i.session.context with lenses } }
          stage := .prompt, printed }
  /-- The request to shut down has been answered. -/
  | agreed {call : Nat} {r : Except Rpc.CallError Rpc.Reply} (hl : i.stage = .leaving call)
      (hr : i.session.outcome? call = some r) (process : Supervisor) :
      Next i .resumes { i with session := { i.session.shutdownAnswered r with process }, stage := .ending }
  | patienceEnds {call : Nat} (hl : i.stage = .leaving call) (hr : i.session.outcome? call = none)
      (process : Supervisor) :
      Next i .patienceEnds { i with session := { i.session with process }, stage := .ending }
  | process {e : Supervisor.Event} (process : Supervisor) :
      Next i (.process e) { i with session := { i.session with process } }
  | finishes (he : i.stage = .ending) :
      Next i .finishes { i with session := i.session.finish, stage := .over }

/-- **All that a step can be.** -/
theorem next_of_step? {j : Interaction} {e : Event} (h : i.step? e = some j) : i.stage ≠ .over ∧ i.Next e j := by
  unfold step? at h
  dsimp only at h
  split at h
  · cases h
  · rename_i hover
    refine ⟨hover, ?_⟩
    cases e with
    | sends bs =>
      cases h
      exact .stream (.receives bs) rfl
    | hangsUp =>
      cases h
      exact .stream .hangsUp rfl
    | deafens =>
      cases h
      exact .stream .deafens rfl
    | reads =>
      obtain ⟨c, hc, rfl⟩ := Option.map_eq_some_iff.mp h
      have hstep : i.session.connection.step .reads = c := by rw [Rpc.Connection.step, hc, Option.getD_some]
      exact hstep ▸ .stream .reads rfl
    | writes =>
      obtain ⟨c, hc, rfl⟩ := Option.map_eq_some_iff.mp h
      have hstep : i.session.connection.step .writes = c := by rw [Rpc.Connection.step, hc, Option.getD_some]
      exact hstep ▸ .stream .writes rfl
    | dispatches =>
      obtain ⟨r, hr, rfl⟩ := Option.map_eq_some_iff.mp h
      exact .dispatches hr
    | relays n =>
      obtain ⟨r, hr, rfl⟩ := Option.map_eq_some_iff.mp h
      exact .relays hr
    | line text =>
      dsimp only at h
      split at h
      · cases h
        exact .line ‹_›
      · cases h
    | inputEnds =>
      dsimp only at h
      split at h
      · cases h
        exact .inputEnds ‹_›
      · cases h
    | inputFails cause =>
      dsimp only at h
      split at h
      · cases h
        exact .inputFails ‹_›
      · cases h
    | command =>
      dsimp only at h
      split at h
      · rw [takeCommand?] at h
        split at h
        · cases h
        · rename_i c queue hq
          cases h
          exact .command ‹_› hq
      · cases h
    | resumes =>
      rcases resume_cases h with ⟨hl, lenses, printed, rfl⟩ | ⟨call, r, hl, hr, rfl⟩
      · exact .goesOn hl
      · rw [askToEnd_eq]
        exact .agreed hl hr _
    | patienceEnds =>
      dsimp only at h
      split at h
      · split at h
        · rename_i call hl hr
          cases h
          rw [askToEnd_eq]
          exact .patienceEnds hl (Option.isNone_iff_eq_none.mp hr) _
        · cases h
      · cases h
    | process e =>
      have hprocess : (i.session.processEvent? e).map (fun session => { i with session }) = some j →
          i.Next (.process e) j := by
        intro h
        obtain ⟨s, hs, rfl⟩ := Option.map_eq_some_iff.mp h
        obtain ⟨p, -, rfl⟩ := Option.map_eq_some_iff.mp hs
        exact .process p
      cases e with
      | asks grace => cases h
      | drops => cases h
      | _ => exact hprocess h
    | finishes =>
      dsimp only at h
      split at h
      · rename_i he
        cases h
        exact .finishes he.1
      · cases h

/-! ## 8. The start -/

/-- The session when the document, if there is one, has been opened. -/
def opened (s : Session) : Option (TextDocument × String) → Session
  | none => s
  | some (d, text) => (s.openDocument d text).1

/-- **How an interaction begins.** -/
theorem exists_start (s : Session) (model : Option (TextDocument × String)) (failure : Option LaunchError) :
    ∃ stage printed, stage.inLoop = true ∧ start s model failure =
      { session := opened s model, host := .start (model.map fun m => ⟨m.1, ⟨0, 0⟩⟩)
        model := model.map (·.1), editorFailure := failure, stage, inputFailure := none, printed } := by
  cases model with
  | none => exact ⟨.prompt, _, rfl, rfl⟩
  | some m =>
    obtain ⟨d, text⟩ := m
    rw [start, opened]
    cases s.openDocument d text with
    | mk s r =>
      cases r with
      | error e => exact ⟨.prompt, _, rfl, rfl⟩
      | ok call =>
        cases call with
        | none => exact ⟨.prompt, _, rfl, rfl⟩
        | some call => exact ⟨.opening call, _, rfl, rfl⟩

theorem context_opened (s : Session) (model : Option (TextDocument × String)) :
    (opened s model).context = s.context := by
  cases model with
  | none => rfl
  | some m =>
    rw [opened, Session.openDocument_eq]

theorem inOrder_opened {s : Session} (h : s.connection.InOrder) (model : Option (TextDocument × String)) :
    (opened s model).connection.InOrder := by
  cases model with
  | none => exact h
  | some m =>
    rw [opened, Session.openDocument_eq]
    exact Rpc.Connection.inOrder_run h _

end Terminal.Interaction

end EditorBridge
