import Mathlib.Data.List.Perm.Basic
import EditorBridge.Proofs.Terminal.Effects

/-!
# Quick picks, from the listing to the wire

Listings of the server and typed lines come in any order. What each of them does to the quick picks and to
the commands that wait is said once (`desk_step`); everything else is read off that.

* `chosenBy` -- the item that a line chooses;
* `resolutions` -- what becomes of quick picks in a step; `offered` -- the quick picks that it opens;
* `asks` -- the commands that the terminal is asked to run in a step, and where they come from;
* **`accounts_run`** -- every quick pick is resolved once or waits, and every command that was asked for has
  been taken once or waits.

**`quick_picks`** -- the whole way, over every run.
-/

namespace EditorBridge

namespace Terminal

/-! ## 1. What a step is to the desk -/

/-- The item that a line chooses: the number that it spells, counted from one. -/
def chosenBy (items : List ListedCommand) (line : String) : Option ListedCommand :=
  (Text.Numeral.readUnsigned Text.Numeral.maxU64 (Text.trim line.toList)).bind fun k =>
    if k = 0 then none else items[k - 1]?

theorem chosenBy_eq_some_iff (items : List ListedCommand) (line : String) (item : ListedCommand) :
    chosenBy items line = some item ↔
      ∃ k, Text.Numeral.readUnsigned Text.Numeral.maxU64 (Text.trim line.toList) = some k ∧
        1 ≤ k ∧ k ≤ items.length ∧ items[k - 1]? = some item := by
  rw [chosenBy, Option.bind_eq_some_iff]
  refine exists_congr fun k => and_congr_right fun _ => ?_
  constructor
  · intro h
    split at h
    · cases h
    · have hlt := (List.getElem?_eq_some_iff.mp h).choose
      exact ⟨by omega, by omega, h⟩
  · rintro ⟨hpos, -, h⟩
    rw [if_neg (by omega)]
    exact h

namespace Interaction

/-- A new quick pick. Without items it changes nothing; else it takes the place of the one that waits. -/
def Desk.offer (d : Desk) (items : List ListedCommand) : Desk :=
  if items.isEmpty then { d with nextPick := d.nextPick + 1 }
  else
    { d with
      pending := some (d.nextPick, items), picks := [(d.nextPick, items)], nextPick := d.nextPick + 1 }

/-- The quick pick that waits is the only one that is open, and its number has been given. -/
structure Desk.Sound (d : Desk) : Prop where
  picks : d.picks = d.pending.toList
  given : ∀ p ∈ d.pending, p.1 < d.nextPick

/-- The commands that the next notification lists, if it is such a one and the dispatcher comes to it. -/
def listing? (i : Interaction) : Option (List ListedCommand) :=
  if i.session.dispatcher = .running then
    i.session.connection.notifications[i.session.dispatched]?.bind (·.listing?)
  else none

/-- The interaction when the quick pick that waits has been closed. -/
def resolve (i : Interaction) (chosen : Option ListedCommand) : Interaction :=
  let host := { i.host with pending := none }
  { i with
    host := (chosen.map (·.command)).elim host host.execute
    session := { i.session with context := { i.session.context with picks := [] } } }

variable {i j : Interaction}

theorem takeLine_of_none (h : i.host.pending = none) (line : String) : i.takeLine line = i.parseLine line := by
  rw [takeLine, h]
  rfl

/-- A line while a quick pick waits is no command. -/
theorem noted_takeLine {p : Nat × List ListedCommand} (h : i.host.pending = some p) (line : String) :
    Noted i (i.takeLine line) := by
  rw [takeLine, if_pos (h ▸ Option.isSome_some)]
  dsimp only
  split
  · rename_i host picked hanswer
    rw [Host.answer?, h] at hanswer
    cases hanswer
    exact Noted.trans ⟨_, _, _, _, _, rfl⟩ (noted_closePick _ _)
  · exact .refl i

/-- **A line while a quick pick waits** resolves it and does nothing else. -/
theorem takeLine_of_pending (hs : i.desk.Sound) {n : Nat} {items : List ListedCommand}
    (h : i.host.pending = some (n, items)) (line : String) :
    i.takeLine line = i.resolve (chosenBy items line) := by
  have hpicks : i.session.context.picks = [(n, items)] := hs.picks.trans (congrArg Option.toList h)
  have hanswer : ∀ choice, i.host.answer? choice =
      some ({ i.host with pending := none },
        (n, choice.bind fun k => if k = 0 then none else items[k - 1]?)) := by
    intro choice
    rw [Host.answer?, h]
    rfl
  have hopen : ({ i with host := { i.host with pending := none } } : Interaction).session.context.pickItems? n
      = some items := by
    simp [Context.pickItems?, hpicks]
  have hnone : i.session.context.picks.filter (fun p => p.1 != n) = [] := by
    rw [hpicks]
    simp
  rw [takeLine, h]
  dsimp only [Option.isSome_some, if_true]
  rw [hanswer]
  dsimp only
  rw [closePick_of_open hopen, hnone]
  rfl

theorem desk_resolve (i : Interaction) (chosen : Option ListedCommand) :
    (i.resolve chosen).desk =
      Desk.ask { i.desk with pending := none, picks := [] } (chosen.map (·.command)).toList := by
  cases chosen with
  | none => exact (Desk.ask_nil _).symm
  | some item =>
    exact desk_execute { i.resolve none with host := { i.host with pending := none } } item.command

/-- A quick pick without items is closed at once. -/
theorem openPick_nil (i : Interaction) (n : Nat) :
    i.openPick n [] =
      closePick ({ i with host := { i.host with nextPick := n + 1 } }.print
        [outLine (pickPlaceholder ++ ": nothing to choose from")]) (n, none) := rfl

/-- One with items waits, and the one that waited is closed. -/
theorem openPick_cons (i : Interaction) (n : Nat) (item : ListedCommand) (items : List ListedCommand) :
    ∃ printed, i.openPick n (item :: items) =
      ((i.host.pending.map fun p => (p.1, none)).toList).foldl closePick
        { i with
          host := { i.host with pending := some (n, item :: items), nextPick := n + 1 }
          printed } := ⟨_, rfl⟩

/-- **A listing that is dispatched** opens a quick pick. -/
theorem desk_become_listing (hs : i.desk.Sound) (items : List ListedCommand) (s : Session)
    (hc : s.context = { i.session.context with
      picks := i.session.context.picks ++ [(i.session.context.nextPick, items)]
      nextPick := i.session.context.nextPick + 1 }) :
    (i.become (s, [.pick i.session.context.nextPick items])).desk = i.desk.offer items := by
  obtain ⟨hpicks, hgiven⟩ := hs
  change i.session.context.picks = i.host.pending.toList at hpicks
  change ∀ p ∈ i.host.pending, p.1 < i.session.context.nextPick at hgiven
  show (openPick { i with session := s } i.session.context.nextPick items).desk = i.desk.offer items
  have hnew : s.context.picks = i.host.pending.toList ++ [(i.session.context.nextPick, items)] := by
    rw [hc, hpicks]
  have hnext : s.context.nextPick = i.session.context.nextPick + 1 := congrArg Context.nextPick hc
  cases items with
  | nil =>
    have hopen : s.context.pickItems? i.session.context.nextPick = some [] := by
      rw [Context.pickItems?, hnew]
      cases hp : i.host.pending with
      | none => simp
      | some p => simp [Nat.ne_of_lt (hgiven p hp)]
    have hrest : s.context.picks.filter (fun p => p.1 != i.session.context.nextPick) =
        i.session.context.picks := by
      rw [hnew, hpicks]
      cases hp : i.host.pending with
      | none => simp
      | some p => simp [Nat.ne_of_lt (hgiven p hp)]
    rw [openPick_nil, closePick_of_open hopen, desk]
    simp only [print, hrest, hnext]
    rfl
  | cons item items =>
    obtain ⟨printed, hopened⟩ := openPick_cons { i with session := s } i.session.context.nextPick item items
    rw [hopened]
    cases hp : i.host.pending with
    | none =>
      rw [hp] at hnew
      simp only [Option.map_none, Option.toList_none, List.foldl_nil, desk, hnew, hnext]
      rfl
    | some p =>
      obtain ⟨m, before⟩ := p
      rw [hp] at hnew
      have hne : i.session.context.nextPick ≠ m := (Nat.ne_of_lt (hgiven (m, before) hp)).symm
      have hopen : s.context.pickItems? m = some before := by
        rw [Context.pickItems?, hnew]
        simp
      have hrest : s.context.picks.filter (fun p => p.1 != m) =
          [(i.session.context.nextPick, item :: items)] := by
        rw [hnew]
        simp [hne]
      simp only [Option.map_some, Option.toList_some, List.foldl_cons, List.foldl_nil]
      rw [closePick_of_open hopen, desk]
      simp only [hrest, hnext]
      rfl

/-- **A turn of the dispatcher** opens a quick pick if it comes to a listing, and else leaves the desk
    alone. -/
theorem desk_dispatches (hs : i.desk.Sound) {r : Session × List Effect}
    (h : i.session.dispatchNext? i.surroundings = some r) :
    (i.become r).desk = i.listing?.elim i.desk i.desk.offer := by
  obtain ⟨hd, hturn⟩ := Session.dispatchNext?_cases h
  rw [listing?, if_pos hd]
  rcases hturn with ⟨n, hn, rfl⟩ | ⟨hn, rfl⟩
  · rw [hn, Option.bind_some]
    cases hl : n.listing? with
    | some items =>
      rw [Context.dispatch_of_listing hl, Session.become_eq]
      exact desk_become_listing hs items _ rfl
    | none =>
      exact desk_become_quiet (Context.quiet_dispatch hl)
  · rw [hn]
    rfl

/-- A turn of a relay leaves the desk alone. -/
theorem desk_relays {n : Nat} {r : Session × List Effect}
    (h : i.session.relayTurn? i.surroundings n = some r) : (i.become r).desk = i.desk := by
  rw [Session.relayTurn?, Option.map_eq_some_iff] at h
  obtain ⟨r, hr, rfl⟩ := h
  exact desk_become_quiet (Context.quiet_relayTurn hr)

/-- So does a message of the user to the panel. -/
theorem desk_postFromPanel (i : Interaction) (message : Json) : (i.postFromPanel message).desk = i.desk := by
  rw [postFromPanel]
  split
  · rfl
  · exact desk_become_quiet (Context.quiet_handlePanelMessage _ _ _)

/-- A typed command leaves the desk alone, but for `under`, which asks for the command under the cursor. -/
theorem desk_obey (i : Interaction) (c : TypedCommand) :
    (i.obey c).desk = i.desk.ask (if c = .under then i.cursorCommand?.toList else []) := by
  have hquiet : ∀ (i : Interaction) (b : BridgeCommand) (arguments : List Json), b ≠ .executeUnderCursor →
      (i.executeBridge b arguments).desk = i.desk := by
    intro i b arguments hb
    rw [executeBridge, desk_executed, asked_of_ne hb, Desk.ask_nil]
  cases c with
  | under =>
    rw [if_pos rfl]
    exact desk_executed i _ []
  | all | list | latest | editor =>
    rw [if_neg (by decide), Desk.ask_nil]
    exact hquiet i _ [] (by decide)
  | run index =>
    rw [if_neg (by simp), Desk.ask_nil, obey, withDocument]
    split
    · exact hquiet i _ _ (by decide)
    · rfl
  | lenses =>
    rw [if_neg (by decide), Desk.ask_nil, obey, withDocument]
    split <;> rfl
  | links =>
    rw [if_neg (by decide), Desk.ask_nil, obey, withDocument]
    split
    · split
      · rename_i hask
        rw [Session.askLinks?] at hask
        split at hask
        · cases hask
          rfl
        · cases hask
      · rfl
    · rfl
  | cursor p =>
    rw [if_neg (by simp), Desk.ask_nil, obey]
    split
    · rename_i host hmove
      rw [Host.moveCursor?, Option.map_eq_some_iff] at hmove
      obtain ⟨e, -, rfl⟩ := hmove
      rfl
    · rfl
  | stop => exact (desk_postFromPanel i _).trans (Desk.ask_nil _).symm
  | openModel link =>
    rw [if_neg (by simp), Desk.ask_nil]
    exact desk_postFromPanel i _
  | mode m =>
    rw [if_neg (by simp), Desk.ask_nil]
    rfl
  | help | quit => exact (Desk.ask_nil _).symm

theorem context_leave (i : Interaction) : i.leave.session.context = i.session.context := by
  rw [leave]
  cases i.model with
  | none => rfl
  | some d =>
    dsimp only
    rw [Session.synchronize_eq]
    rfl

/-- When the loop has ended, no command is taken any more. -/
theorem desk_leave (i : Interaction) : i.leave.desk = { i.desk with takesCommands := false } := by
  rw [desk, context_leave]
  rfl

/-- The commands that a line asks for, if the parser takes it. -/
def typedAsks (i : Interaction) (line : String) : List Command :=
  match TypedCommand.parse line with
  | .ok (some .under) => i.cursorCommand?.toList
  | _ => []

/-- Whether a line ends the loop, if the parser takes it. -/
def isQuit (line : String) : Bool :=
  match TypedCommand.parse line with
  | .ok (some .quit) => true
  | _ => false

theorem desk_parseLine (i : Interaction) (line : String) :
    (i.parseLine line).desk =
      if isQuit line then { i.desk with takesCommands := false } else i.desk.ask (i.typedAsks line) := by
  rw [parseLine, isQuit, typedAsks]
  cases TypedCommand.parse line with
  | error e => exact (Desk.ask_nil _).symm
  | ok c =>
    cases c with
    | none => exact (Desk.ask_nil _).symm
    | some c =>
      cases c with
      | quit => exact desk_leave i
      | _ => exact desk_obey i _

/-- What an event that can happen makes of the desk. -/
def deskAfter (i : Interaction) : Event → Desk
  | .dispatches => i.listing?.elim i.desk i.desk.offer
  | .line text =>
    match i.host.pending with
    | some (_, items) =>
      Desk.ask { i.desk with pending := none, picks := [] } ((chosenBy items text).map (·.command)).toList
    | none => if isQuit text then { i.desk with takesCommands := false } else i.desk.ask (i.typedAsks text)
  | .inputEnds => { i.desk with takesCommands := false }
  | .inputFails _ => { i.desk with takesCommands := false }
  | .command =>
    Desk.ask { i.desk with queue := i.host.queue.tail }
      ((i.host.queue.head?.map fun c => i.asked c.command).getD [])
  | _ => i.desk

/-- **What a step is to the desk.** -/
theorem desk_step (hs : i.desk.Sound) {e : Event} (h : i.step? e = some j) : j.desk = i.deskAfter e := by
  obtain ⟨-, hnext⟩ := next_of_step? h
  cases hnext with
  | stream t he => cases t <;> cases he <;> rfl
  | dispatches hr => exact desk_dispatches hs hr
  | relays hr => exact desk_relays hr
  | @line text =>
    rw [deskAfter]
    cases hp : i.host.pending with
    | some p =>
      rw [takeLine_of_pending hs hp]
      exact desk_resolve i _
    | none =>
      rw [takeLine_of_none hp]
      exact desk_parseLine i text
  | inputEnds | inputFails => exact desk_leave i
  | command _ hq =>
    rw [desk_executed, deskAfter, hq]
    rfl
  | goesOn => rfl
  | @agreed _ r => cases r <;> rfl
  | patienceEnds | process | finishes => rfl

/-! ## 2. What becomes of quick picks and commands -/

/-- What has become of a quick pick. -/
structure Resolution where
  number : Nat
  items : List ListedCommand
  chosen : Option ListedCommand

/-- The quick pick that has been resolved. -/
def Resolution.pick (r : Resolution) : Nat × List ListedCommand := (r.number, r.items)

/-- The command that a resolution asks for. -/
def Resolution.commands (r : Resolution) : List Command := (r.chosen.map (·.command)).toList

/-- The quick picks that an event opens. -/
def offered (i : Interaction) : Event → List (Nat × List ListedCommand)
  | .dispatches => (i.listing?.map fun items => (i.session.context.nextPick, items)).toList
  | _ => []

/-- What becomes of quick picks in an event: a line resolves the one that waits, a listing with items
    dismisses it, and one without is dismissed itself. -/
def resolutions (i : Interaction) : Event → List Resolution
  | .line text => i.host.pending.toList.map fun p => ⟨p.1, p.2, chosenBy p.2 text⟩
  | .dispatches =>
    match i.listing? with
    | none => []
    | some [] => [⟨i.session.context.nextPick, [], none⟩]
    | some _ => i.host.pending.toList.map fun p => ⟨p.1, p.2, none⟩
  | _ => []

/-- The commands under the cursor that an event asks for: a line can, and so can a command that is run. -/
def underCursor (i : Interaction) : Event → List Command
  | .line text => if i.host.pending.isSome then [] else i.typedAsks text
  | .command => (i.host.queue.head?.map fun c => i.asked c.command).getD []
  | _ => []

/-- The commands that the terminal is asked to run in an event, as long as it takes any. -/
def asks (i : Interaction) (e : Event) : List Command :=
  if i.host.takesCommands then (i.resolutions e).flatMap Resolution.commands ++ i.underCursor e else []

/-- The command that the loop takes. -/
def taken (i : Interaction) : Event → List Command
  | .command => i.host.queue.head?.toList
  | _ => []

theorem asks_of_pending {p : Nat × List ListedCommand} (h : i.host.pending = some p) (text : String) :
    i.asks (.line text) =
      if i.host.takesCommands then ((chosenBy p.2 text).map (·.command)).toList else [] := by
  simp [asks, resolutions, underCursor, h, Resolution.commands]

theorem asks_of_none (h : i.host.pending = none) (text : String) :
    i.asks (.line text) = if i.host.takesCommands then i.typedAsks text else [] := by
  simp [asks, resolutions, underCursor, h]

theorem typedAsks_of_isQuit (i : Interaction) {text : String} (h : isQuit text = true) :
    i.typedAsks text = [] := by
  rw [isQuit] at h
  split at h
  · rename_i hparse
    rw [typedAsks, hparse]
  · cases h

/-- The quick picks and the commands of a run accounted for. -/
structure Accounts (i : Interaction) (es : List Event) (j : Interaction) : Prop where
  sound : j.desk.Sound
  picks : ((i.trace resolutions es).map Resolution.pick ++ j.host.pending.toList).Perm
    (i.host.pending.toList ++ i.trace offered es)
  numbers : List.range i.session.context.nextPick ++ (i.trace offered es).map Prod.fst =
    List.range j.session.context.nextPick
  commands : i.trace taken es ++ j.host.queue = i.host.queue ++ i.trace asks es

/-- A quick pick that is opened keeps the desk sound. -/
theorem Desk.Sound.offer {d : Desk} (h : d.Sound) (items : List ListedCommand) : (d.offer items).Sound := by
  rw [Desk.offer]
  split
  · exact ⟨h.picks, fun p hp => Nat.lt_succ_of_lt (h.given p hp)⟩
  · refine ⟨rfl, fun p hp => ?_⟩
    cases hp
    exact Nat.lt_succ_self _

theorem sound_deskAfter (hs : i.desk.Sound) (e : Event) : (i.deskAfter e).Sound := by
  cases e with
  | dispatches =>
    rw [deskAfter]
    cases i.listing? with
    | none => exact hs
    | some items => exact hs.offer items
  | line text =>
    rw [deskAfter]
    split
    · exact ⟨rfl, fun p hp => by cases hp⟩
    · split
      · exact ⟨hs.picks, hs.given⟩
      · exact ⟨hs.picks, hs.given⟩
  | _ => exact ⟨hs.picks, hs.given⟩

theorem map_pick (f : Nat × List ListedCommand → Option ListedCommand)
    (ps : List (Nat × List ListedCommand)) :
    (ps.map fun p => Resolution.mk p.1 p.2 (f p)).map Resolution.pick = ps := by
  rw [List.map_map]
  exact List.map_id ps

/-- A quick pick that waits or is opened waits or is resolved. -/
theorem picks_step (i : Interaction) (e : Event) :
    ((i.resolutions e).map Resolution.pick ++ (i.deskAfter e).pending.toList).Perm
      (i.host.pending.toList ++ i.offered e) := by
  cases e with
  | dispatches =>
    rw [resolutions, deskAfter, offered]
    cases i.listing? with
    | none => exact .of_eq (List.append_nil _).symm
    | some items =>
      cases items with
      | nil =>
        show ([(i.session.context.nextPick, [])] ++ i.host.pending.toList).Perm _
        exact List.perm_append_comm
      | cons item items =>
        rw [map_pick (fun _ => none)]
        exact .refl _
  | line text =>
    rw [resolutions, deskAfter, map_pick fun p => chosenBy p.2 text]
    cases hp : i.host.pending with
    | some p => exact .refl _
    | none =>
      dsimp only
      split
      · exact .of_eq (congrArg Option.toList hp)
      · exact .of_eq (congrArg Option.toList hp)
  | _ => exact .of_eq (List.append_nil _).symm

theorem numbers_step (i : Interaction) (e : Event) :
    List.range i.session.context.nextPick ++ (i.offered e).map Prod.fst =
      List.range (i.deskAfter e).nextPick := by
  cases e with
  | dispatches =>
    rw [offered, deskAfter]
    cases i.listing? with
    | none => exact List.append_nil _
    | some items =>
      have hnext : (i.desk.offer items).nextPick = i.session.context.nextPick + 1 := by
        rw [Desk.offer]
        split <;> rfl
      rw [Option.elim_some, hnext, List.range_succ]
      rfl
  | line text =>
    rw [deskAfter]
    refine (List.append_nil _).trans ?_
    split
    · rfl
    · split <;> rfl
  | _ => exact List.append_nil _

/-- A command that waits or is asked for waits or is taken. -/
theorem commands_step (i : Interaction) (e : Event) :
    i.taken e ++ (i.deskAfter e).queue = i.host.queue ++ i.asks e := by
  cases e with
  | dispatches =>
    have hnone : (i.resolutions .dispatches).flatMap Resolution.commands = [] := by
      rw [resolutions]
      split
      · rfl
      · rfl
      · cases i.host.pending <;> rfl
    have hqueue : (i.deskAfter .dispatches).queue = i.host.queue := by
      rw [deskAfter]
      cases i.listing? with
      | none => rfl
      | some items =>
        rw [Option.elim_some, Desk.offer]
        split <;> rfl
    rw [hqueue, asks, hnone]
    simp [taken, underCursor]
  | line text =>
    rw [deskAfter]
    cases hp : i.host.pending with
    | some p =>
      rw [asks_of_pending hp]
      rfl
    | none =>
      rw [asks_of_none hp]
      dsimp only
      split
      · rw [typedAsks_of_isQuit i ‹_›, ite_self, List.append_nil]
        rfl
      · rfl
  | command =>
    show i.taken .command ++ (i.deskAfter .command).queue =
      i.host.queue ++ if i.host.takesCommands then [] ++ i.underCursor .command else []
    rw [taken, deskAfter, underCursor]
    cases hq : i.host.queue with
    | nil => rfl
    | cons c queue => rfl
  | _ => simp [taken, deskAfter, asks, resolutions, underCursor, desk]

theorem Accounts.refl (hs : i.desk.Sound) : Accounts i [] i where
  sound := hs
  picks := .of_eq (List.append_nil _).symm
  numbers := List.append_nil _
  commands := (List.append_nil _).symm

/-- **Quick picks and commands are accounted for**, however listings and lines come. -/
theorem accounts_run {es : List Event} (hs : i.desk.Sound) (h : i.run? es = some j) : Accounts i es j := by
  induction es generalizing i with
  | nil =>
    cases h
    exact .refl hs
  | cons e es ih =>
    rw [run?_cons, Option.bind_eq_some_iff] at h
    obtain ⟨k, hk, hrun⟩ := h
    have hdesk := desk_step hs hk
    have hrest := ih (hdesk ▸ sound_deskAfter hs e) hrun
    have hpending : k.host.pending = (i.deskAfter e).pending := congrArg Desk.pending hdesk
    have hqueue : k.host.queue = (i.deskAfter e).queue := congrArg Desk.queue hdesk
    have hnext : k.session.context.nextPick = (i.deskAfter e).nextPick := congrArg Desk.nextPick hdesk
    refine ⟨hrest.sound, ?_, ?_, ?_⟩
    · have hstep := picks_step i e
      rw [← hpending] at hstep
      rw [trace_cons _ hk, trace_cons _ hk, List.map_append, List.append_assoc]
      -- what is resolved now goes with what waits afterwards
      refine (hrest.picks.append_left _).trans ?_
      rw [← List.append_assoc, ← List.append_assoc]
      exact hstep.append_right _
    · rw [trace_cons _ hk, List.map_append, ← List.append_assoc, numbers_step, ← hnext]
      exact hrest.numbers
    · rw [trace_cons _ hk, trace_cons _ hk, List.append_assoc, hrest.commands, hqueue,
        ← List.append_assoc, commands_step, List.append_assoc]

/-! ## 3. From the queue to the wire -/

/-- A command of the model, as the session runs it. -/
theorem effectsOf_execute (i : Interaction) (arguments : List Json) :
    i.effectsOf (BridgeCommand.name .execute) arguments =
      match ExecuteParams.decode (.arr arguments) with
      | .ok p => .ok (Context.send (i.session.surroundings i.surroundings) (.execute p))
      | .error cause => .error (.badArguments .execute cause) := rfl

/-- **A command that the loop takes** is told to the server once, if its arguments can be read and the
    connection takes messages, and else the server is told nothing. -/
theorem connection_command {c : Command} {queue : List Command} (hq : i.host.queue = c :: queue)
    (hc : c.command = BridgeCommand.name .execute) (h : i.step? .command = some j) :
    (∀ p, ExecuteParams.decode (.arr (c.arguments.getD [])) = .ok p →
      i.session.connection.accepts = true →
      j.session.connection =
        i.session.connection.submit (.notification "ExecuteAlloyCommand" (some p.toJson))) ∧
    ((∀ p, ExecuteParams.decode (.arr (c.arguments.getD [])) ≠ .ok p) ∨
      i.session.connection.accepts = false → j.session.connection = i.session.connection) := by
  obtain ⟨-, hnext⟩ := next_of_step? h
  cases hnext with
  | stream t he => cases t <;> cases he
  | @command c' queue' _ hq' =>
    cases hq.symm.trans hq'
    rw [hc]
    generalize hi : ({ i with host := { i.host with queue } } : Interaction) = i'
    have hconnection : i'.session.connection = i.session.connection := by rw [← hi]
    rw [← hconnection]
    have heffects := effectsOf_execute i' (c.arguments.getD [])
    cases hd : ExecuteParams.decode (.arr (c.arguments.getD [])) with
    | error cause =>
      rw [hd] at heffects
      refine ⟨fun p hp => (by cases hp), fun _ => ?_⟩
      rw [execute_error heffects]
      rfl
    | ok p =>
      rw [hd] at heffects
      rw [connection_execute heffects, Context.send]
      cases ha : i'.session.connection.accepts with
      | true =>
        refine ⟨fun p' hp _ => ?_, fun h => ?_⟩
        · cases hp
          have hreach : (i'.session.surroundings i'.surroundings).reachable = true := ha
          rw [hreach]
          show (i'.session.connection.notify _ _).2 = _
          rw [Rpc.Connection.notify_of_accepted ha]
          rfl
        · rcases h with h | h
          · exact absurd rfl (h p)
          · cases h
      | false =>
        have hreach : (i'.session.surroundings i'.surroundings).reachable = false := ha
        refine ⟨fun _ _ h => absurd h Bool.false_ne_true, fun _ => ?_⟩
        rw [hreach]
        rfl

/-! ## 4. Every run -/

theorem desk_start {config : Config} {w : World} {s : Session} (hs : (activate config w).outcome = .ok s)
    (model : Option (TextDocument × String)) (failure : Option LaunchError) :
    (start s model failure).desk = ⟨none, [], true, [], 0⟩ := by
  obtain ⟨stage, printed, -, hstart⟩ := exists_start s model failure
  obtain ⟨-, html, reply, rfl, -⟩ := Activation.session_of_ok hs
  rw [hstart, desk, context_opened]
  rfl

/-- **Quick picks, from the listing to the wire.** After any run:
    at most one quick pick is open, and it is the one that waits;
    every quick pick that was opened has been resolved once or waits, so that none is resolved twice;
    the commands taken from the queue and those still in it are those that were asked for, each once and in
    that order, and these are the commands of the items chosen in resolved quick picks, and the one under the
    cursor where that was asked for (`asks`).
    In the next step, a listing with items takes the place of the quick pick that waits, and one without
    leaves it; a line resolves the quick pick that waits, if there is one, and does nothing else, and
    otherwise it is parsed; the item resolved to is the one at the number that the line spells, if it spells
    one between 1 and the number of items;
    a command of the model that is taken from the queue is told to the server once, if its arguments can be
    read and the connection takes messages. -/
theorem quick_picks {config : Config} {w : World} {s : Session} (hs : (activate config w).outcome = .ok s)
    {model : Option (TextDocument × String)} {failure : Option LaunchError} {es : List Event}
    {i : Interaction} (hi : (start s model failure).run? es = some i) :
    let i₀ := start s model failure
    let resolved := i₀.trace resolutions es
    i.session.context.picks = i.host.pending.toList ∧
    (resolved.map Resolution.pick ++ i.host.pending.toList).Perm (i₀.trace offered es) ∧
    (i₀.trace offered es).map Prod.fst = List.range i.session.context.nextPick ∧
    (resolved.map Resolution.number).Nodup ∧
    i₀.trace taken es ++ i.host.queue = i₀.trace asks es ∧
    (∀ j items, i.step? .dispatches = some j → i.listing? = some items →
      j.host.pending =
        if items.isEmpty then i.host.pending else some (i.session.context.nextPick, items)) ∧
    (∀ j text, i.step? (.line text) = some j →
      (∀ n items, i.host.pending = some (n, items) → j = i.resolve (chosenBy items text)) ∧
      (i.host.pending = none → j = i.parseLine text)) ∧
    (∀ items text item, chosenBy items text = some item ↔
      ∃ k, Text.Numeral.readUnsigned Text.Numeral.maxU64 (Text.trim text.toList) = some k ∧
        1 ≤ k ∧ k ≤ items.length ∧ items[k - 1]? = some item) ∧
    ∀ j c queue, i.host.queue = c :: queue → c.command = "ExecuteAlloyCommand" →
      i.step? .command = some j → j.host.queue = queue ∧
      (∀ p, ExecuteParams.decode (.arr (c.arguments.getD [])) = .ok p →
        i.session.connection.accepts = true →
        j.session.connection =
          i.session.connection.submit (.notification "ExecuteAlloyCommand" (some p.toJson))) ∧
      ((∀ p, ExecuteParams.decode (.arr (c.arguments.getD [])) ≠ .ok p) ∨
        i.session.connection.accepts = false → j.session.connection = i.session.connection) := by
  intro i₀ resolved
  have hdesk : i₀.desk = ⟨none, [], true, [], 0⟩ := desk_start hs model failure
  have hsound : i₀.desk.Sound := hdesk ▸ ⟨rfl, fun p hp => by cases hp⟩
  have ha : Accounts i₀ es i := accounts_run hsound hi
  have hpending : i₀.host.pending = none := congrArg Desk.pending hdesk
  have hqueue : i₀.host.queue = [] := congrArg Desk.queue hdesk
  have hnext : i₀.session.context.nextPick = 0 := congrArg Desk.nextPick hdesk
  have hpicks := ha.picks
  have hnumbers := ha.numbers
  have hcommands := ha.commands
  rw [hpending] at hpicks
  rw [hnext, List.range_zero, List.nil_append] at hnumbers
  rw [hqueue] at hcommands
  refine ⟨ha.sound.picks, hpicks, hnumbers, ?_, hcommands, fun j items h hl => ?_, fun j text h => ?_,
    chosenBy_eq_some_iff, fun j c queue hq hc h => ⟨?_, connection_command hq hc h⟩⟩
  · have hall := hpicks.map Prod.fst
    rw [Option.toList_none, List.nil_append, hnumbers, List.map_append, List.map_map] at hall
    exact ((hall.nodup_iff).mpr List.nodup_range).of_append_left
  · have hstep : j.host.pending = (i.deskAfter .dispatches).pending :=
      congrArg Desk.pending (desk_step ha.sound h)
    rw [hstep, deskAfter, hl, Option.elim_some, Desk.offer]
    split <;> rfl
  · obtain ⟨-, hnextstep⟩ := next_of_step? h
    cases hnextstep with
    | stream t he => cases t <;> cases he
    | line hp =>
      exact ⟨fun n items hw => takeLine_of_pending ha.sound hw text, fun hw => takeLine_of_none hw text⟩
  · have hstep : j.host.queue = (i.deskAfter .command).queue :=
      congrArg Desk.queue (desk_step ha.sound h)
    have hnone : i.asked c.command = [] := by
      rw [hc]
      exact asked_of_ne (b := .execute) (by decide) i
    rw [hstep, deskAfter, hq]
    dsimp only [List.head?_cons, Option.map_some, Option.getD_some]
    rw [hnone, Desk.ask_nil]
    rfl

/-- A second listing takes the place of the first; its second item is chosen and told to the server. -/
theorem quick_picks_superseded :
    let config : Config :=
      ⟨⟨"java", "alloy.jar", ⟨30000⟩, ⟨3000⟩⟩, ⟨"alloy", .codeLens⟩, ⟨"Alloy", none⟩⟩
    let agrees := Json.arr [.int 1, .null, .null, .obj [("capabilities", .obj [])]]
    let w : World := ⟨fun _ => .error "", 50000, none, none, .connected, 7,
      [.sends (Frame.encode agrees.printBytes)]⟩
    let item (k : Int) : ListedCommand :=
      ⟨"check", ⟨"check", "ExecuteAlloyCommand", some [.str "file:///m.als", .int k, .int 0, .int 0]⟩⟩
    let lists (items : List ListedCommand) : Event :=
      .sends (Frame.encode
        (Json.arr [.null, .str "alloy/commandsListResult", (CommandListing.mk items).toJson]).printBytes)
    let es : List Event := [lists [item 0], .reads, .dispatches, lists [item 1, item 2], .reads, .dispatches,
      .line " 2", .command]
    ∃ s i, (activate config w).outcome = .ok s ∧ (start s none none).run? es = some i ∧
      i.session.context.picks = [] ∧
      ((start s none none).trace taken es).length = 1 ∧
      ((start s none none).trace asks es).length = 1 ∧
      i.session.connection.accepted.length = 3 := by
  intro config agrees w item lists es
  have hrun : (activate config w).outcome.toOption.bind (fun s => ((start s none none).run? es).map fun i =>
      (i.host.pending.isNone, i.host.queue.length, ((start s none none).trace taken es).length,
        i.session.connection.accepted.length)) = some (true, 0, 1, 3) := by
    decide +kernel
  cases hs : (activate config w).outcome with
  | error e =>
    rw [hs] at hrun
    cases hrun
  | ok s =>
    rw [hs] at hrun
    change ((start s none none).run? es).map _ = _ at hrun
    obtain ⟨i, hi, hrun⟩ := Option.map_eq_some_iff.mp hrun
    rw [Prod.mk.injEq, Prod.mk.injEq, Prod.mk.injEq] at hrun
    obtain ⟨hpending, hqueue, htaken, haccepted⟩ := hrun
    obtain ⟨hpicks, -, -, -, hcommands, -⟩ := quick_picks hs hi
    have hasked := congrArg List.length hcommands
    rw [List.length_append, htaken, hqueue] at hasked
    rw [Option.isNone_iff_eq_none.mp hpending] at hpicks
    exact ⟨s, i, rfl, hi, hpicks, htaken, hasked.symm, haccepted⟩

end Interaction

end Terminal

end EditorBridge
