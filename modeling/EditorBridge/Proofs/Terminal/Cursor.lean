import EditorBridge.Proofs.Session.Lenses
import EditorBridge.Proofs.Terminal.Picks

/-!
# The cursor, and what typed commands do with it

Only a typed `cursor` moves the cursor of the document in front, and the commands that need a place take the
cursor as it is.

* **`active_step`**, **`active_run`** -- after any events the cursor is where it was put last;
* `obey_run`, `obey_under` -- one command of the document, and the one under the cursor;
* `obey_of_no_document` -- what is typed for a document when none is open;
* **`answered_takeLine`** -- no line is answered with a command that is unknown or has bad arguments.

**`typed_cursor`** -- all of this after any run.
-/

namespace EditorBridge

/-- The place that a command moves the cursor to. -/
def TypedCommand.place? : TypedCommand → Option Position
  | .cursor p => some p
  | _ => none

/-- The editor with its cursor at a place, if one is given. -/
def ActiveEditor.movedTo (e : ActiveEditor) (p : Option Position) : ActiveEditor :=
  { e with cursor := p.getD e.cursor }

/-- Whether a command is for the document in front and says so when there is none. -/
def TypedCommand.needsDocument : TypedCommand → Bool
  | .run _ => true
  | .lenses => true
  | .links => true
  | .cursor _ => true
  | _ => false

namespace Terminal

/-- The place that a line gives for the cursor, if it parses as such a command. -/
def placeOf? (line : String) : Option Position :=
  match TypedCommand.parse line with
  | .ok (some c) => c.place?
  | _ => none

namespace Interaction

variable {i j : Interaction}

/-! ## 1. What leaves the document alone -/

theorem Noted.active (h : Noted i j) : j.host.active = i.host.active := by
  obtain ⟨pending, nextPick, queue, printed, picks, rfl⟩ := h
  rfl

theorem active_present (i : Interaction) (e : Effect) : (i.present e).host.active = i.host.active := by
  by_cases he : e.bringsPanelUp = false
  · exact (noted_present he i).active
  · cases e with
    | createPanel => rfl
    | reveal n =>
      show (i.host.reveal n).1.active = i.host.active
      rw [Host.reveal]
      split
      · split <;> rfl
      · rfl
    | _ => exact absurd rfl he

/-- Showing effects leaves the document and its cursor alone. -/
theorem active_become (i : Interaction) (r : Session × List Effect) :
    (i.become r).host.active = i.host.active := by
  rw [become]
  generalize hs : { i with session := r.1 } = k
  have hk : k.host.active = i.host.active := by rw [← hs]
  rw [← hk]
  clear hs hk
  induction r.2 generalizing k with
  | nil => rfl
  | cons e es ih => rw [List.foldl_cons, ih, active_present]

theorem active_execute (i : Interaction) (name : String) (arguments : List Json) :
    (i.execute name arguments).host.active = i.host.active := by
  obtain ⟨os, h⟩ := exists_noted_execute i name arguments
  exact h.active

theorem active_postFromPanel (i : Interaction) (message : Json) :
    (i.postFromPanel message).host.active = i.host.active := by
  rw [postFromPanel]
  split
  · rfl
  · exact active_become i _

/-! ## 2. What moves the cursor -/

theorem movedTo_none (o : Option ActiveEditor) : o.map (·.movedTo none) = o := by
  cases o <;> rfl

theorem active_obey (i : Interaction) (c : TypedCommand) :
    (i.obey c).host.active = i.host.active.map (·.movedTo c.place?) := by
  cases c with
  | cursor p =>
    rw [obey, Host.moveCursor?]
    cases h : i.host.active with
    | none => exact h
    | some e => rfl
  | all | list | under | latest | editor => exact (active_execute i _ []).trans (movedTo_none _).symm
  | stop | openModel link => exact (active_postFromPanel i _).trans (movedTo_none _).symm
  | run n =>
    refine Eq.trans ?_ (movedTo_none _).symm
    rw [obey, withDocument]
    split
    · exact active_execute i _ _
    · rfl
  | lenses =>
    refine Eq.trans ?_ (movedTo_none _).symm
    rw [obey, withDocument]
    split <;> rfl
  | links =>
    refine Eq.trans ?_ (movedTo_none _).symm
    rw [obey, withDocument]
    split
    · split <;> rfl
    · rfl
  | mode m | help | quit => exact (movedTo_none _).symm

/-- The place that an event gives for the cursor: a line can that answers no quick pick. -/
def place? (i : Interaction) : Event → Option Position
  | .line text => if i.host.pending.isSome then none else placeOf? text
  | _ => none

theorem active_takeLine (i : Interaction) (text : String) :
    (i.takeLine text).host.active = i.host.active.map (·.movedTo (i.place? (.line text))) := by
  rw [place?]
  cases hp : i.host.pending with
  | some p =>
    exact (noted_takeLine hp text).active.trans (movedTo_none _).symm
  | none =>
    rw [takeLine_of_none hp, parseLine, placeOf?]
    cases TypedCommand.parse text with
    | error e => exact (movedTo_none _).symm
    | ok c =>
      cases c with
      | none => exact (movedTo_none _).symm
      | some c =>
        cases c with
        | quit => exact (movedTo_none _).symm
        | _ => exact active_obey i _

/-- **What a step does to the cursor.** -/
theorem active_step {e : Event} (h : i.step? e = some j) :
    j.host.active = i.host.active.map (·.movedTo (i.place? e)) := by
  obtain ⟨-, hnext⟩ := next_of_step? h
  cases hnext with
  | stream t he => cases t <;> cases he <;> exact (movedTo_none _).symm
  | dispatches | relays => exact (active_become i _).trans (movedTo_none _).symm
  | line => exact active_takeLine i _
  | command => exact (active_execute _ _ _).trans (movedTo_none _).symm
  | _ => exact (movedTo_none _).symm

/-- The places that a run gives for the cursor. -/
def places (i : Interaction) (es : List Event) : List Position := i.trace (fun i e => (i.place? e).toList) es

/-- **The cursor is where it was put last.** -/
theorem active_run {es : List Event} (h : i.run? es = some j) :
    j.host.active = i.host.active.map (·.movedTo (i.places es).getLast?) := by
  induction es generalizing i with
  | nil =>
    cases h
    exact (movedTo_none _).symm
  | cons e es ih =>
    rw [run?_cons, Option.bind_eq_some_iff] at h
    obtain ⟨k, hk, hrun⟩ := h
    have hplaces : i.places (e :: es) = (i.place? e).toList ++ k.places es := trace_cons _ hk es
    rw [ih hrun, active_step hk, Option.map_map, hplaces]
    refine congrArg (Option.map · i.host.active) (funext fun a => ?_)
    show { a with cursor := _ } = { a with cursor := _ }
    rw [Session.getD_getLast?_append]
    rfl

/-! ## 3. Commands that take the cursor -/

/-- What the arguments of a typed run say. -/
def runParams (a : ActiveEditor) (n : Int64) : ExecuteParams :=
  ⟨a.document.uri.text, n, a.cursor.line, a.cursor.character⟩

/-- The arguments that are made for a typed run are never bad. -/
theorem effectsOf_run (i : Interaction) (a : ActiveEditor) (n : Int64) :
    i.effectsOf (BridgeCommand.name .execute) (runArguments a n) =
      .ok (Context.send (i.session.surroundings i.surroundings) (.execute (runParams a n))) :=
  Context.run_execute_of_decode (p := runParams a n) _ _ rfl

/-- **One command of the document** is told to the server, with the cursor as its place. -/
theorem obey_run {a : ActiveEditor} (ha : i.host.active = some a) (hup : i.session.connection.accepts = true)
    (n : Int64) :
    i.obey (.run n) =
      { i with
        session := { i.session with
          connection := i.session.connection.submit
            (.notification "ExecuteAlloyCommand" (some (.arr (runArguments a n)))) } } := by
  have hsend : Context.send (i.session.surroundings i.surroundings) (.execute (runParams a n)) =
      [.notify (.execute (runParams a n)) true] := if_pos hup
  rw [obey, withDocument, Host.activeOrHint, ha]
  dsimp only
  rw [executeBridge, execute_ok (effectsOf_run i a n), hsend]
  show ({ i with
    session := { i.session with connection := (i.session.connection.notify _ _).2 } } : Interaction) = _
  rw [Rpc.Connection.notify_of_accepted hup]
  rfl

/-- **The command under the cursor** is looked up at the cursor, in a document that is supported. -/
theorem obey_under {a : ActiveEditor} (ha : i.host.active = some a) :
    i.obey .under =
      if i.session.context.settings.isSupported a.document then
        match (i.session.context.lenses.findAt? a.document.uri a.cursor).bind (·.command) with
        | some c => { i with host := i.host.execute c }
        | none => i.print [.err (warningLine noCommandUnderCursor)]
      else i := by
  have hactive : (i.session.surroundings i.surroundings).active = some a := ha
  have heditor : i.session.context.supportedEditor (i.session.surroundings i.surroundings) =
      if i.session.context.settings.isSupported a.document then some a else none := by
    rw [Context.supportedEditor, hactive]
    rfl
  have hrun : i.effectsOf (BridgeCommand.name .executeUnderCursor) [] =
      i.session.context.runCommand (i.session.surroundings i.surroundings) [] .executeUnderCursor :=
    Context.run_name _
  rw [Context.runCommand, heditor] at hrun
  rw [obey, executeBridge]
  split
  · rename_i h
    rw [if_pos h] at hrun
    dsimp only at hrun
    rw [Context.runUnderCursor] at hrun
    cases hfind : (i.session.context.lenses.findAt? a.document.uri a.cursor).bind (·.command) with
    | some c =>
      rw [hfind] at hrun
      exact execute_ok hrun
    | none =>
      rw [hfind] at hrun
      exact execute_ok hrun
  · rename_i h
    rw [if_neg h] at hrun
    exact execute_ok hrun

/-- What is typed for a document is answered with a hint when none is open. -/
theorem obey_of_no_document (ha : i.host.active = none) {c : TypedCommand} (hc : c.needsDocument = true) :
    i.obey c = i.print [Host.noDocument] := by
  cases c with
  | run | lenses | links =>
    rw [obey, withDocument, Host.activeOrHint, ha]
    rfl
  | cursor p =>
    rw [obey, Host.moveCursor?, ha]
    rfl
  | _ => cases hc

end Interaction

/-! ## 4. What a line is answered with -/

/-- The first characters of what is printed on the error output. -/
def Output.opening : Output → List Char
  | .out _ => []
  | .err text => text.toList.take 3

/-- The errors of commands open with these. -/
def commandErrorOpenings : List (List Char) := [['u', 'n', 'k'], ['i', 'n', 'v']]

theorem opening_outLine (text : String) : (outLine text).opening ∉ commandErrorOpenings := by
  show [] ∉ commandErrorOpenings
  decide

theorem opening_append (p rest : String) (hp : 3 ≤ p.toList.length) :
    (Output.err (p ++ rest)).opening = p.toList.take 3 := by
  rw [Output.opening, String.toList_append, List.take_append_of_le_length hp]

theorem opening_commandError (e : CommandError) : (errLine e.message).opening ∈ commandErrorOpenings := by
  cases e with
  | unknown name =>
    show (Output.err ("unknown command `" ++ name ++ "`" ++ "\n")).opening ∈ commandErrorOpenings
    rw [String.append_assoc, String.append_assoc, opening_append _ _ (by decide)]
    decide
  | badArguments c cause =>
    show (Output.err ("invalid arguments for `" ++ c.name ++ "`: " ++ cause.message ++ "\n")).opening ∈
      commandErrorOpenings
    rw [String.append_assoc, String.append_assoc, String.append_assoc, opening_append _ _ (by decide)]
    decide

theorem opening_warningLine (m : String) : (Output.err (warningLine m)).opening ∉ commandErrorOpenings := by
  rw [warningLine, String.append_assoc, String.append_assoc, opening_append _ _ (by decide)]
  decide

theorem opening_errorLine (m : String) : (Output.err (errorLine m)).opening ∉ commandErrorOpenings := by
  rw [errorLine, String.append_assoc, String.append_assoc, opening_append _ _ (by decide)]
  decide

theorem opening_parseError (e : TypedCommand.Error) : (errLine e.message).opening ∉ commandErrorOpenings := by
  have hquoted : ∀ w rest, (errLine ("`" ++ w ++ rest)).opening ∉ commandErrorOpenings := by
    intro w rest
    rw [errLine, Output.opening, String.append_assoc, String.append_assoc, String.toList_append]
    show ('`' :: ((w ++ (rest ++ "\n")).toList).take 2) ∉ commandErrorOpenings
    simp [commandErrorOpenings]
  cases e with
  | unrecognized l =>
    show (Output.err ("unrecognized command `" ++ l ++ "`, try `help`" ++ "\n")).opening ∉ commandErrorOpenings
    rw [String.append_assoc, String.append_assoc, opening_append _ _ (by decide)]
    decide
  | _ w => exact hquoted w _

namespace Interaction

variable {i j k : Interaction}

/-- More has been printed, but no error of a command. -/
def Answered (i j : Interaction) : Prop :=
  ∃ os, j.printed = i.printed ++ os ∧ ∀ e : CommandError, errLine e.message ∉ os

theorem answered_of_eq (h : j.printed = i.printed) : Answered i j :=
  ⟨[], h.trans (List.append_nil _).symm, fun _ => List.not_mem_nil⟩

theorem Answered.trans (h : Answered i j) (h' : Answered j k) : Answered i k := by
  obtain ⟨os, hj, hos⟩ := h
  obtain ⟨os', hk, hos'⟩ := h'
  refine ⟨os ++ os', by rw [hk, hj, List.append_assoc], fun e he => ?_⟩
  rcases List.mem_append.mp he with he | he
  · exact hos e he
  · exact hos' e he

/-- What opens in another way is no error of a command. -/
theorem answered_print (i : Interaction) {os : List Output}
    (hos : ∀ o ∈ os, o.opening ∉ commandErrorOpenings) : Answered i (i.print os) :=
  ⟨os, rfl, fun e he => hos _ he (opening_commandError e)⟩

theorem answered_say (i : Interaction) {o : Output} (ho : o.opening ∉ commandErrorOpenings) :
    Answered i (i.print [o]) :=
  answered_print i (List.forall_mem_singleton.mpr ho)

theorem answered_closePick (i : Interaction) (p : Host.Picked) : Answered i (i.closePick p) := by
  obtain ⟨n, chosen⟩ := p
  cases h : i.session.context.pickItems? n with
  | none =>
    rw [closePick_of_not_open h]
    exact answered_of_eq rfl
  | some items =>
    rw [closePick_of_open h]
    exact answered_of_eq rfl

theorem answered_openPick (i : Interaction) (n : Nat) (items : List ListedCommand) :
    Answered i (i.openPick n items) := by
  cases items with
  | nil =>
    rw [openPick_nil]
    exact (answered_say _ (opening_outLine _)).trans (answered_closePick _ _)
  | cons item items =>
    have hprinted : ∀ o ∈ ({ i.host with nextPick := n }.pick (item :: items) pickPlaceholder).2.1,
        o.opening ∉ commandErrorOpenings := by
      intro o ho
      rw [Host.pick, if_neg (by simp)] at ho
      simp only [List.mem_append, List.mem_singleton, List.mem_map] at ho
      rcases ho with (rfl | ⟨⟨item, k⟩, -, rfl⟩) | rfl
      all_goals exact opening_outLine _
    rw [openPick]
    refine (answered_print { i with host := _ } hprinted).trans ?_
    show Answered _ (((i.host.pending.map fun p => (p.1, none)).toList).foldl closePick _)
    cases i.host.pending with
    | none => exact answered_of_eq rfl
    | some p => exact answered_closePick _ _

/-- **No effect shows an error of a command.** -/
theorem answered_present (i : Interaction) (e : Effect) : Answered i (i.present e) := by
  cases e with
  | warning m => exact answered_say i (opening_warningLine m)
  | error m => exact answered_say i (opening_errorLine m)
  | pick n items => exact answered_openPick i n items
  | reveal n =>
    have hrevealed : ∀ o ∈ (i.host.reveal n).2, o.opening ∉ commandErrorOpenings := by
      rw [Host.reveal]
      split
      · split
        · exact fun o ho => absurd ho List.not_mem_nil
        · exact List.forall_mem_singleton.mpr (opening_outLine _)
      · exact fun o ho => absurd ho List.not_mem_nil
    exact answered_print { i with host := (i.host.reveal n).1 } hrevealed
  | post n message =>
    refine answered_print i fun o ho => ?_
    rw [Host.post] at ho
    split at ho
    · exact List.mem_singleton.mp ho ▸ opening_outLine _
    · cases ho
  | _ => exact answered_of_eq rfl

theorem answered_become (i : Interaction) (r : Session × List Effect) : Answered i (i.become r) := by
  refine Answered.trans (j := { i with session := r.1 }) (answered_of_eq rfl) ?_
  rw [become]
  generalize { i with session := r.1 } = k
  induction r.2 generalizing k with
  | nil => exact answered_of_eq rfl
  | cons e es ih => exact (answered_present k e).trans (ih _)

/-- A command that runs is answered by its effects. -/
theorem answered_execute {name : String} {arguments : List Json} {effects : List Effect}
    (h : i.effectsOf name arguments = .ok effects) : Answered i (i.execute name arguments) := by
  rw [execute_ok h]
  exact answered_become i _

/-- Only one command of a document has arguments that can be bad. -/
theorem exists_effectsOf {b : BridgeCommand} (hb : b ≠ .execute) (i : Interaction) (arguments : List Json) :
    ∃ effects, i.effectsOf b.name arguments = .ok effects := by
  cases h : i.effectsOf b.name arguments with
  | ok effects => exact ⟨effects, rfl⟩
  | error e =>
    rw [effectsOf, Context.run_name] at h
    exact absurd (Context.exists_runCommand_error_iff.mp ⟨e, h⟩).1 hb

theorem answered_executeBridge {b : BridgeCommand} (hb : b ≠ .execute) (i : Interaction) (arguments : List Json) :
    Answered i (i.executeBridge b arguments) := by
  obtain ⟨effects, h⟩ := exists_effectsOf hb i arguments
  exact answered_execute h

theorem answered_postFromPanel (i : Interaction) (message : Json) : Answered i (i.postFromPanel message) := by
  rw [postFromPanel]
  split
  · exact answered_of_eq rfl
  · exact answered_become i _

theorem opening_noDocument : Host.noDocument.opening ∉ commandErrorOpenings := by decide

/-- Acting on the active document, or saying that there is none. -/
theorem answered_withDocument {act : ActiveEditor → Interaction} (h : ∀ a, Answered i (act a)) :
    Answered i (i.withDocument act) := by
  rw [withDocument, Host.activeOrHint]
  cases i.host.active with
  | none => exact answered_say i opening_noDocument
  | some a => exact h a

/-- **No typed command is unknown or has bad arguments.** -/
theorem answered_obey (i : Interaction) (c : TypedCommand) : Answered i (i.obey c) := by
  cases c with
  | all | list | under | latest | editor => exact answered_executeBridge (by decide) i []
  | stop | openModel link => exact answered_postFromPanel i _
  | run n => exact answered_withDocument fun a => answered_execute (effectsOf_run i a n)
  | lenses => exact answered_withDocument fun a => answered_of_eq rfl
  | links =>
    refine answered_withDocument fun a => ?_
    split
    · exact answered_of_eq rfl
    · exact answered_say i (opening_outLine _)
  | cursor p =>
    rw [obey]
    split
    · exact answered_of_eq rfl
    · exact answered_say i opening_noDocument
  | help => exact answered_say i (opening_outLine _)
  | mode m | quit => exact answered_of_eq rfl

theorem answered_takeLine (i : Interaction) (text : String) : Answered i (i.takeLine text) := by
  rw [takeLine]
  split
  · dsimp only
    split
    · exact Answered.trans (answered_of_eq rfl) (answered_closePick _ _)
    · exact answered_of_eq rfl
  · rw [parseLine]
    split
    · exact answered_of_eq rfl
    · exact answered_of_eq rfl
    · exact answered_obey i _
    · exact answered_say i (opening_parseError _)

/-! ## 5. Every run -/

theorem active_start (s : Session) (model : Option (TextDocument × String)) (failure : Option LaunchError) :
    (start s model failure).host.active = model.map fun m => ⟨m.1, ⟨0, 0⟩⟩ := by
  obtain ⟨stage, printed, -, h⟩ := exists_start s model failure
  rw [h]
  rfl

/-- **Typed runs carry the current cursor.** Take any session that begins with a document or without, and any run
    of it. The cursor is at the place of the last line that was parsed as a move of the cursor, or at the start of
    the document if there was none.

    Whatever line comes next, the loop takes it when it waits for one, and it is not answered with a command that
    is unknown or has bad arguments. If no quick pick waits:
    a line that moves the cursor does nothing else, and any other line leaves it where it is;
    a typed run tells the server of the command of the document with that index at the cursor, once, if the
    connection takes messages, and does nothing else; reading the frame of that message yields its body, if that
    is not longer than what is read at all;
    the command under the cursor is looked up at the cursor, in a document that is supported, and queued, or the
    user is warned once;
    without a document, what is typed for one is answered with a hint, and that is all. -/
theorem typed_cursor (s : Session) (model : Option (TextDocument × String)) (failure : Option LaunchError)
    {es : List Event} {i : Interaction} (hi : (start s model failure).run? es = some i) :
    let cursor := ((start s model failure).places es).getLast?.getD ⟨0, 0⟩
    i.host.active = model.map (fun m => ⟨m.1, cursor⟩) ∧
    ∀ text, i.stage = .prompt → ∃ j, i.step? (.line text) = some j ∧
      (∃ os, j.printed = i.printed ++ os ∧ ∀ e : CommandError, errLine e.message ∉ os) ∧
      (i.host.pending = none →
        (placeOf? text = none → j.host.active = i.host.active) ∧
        (∀ d body, model = some (d, body) →
          (∀ p, TypedCommand.parse text = .ok (some (.cursor p)) →
            j = { i with host := { i.host with active := some ⟨d, p⟩ } }) ∧
          (∀ n : Int64, TypedCommand.parse text = .ok (some (.run n)) → i.session.connection.accepts = true →
            let message := Rpc.Outgoing.notification "ExecuteAlloyCommand" (some (.arr
              [.str d.uri.text, .int n.toInt, .int cursor.line.toNat, .int cursor.character.toNat]))
            j = { i with session := { i.session with connection := { i.session.connection with
              queue := i.session.connection.queue ++ [message]
              accepted := i.session.connection.accepted ++ [message] } } } ∧
            (message.body.length ≤ Frame.maxBodyBytes →
              ∀ ended rest, Frame.read ended (message.frame ++ rest) = .frame message.body rest)) ∧
          (TypedCommand.parse text = .ok (some .under) →
            j = if i.session.context.settings.isSupported d then
                match (i.session.context.lenses.findAt? d.uri cursor).bind (·.command) with
                | some c => { i with host := i.host.execute c }
                | none => i.print [.err (warningLine noCommandUnderCursor)]
              else i)) ∧
        (model = none → ∀ c, TypedCommand.parse text = .ok (some c) → c.needsDocument = true →
          j = i.print [errLine "no document is open"])) := by
  intro cursor
  have hactive : i.host.active = model.map (fun m => ⟨m.1, cursor⟩) := by
    rw [active_run hi, active_start, Option.map_map]
    rfl
  refine ⟨hactive, fun text hstage => ⟨i.takeLine text, ?_, answered_takeLine i text, fun hnone => ?_⟩⟩
  · rw [step?, hstage]
    rfl
  have htaken : ∀ c, TypedCommand.parse text = .ok (some c) → c ≠ .quit → i.takeLine text = i.obey c := by
    intro c hparse hquit
    rw [takeLine_of_none hnone, parseLine, hparse]
    cases c with
    | quit => exact absurd rfl hquit
    | _ => rfl
  refine ⟨fun hplace => ?_, fun d body hmodel => ?_, fun hmodel c hparse hc => ?_⟩
  · rw [active_takeLine, place?, hnone]
    exact hplace.symm ▸ movedTo_none _
  · have ha : i.host.active = some ⟨d, cursor⟩ := by rw [hactive, hmodel]; rfl
    refine ⟨fun p hparse => ?_, fun n hparse hup => ?_, fun hparse => ?_⟩
    · rw [htaken _ hparse (by simp), obey, Host.moveCursor?, ha]
      rfl
    · rw [htaken _ hparse (by simp), obey_run ha hup, Rpc.Connection.submit, if_pos hup]
      exact ⟨rfl, fun hfits ended rest => Frame.read_encode ended hfits [] rest⟩
    · rw [htaken _ hparse (by simp)]
      exact obey_under ha
  · have ha : i.host.active = none := by rw [hactive, hmodel]; rfl
    have hquit : c ≠ .quit := by
      rintro rfl
      cases hc
    rw [htaken c hparse hquit]
    exact obey_of_no_document ha hc

/-- The cursor is moved, a line is refused, and nothing is found under the cursor; then a command is run there. -/
theorem typed_cursor_moved :
    let s : Session :=
      { port := 50000, context := .start ⟨"alloy", .codeLens⟩ "Alloy" "", connection := .start, dispatched := 0
        dispatcher := .running, process := .start, capabilities := .null, grace := ⟨3000⟩ }
    let d : TextDocument := ⟨⟨"file", true, "", none, "", none, "/a.als", none, none⟩, "alloy", false⟩
    let reply := Frame.encode (Json.arr [.int 1, .null, .null, .arr []]).printBytes
    let es : List Event :=
      [.sends reply, .reads, .resumes, .line "cursor 4 12", .line "cursor 5", .line "under"]
    ∃ i j, (start s (some (d, "")) none).run? es = some i ∧ i.step? (.line " run -1") = some j ∧
      j.session.connection.accepted = i.session.connection.accepted ++
        [.notification "ExecuteAlloyCommand" (some (.arr [.str d.uri.text, .int (-1), .int 4, .int 12]))] := by
  intro s d reply es
  have hrun : ((start s (some (d, "")) none).run? es).map (fun i =>
      (i.stage, i.host.pending.isNone, i.session.connection.accepts,
        (start s (some (d, "")) none).places es)) = some (.prompt, true, true, [⟨4, 12⟩]) := by
    decide +kernel
  obtain ⟨i, hi, hrun⟩ := Option.map_eq_some_iff.mp hrun
  rw [Prod.mk.injEq, Prod.mk.injEq, Prod.mk.injEq] at hrun
  obtain ⟨hstage, hpending, hup, hplaces⟩ := hrun
  obtain ⟨-, hline⟩ := typed_cursor s (some (d, "")) none hi
  obtain ⟨j, hj, -, hidle⟩ := hline " run -1" hstage
  obtain ⟨-, hopen, -⟩ := hidle (Option.isNone_iff_eq_none.mp hpending)
  obtain ⟨-, htyped, -⟩ := hopen d "" rfl
  obtain ⟨hjoined, -⟩ := htyped (-1) (by decide +kernel) hup
  refine ⟨i, j, hi, hj, ?_⟩
  rw [hjoined, hplaces]
  rfl

end Interaction

end Terminal

end EditorBridge
