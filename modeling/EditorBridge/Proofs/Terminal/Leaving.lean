import EditorBridge.Proofs.Terminal.Picks
import EditorBridge.Proofs.Terminal.Talk

/-!
# What the loop leaves behind

The loop takes lines and queued commands in any order, and it ends with `quit` or with the input, whether or
not commands wait.

* `ends` -- the events that end the loop; `inLoop_step`, `takesCommands_step` -- no other event does;
* `trace_of_ended` -- when it has ended, no command is asked for or taken any more;
* **`asked_commands`** -- so the commands that waited when the loop ended are the ones never taken;
* `quit_leaves_command` -- and there can be some.
-/

namespace EditorBridge.Terminal.Interaction

variable {i j k : Interaction} {e : Event}

/-! ## 1. The end of the loop -/

/-- Whether an event ends the loop: `quit`, unless the line goes to a quick pick, and the end of the input. -/
def ends (i : Interaction) : Event → Bool
  | .line text => i.host.pending.isNone && isQuit text
  | .inputEnds => true
  | .inputFails _ => true
  | _ => false

theorem isQuit_iff {text : String} : isQuit text = true ↔ TypedCommand.parse text = .ok (some .quit) := by
  rw [isQuit]
  split
  · rename_i hparse
    exact iff_of_true rfl hparse
  · rename_i hparse
    exact iff_of_false Bool.false_ne_true hparse

theorem ends_iff : i.ends e = true ↔ e = .inputEnds ∨ (∃ cause, e = .inputFails cause) ∨
    ∃ text, e = .line text ∧ i.host.pending = none ∧ TypedCommand.parse text = .ok (some .quit) := by
  cases e with
  | line text => simp [ends, isQuit_iff]
  | _ => simp [ends]

theorem parseLine_of_isQuit {text : String} (h : isQuit text = true) : i.parseLine text = i.leave := by
  rw [parseLine, isQuit_iff.mp h]

/-- A line that is not `quit` does not end the loop. -/
theorem inLoop_parseLine (hp : i.stage = .prompt) {text : String} (h : isQuit text = false) :
    (i.parseLine text).stage.inLoop = true := by
  have hl : i.stage.inLoop = true := hp ▸ rfl
  have hobey : ∀ c, (i.obey c).stage.inLoop = true := fun c =>
    (quiet_obey (e := .line text) hp c rfl).stage.elim (fun hs => hs ▸ hl) And.right
  rw [parseLine]
  split
  · exact hl
  · rename_i hparse
    rw [isQuit_iff.mpr hparse] at h
    cases h
  · exact hobey _
  · exact hl

theorem inLoop_takeLine (hs : i.desk.Sound) (hp : i.stage = .prompt) (text : String) :
    (i.takeLine text).stage.inLoop = !i.ends (.line text) := by
  rw [ends]
  cases hw : i.host.pending with
  | some p =>
    rw [takeLine_of_pending hs hw]
    show i.stage.inLoop = true
    rw [hp]
    rfl
  | none =>
    rw [takeLine_of_none hw]
    cases hq : isQuit text with
    | true =>
      rw [parseLine_of_isQuit hq]
      rfl
    | false => exact inLoop_parseLine hp hq

/-- **The loop ends** with the events that end it and with no other one. -/
theorem inLoop_step (hs : i.desk.Sound) (h : i.step? e = some j) :
    j.stage.inLoop = (i.stage.inLoop && !i.ends e) := by
  have hquiet : i.ends e = false → Quiet i e j → j.stage.inLoop = (i.stage.inLoop && !i.ends e) := by
    intro he hq
    rw [he, Bool.not_false, Bool.and_true]
    rcases hq.stage with hstage | ⟨hi, hj⟩
    · rw [hstage]
    · rw [hi, hj]
  obtain ⟨-, hnext⟩ := next_of_step? h
  cases hnext with
  | stream t he => exact hquiet (by cases t <;> cases he <;> rfl) (quiet_stream t he)
  | dispatches hd => exact hquiet rfl (quiet_dispatches hd)
  | relays hr => exact hquiet rfl (quiet_relays hr)
  | line hp =>
    rw [inLoop_takeLine hs hp, hp]
    rfl
  | inputEnds hp | inputFails hp =>
    rw [hp]
    rfl
  | @command c queue hp hq =>
    have hexecuted := quiet_execute (e := .command) { i with host := { i.host with queue } } c.command
      (c.arguments.getD []) rfl
    exact hquiet rfl ⟨hexecuted.connection, hexecuted.language, hexecuted.model, hexecuted.stage⟩
  | goesOn hl =>
    rw [hl]
    rfl
  | agreed hl | patienceEnds hl | finishes hl =>
    rw [hl]
    rfl
  | process => exact (Bool.and_true _).symm

/-- With the loop, the terminal stops to take commands. -/
theorem takesCommands_step (hs : i.desk.Sound) (h : i.step? e = some j) :
    j.host.takesCommands = (i.host.takesCommands && !i.ends e) := by
  have hstep : j.host.takesCommands = (i.deskAfter e).takesCommands :=
    congrArg Desk.takesCommands (desk_step hs h)
  rw [hstep]
  cases e with
  | dispatches =>
    refine Eq.trans ?_ (Bool.and_true _).symm
    rw [deskAfter]
    cases i.listing? with
    | none => rfl
    | some items =>
      rw [Option.elim_some, Desk.offer]
      split <;> rfl
  | line text =>
    rw [ends, deskAfter]
    cases i.host.pending with
    | some p => exact (Bool.and_true _).symm
    | none =>
      cases isQuit text with
      | true => exact (Bool.and_false _).symm
      | false => exact (Bool.and_true _).symm
  | inputEnds | inputFails => exact (Bool.and_false _).symm
  | _ => exact (Bool.and_true _).symm

/-- The terminal takes commands as long as the loop goes on. -/
theorem takesCommands_run {es : List Event} (hs : i.desk.Sound) (h : i.host.takesCommands = i.stage.inLoop)
    (hj : i.run? es = some j) : j.host.takesCommands = j.stage.inLoop := by
  induction es generalizing i with
  | nil =>
    cases hj
    exact h
  | cons e es ih =>
    rw [run?_cons, Option.bind_eq_some_iff] at hj
    obtain ⟨k, hk, hrun⟩ := hj
    have hsound : k.desk.Sound := desk_step hs hk ▸ sound_deskAfter hs e
    exact ih hsound (by rw [takesCommands_step hs hk, inLoop_step hs hk, h]) hrun

/-! ## 2. Afterwards -/

/-- The loop has ended, and the terminal takes no commands. -/
structure Ended (i : Interaction) : Prop where
  sound : i.desk.Sound
  stage : i.stage.inLoop = false
  refuses : i.host.takesCommands = false

theorem ended_of_ends (hs : i.desk.Sound) (h : i.step? e = some j) (he : i.ends e = true) : j.Ended := by
  refine ⟨?_, ?_, ?_⟩
  · rw [desk_step hs h]
    exact sound_deskAfter hs e
  · rw [inLoop_step hs h, he, Bool.not_true, Bool.and_false]
  · rw [takesCommands_step hs h, he, Bool.not_true, Bool.and_false]

theorem Ended.step (h : i.Ended) (he : i.step? e = some j) : j.Ended := by
  refine ⟨?_, ?_, ?_⟩
  · rw [desk_step h.sound he]
    exact sound_deskAfter h.sound e
  · rw [inLoop_step h.sound he, h.stage, Bool.false_and]
  · rw [takesCommands_step h.sound he, h.refuses, Bool.false_and]

theorem Ended.taken (h : i.Ended) (hj : i.step? e = some j) : i.taken e = [] := by
  cases e with
  | command =>
    obtain ⟨-, hnext⟩ := next_of_step? hj
    clear hj
    cases hnext with
    | stream t he => cases t <;> cases he
    | command hp =>
      have hstage := h.stage
      rw [hp] at hstage
      cases hstage
  | _ => rfl

/-- **When the loop has ended**, no command is asked for or taken any more. -/
theorem trace_of_ended (h : i.Ended) {es : List Event} (hj : i.run? es = some j) :
    i.trace taken es = [] ∧ i.trace asks es = [] := by
  induction es generalizing i with
  | nil => exact ⟨rfl, rfl⟩
  | cons e es ih =>
    rw [run?_cons, Option.bind_eq_some_iff] at hj
    obtain ⟨k, hk, hrun⟩ := hj
    obtain ⟨htaken, hasks⟩ := ih (h.step hk) hrun
    have hnone : i.asks e = [] := by
      rw [asks, h.refuses]
      rfl
    rw [trace_cons _ hk, trace_cons _ hk, h.taken hk, hnone, htaken, hasks]
    exact ⟨rfl, rfl⟩

theorem run?_append (i : Interaction) (es fs : List Event) :
    i.run? (es ++ fs) = (i.run? es).bind (·.run? fs) := by
  induction es generalizing i with
  | nil => rfl
  | cons e es ih =>
    rw [List.cons_append, run?_cons, run?_cons, Option.bind_assoc]
    exact congrArg _ (funext ih)

theorem trace_append {α : Type} (f : Interaction → Event → List α) {es : List Event}
    (h : i.run? es = some j) (fs : List Event) : i.trace f (es ++ fs) = i.trace f es ++ j.trace f fs := by
  induction es generalizing i with
  | nil =>
    cases h
    rfl
  | cons e es ih =>
    rw [run?_cons, Option.bind_eq_some_iff] at h
    obtain ⟨k, hk, hrun⟩ := h
    rw [List.cons_append, trace_cons _ hk, trace_cons _ hk, ih hrun, List.append_assoc]

/-- An event that ends the loop takes no command and asks for none. -/
theorem commands_of_ends (h : i.ends e = true) : i.taken e = [] ∧ i.asks e = [] := by
  cases e with
  | line text =>
    rw [ends, Bool.and_eq_true, Option.isNone_iff_eq_none] at h
    rw [asks_of_none h.1, typedAsks_of_isQuit i h.2, ite_self]
    exact ⟨rfl, rfl⟩
  | inputEnds | inputFails => exact ⟨rfl, by simp [asks, resolutions, underCursor]⟩
  | _ => cases h

/-! ## 3. Every run -/

/-- **The commands that the terminal is asked to run**, over any run of a session.

    The terminal takes commands as long as the loop goes on. Those that have been taken, and then those that
    wait, are those that were asked for, each once and in that order. At the prompt the one that has waited
    longest can be taken, and it is run as it is then.

    The loop ends with `quit` and with the input, and with nothing else; commands that wait do not keep it. What
    waited then is never taken, whatever comes afterwards, and no other command is lost: all commands that were
    asked for are taken exactly if none waited. -/
theorem asked_commands {config : Config} {w : World} {s : Session} (hs : (activate config w).outcome = .ok s)
    {model : Option (TextDocument × String)} {failure : Option LaunchError} {es : List Event}
    {i : Interaction} (hi : (start s model failure).run? es = some i) :
    let i₀ := start s model failure
    i.host.takesCommands = i.stage.inLoop ∧
    i₀.trace taken es ++ i.host.queue = i₀.trace asks es ∧
    (∀ c queue, i.stage = .prompt → i.host.queue = c :: queue → i.step? .command =
      some ({ i with host := { i.host with queue } }.execute c.command (c.arguments.getD []))) ∧
    ∀ e j, i.step? e = some j → i.stage.inLoop = true →
      (j.stage.inLoop = false ↔
        e = .inputEnds ∨ (∃ cause, e = .inputFails cause) ∨
          ∃ text, e = .line text ∧ i.host.pending = none ∧ TypedCommand.parse text = .ok (some .quit)) ∧
      (j.stage.inLoop = false → ∀ fs k, j.run? fs = some k →
        i₀.trace taken (es ++ e :: fs) ++ i.host.queue = i₀.trace asks (es ++ e :: fs) ∧
        (i₀.trace taken (es ++ e :: fs) = i₀.trace asks (es ++ e :: fs) ↔ i.host.queue = [])) := by
  intro i₀
  have hdesk : i₀.desk = ⟨none, [], true, [], 0⟩ := desk_start hs model failure
  have hsound : i₀.desk.Sound := hdesk ▸ ⟨rfl, fun p hp => by cases hp⟩
  have ha : Accounts i₀ es i := accounts_run hsound hi
  have hstart : i₀.host.takesCommands = i₀.stage.inLoop := by
    obtain ⟨stage, printed, hl, hi₀⟩ := exists_start s model failure
    have htakes : i₀.host.takesCommands = true := congrArg Desk.takesCommands hdesk
    rw [htakes, ← hl]
    exact (congrArg (fun i : Interaction => i.stage.inLoop) hi₀).symm
  have hcommands : i₀.trace taken es ++ i.host.queue = i₀.trace asks es := by
    have hempty : i₀.host.queue = [] := congrArg Desk.queue hdesk
    rw [ha.commands, hempty, List.nil_append]
  refine ⟨takesCommands_run hsound hstart hi, hcommands, fun c queue hp hq => ?_,
    fun e j hj hl => ⟨?_, fun hover fs k hk => ?_⟩⟩
  · rw [step?, takeCommand?, hp, hq]
    rfl
  · rw [← ends_iff, inLoop_step ha.sound hj, hl, Bool.true_and, Bool.not_eq_false']
  · have hends : i.ends e = true := by
      rw [inLoop_step ha.sound hj, hl, Bool.true_and, Bool.not_eq_false'] at hover
      exact hover
    obtain ⟨htaken, hasks⟩ := trace_of_ended (ended_of_ends ha.sound hj hends) hk
    obtain ⟨hnotaken, hnoasks⟩ := commands_of_ends hends
    have htakenAll : i₀.trace taken (es ++ e :: fs) = i₀.trace taken es := by
      rw [trace_append taken hi, trace_cons _ hj, hnotaken, htaken, List.append_nil, List.append_nil]
    have hasksAll : i₀.trace asks (es ++ e :: fs) = i₀.trace asks es := by
      rw [trace_append asks hi, trace_cons _ hj, hnoasks, hasks, List.append_nil, List.append_nil]
    rw [htakenAll, hasksAll, ← hcommands]
    exact ⟨rfl, by simp⟩

/-! ## 4. Two sessions -/

/-- A configuration. -/
def plainConfig : Config := ⟨⟨"java", "alloy.jar", ⟨30000⟩, ⟨3000⟩⟩, ⟨"alloy", .codeLens⟩, ⟨"Alloy", none⟩⟩

/-- A server that connects and agrees to the handshake. -/
def agreeingWorld : World :=
  ⟨fun _ => .error "", 50000, none, none, .connected, 7,
    [.sends (Frame.encode
      (Json.arr [.int 1, .null, .null, .obj [("capabilities", .obj [])]]).printBytes)]⟩

/-- A session of a model begins. -/
def startOf (s : Session) : Interaction :=
  start s (some (⟨⟨"file", true, "", none, "", none, "/m.als", none, none⟩, "alloy", false⟩, "run {}")) none

/-- The server offers a lens for the first line of the model. -/
def offersLens : List Event :=
  let lens : CodeLens := ⟨⟨⟨0, 0⟩, ⟨0, 6⟩⟩, some ⟨"run", "ExecuteAlloyCommand",
    some [.str "file:///m.als", .int 0, .int 0, .int 0]⟩, none⟩
  [.sends (Frame.encode (Json.arr [.int 2, .null, .null, .arr [lens.toJson]]).printBytes), .reads, .resumes]

/-- The server agrees to the end, `n` messages are written, and the process ends. -/
def closesDown (n : Nat) : List Event :=
  [.sends (Frame.encode (Json.arr [.int 3]).printBytes), .reads, .resumes] ++ List.replicate n .writes ++
    [.process (.exits ⟨0⟩), .process .seesExit, .finishes]

/-- The command under the cursor is asked for and taken before `quit`: nothing is lost. -/
theorem asked_commands_taken :
    let es : List Event := offersLens ++ [.line "under", .command]
    ∃ s k, (activate plainConfig agreeingWorld).outcome = .ok s ∧
      (startOf s).run? (es ++ .line "quit" :: closesDown 7) = some k ∧ k.stage = .over ∧
      ((startOf s).trace asks (es ++ .line "quit" :: closesDown 7)).length = 1 ∧
      (startOf s).trace taken (es ++ .line "quit" :: closesDown 7) =
        (startOf s).trace asks (es ++ .line "quit" :: closesDown 7) := by
  intro es
  have hrun : (activate plainConfig agreeingWorld).outcome.toOption.bind (fun s =>
      ((startOf s).run? es).bind fun i => (i.step? (.line "quit")).bind fun j =>
        (j.run? (closesDown 7)).map fun k =>
          (i.stage, i.host.queue.length, j.stage.inLoop, k.stage,
            ((startOf s).trace asks (es ++ .line "quit" :: closesDown 7)).length)) =
      some (.prompt, 0, false, .over, 1) := by
    decide +kernel
  cases hs : (activate plainConfig agreeingWorld).outcome with
  | error e =>
    rw [hs] at hrun
    cases hrun
  | ok s =>
    rw [hs] at hrun
    change ((startOf s).run? es).bind _ = _ at hrun
    obtain ⟨i, hi, hrun⟩ := Option.bind_eq_some_iff.mp hrun
    obtain ⟨j, hj, hrun⟩ := Option.bind_eq_some_iff.mp hrun
    obtain ⟨k, hk, hrun⟩ := Option.map_eq_some_iff.mp hrun
    rw [Prod.mk.injEq, Prod.mk.injEq, Prod.mk.injEq, Prod.mk.injEq] at hrun
    obtain ⟨hprompt, hqueue, hleft, hover, hlength⟩ := hrun
    obtain ⟨-, -, -, hends⟩ := asked_commands hs hi
    obtain ⟨-, hafter⟩ := hends _ j hj (hprompt ▸ rfl)
    obtain ⟨-, hall⟩ := hafter hleft _ k hk
    refine ⟨s, k, rfl, ?_, hover, hlength, hall.mpr (List.eq_nil_of_length_eq_zero hqueue)⟩
    rw [run?_append, hi, Option.bind_some, run?_cons, hj, Option.bind_some, hk]

/-- The command under the cursor is asked for, and `quit` is taken before it: the session ends as it should, and
    the server is never told of the command. -/
theorem quit_leaves_command :
    let es : List Event := offersLens ++ .line "under" :: .line "quit" :: closesDown 6
    ∃ s k, (activate plainConfig agreeingWorld).outcome = .ok s ∧ (startOf s).run? es = some k ∧
      k.stage = .over ∧
      ((startOf s).trace asks es).map (·.command) = ["ExecuteAlloyCommand"] ∧
      (startOf s).trace taken es = [] ∧
      k.session.connection.accepted.filterMap (·.method?) =
        ["initialize", "initialized", "textDocument/didOpen", "textDocument/codeLens", "textDocument/didClose",
          "shutdown", "exit"] := by
  intro es
  have hrun : (activate plainConfig agreeingWorld).outcome.toOption.bind (fun s =>
      ((startOf s).run? es).map fun k =>
        (k.stage, ((startOf s).trace asks es).map (·.command), ((startOf s).trace taken es).length,
          k.session.connection.accepted.filterMap (·.method?))) =
      some (.over, ["ExecuteAlloyCommand"], 0, ["initialize", "initialized", "textDocument/didOpen",
        "textDocument/codeLens", "textDocument/didClose", "shutdown", "exit"]) := by
    decide +kernel
  cases hs : (activate plainConfig agreeingWorld).outcome with
  | error e =>
    rw [hs] at hrun
    cases hrun
  | ok s =>
    rw [hs] at hrun
    obtain ⟨k, hk, hrun⟩ := Option.map_eq_some_iff.mp hrun
    rw [Prod.mk.injEq, Prod.mk.injEq, Prod.mk.injEq] at hrun
    obtain ⟨hover, hasks, htaken, haccepted⟩ := hrun
    exact ⟨s, k, rfl, hk, hover, hasks, List.eq_nil_of_length_eq_zero htaken, haccepted⟩

end EditorBridge.Terminal.Interaction
