import EditorBridge.Proofs.Session.Notices
import EditorBridge.Proofs.Session.Run

/-!
# Running a command

A command does one thing, if it does anything: it sends a notification, hands a command to the editor, starts
the standalone editor or warns the user (`Deed`). What comes of it is told by its effects (`Deed.Leaves`).

* **`runCommand_cases`** -- each of the six commands that runs does its deed (`Context.deed?`) or nothing, for
  every proof about what commands do;
* `exists_error_iff` -- what is not run: a name that is not registered, or bad arguments for one command of a
  document;
* **`passes_arguments`** -- the arguments of that command are passed on as they are, or refused;
* **`one_effect`** -- whatever the command, its arguments, the editor, the server and the session are.
-/

namespace EditorBridge

open Rpc (Connection Outgoing)

/-! ## 1. Deeds -/

/-- What a command does, if it does anything. -/
inductive Deed where
  | sends (notification : Outbound)
  | runs (command : Command)
  | launches (file : Option (List UInt8))
  | warns (message : String)

/-- The effects of a deed. A notification that does not reach the server is a warning to the user, and an
    editor that does not start an error message; both are logged. -/
inductive Deed.Leaves (env : Surroundings) : Deed → List Effect → Prop
  | sent (o : Outbound) (h : env.reachable = true) : Leaves env (.sends o) [.notify o true]
  | unsent (o : Outbound) (line : LogLine) (message : String) (h : env.reachable = false) :
      Leaves env (.sends o) [.notify o false, .log line, .warning message]
  | ran (command : Command) : Leaves env (.runs command) [.execute command]
  | launched (file : Option (List UInt8)) (h : env.editorFailure = none) :
      Leaves env (.launches file) [.openEditor file true]
  | unlaunched (file : Option (List UInt8)) (line : LogLine) (failure : LaunchError)
      (h : env.editorFailure = some failure) :
      Leaves env (.launches file) [.openEditor file false, .log line, .error failure.userMessage]
  | warned (message : String) : Leaves env (.warns message) [.warning message]

theorem Settings.isSupported_iff (settings : Settings) (d : TextDocument) :
    settings.isSupported d = true ↔ d.isUntitled = false ∧ d.languageId = settings.languageId := by
  rw [isSupported, Bool.and_eq_true, Bool.not_eq_true', beq_iff_eq]

namespace BridgeCommand

theorem ofName?_name (b : BridgeCommand) : ofName? b.name = some b := by
  cases b <;> decide

theorem name_inj {b b' : BridgeCommand} : b.name = b'.name ↔ b = b' := by
  refine ⟨fun h => ?_, congrArg name⟩
  have hsame := b.ofName?_name
  rw [h, ofName?_name] at hsame
  exact (Option.some.inj hsame).symm

theorem name_of_ofName? {name : String} {b : BridgeCommand} (h : ofName? name = some b) : b.name = name :=
  beq_iff_eq.mp (List.find?_some (p := fun c : BridgeCommand => c.name == name) h)

theorem ofName?_eq_none_iff {name : String} : ofName? name = none ↔ name ∉ all.map BridgeCommand.name := by
  simp only [ofName?, List.find?_eq_none, beq_iff_eq, List.mem_map, not_exists, not_and]

end BridgeCommand

/-! ## 2. What each command does -/

namespace Context

variable {c : Context} {env : Surroundings} {name : String} {arguments : List Json}

/-- The editor that a command is about holds a saved document in the language of the session. -/
theorem supportedEditor_eq_some_iff {e : ActiveEditor} :
    c.supportedEditor env = some e ↔ env.active = some e ∧ e.document.isUntitled = false ∧
      e.document.languageId = c.settings.languageId := by
  rw [supportedEditor, Option.filter_eq_some_iff, Settings.isSupported_iff]

theorem leaves_send (env : Surroundings) (o : Outbound) : (Deed.sends o).Leaves env (send env o) := by
  rw [send]
  split
  · rename_i h
    exact .sent o h
  · rename_i h
    exact .unsent o _ _ (Bool.eq_false_iff.mpr h)

/-- The first fitting lens decides what the command under the cursor does. -/
def deedUnderCursor (c : Context) (e : ActiveEditor) : Deed :=
  match (c.lenses.findAt? e.document.uri e.cursor).bind (·.command) with
  | some command => .runs command
  | none => .warns noCommandUnderCursor

theorem leaves_runUnderCursor (c : Context) (env : Surroundings) (e : ActiveEditor) :
    (c.deedUnderCursor e).Leaves env (c.runUnderCursor e) := by
  rw [deedUnderCursor, runUnderCursor]
  cases (c.lenses.findAt? e.document.uri e.cursor).bind (·.command) with
  | some command => exact .ran command
  | none => exact .warned noCommandUnderCursor

/-- The file that the standalone editor is started with. -/
def fileToOpen (c : Context) (env : Surroundings) : Option (List UInt8) :=
  (c.supportedEditor env).bind fun e => e.document.uri.filePath?

theorem leaves_openEditor (c : Context) (env : Surroundings) :
    (Deed.launches (c.fileToOpen env)).Leaves env (c.openEditor env) := by
  rw [openEditor]
  split
  · rename_i h
    exact .launched _ h
  · rename_i failure h
    exact .unlaunched _ _ failure h

/-- What a known command does, if it does anything. -/
def deed? (c : Context) (env : Surroundings) (arguments : List Json) : BridgeCommand → Option Deed
  | .execute => (ExecuteParams.decode (.arr arguments)).toOption.map fun p => .sends (.execute p)
  | .executeAll => (c.supportedEditor env).map fun e => .sends (.execute (.all e.document.uri))
  | .list => (c.supportedEditor env).map fun e => .sends (.listCommands e.document.uri.text)
  | .executeUnderCursor => (c.supportedEditor env).map c.deedUnderCursor
  | .openEditor => some (.launches (c.fileToOpen env))
  | .openLatestInstance => some ((c.latest.map fun link => .sends (.openModel link)).getD (.warns noInstancesYet))

/-- **All that a command does when it runs**: its deed, or nothing if it has none. -/
theorem runCommand_cases {b : BridgeCommand} {effects : List Effect}
    (h : c.runCommand env arguments b = .ok effects) :
    (c.deed? env arguments b = none ∧ effects = []) ∨
      ∃ deed, c.deed? env arguments b = some deed ∧ deed.Leaves env effects := by
  cases b with
  | execute =>
    rw [runCommand] at h
    split at h
    · rename_i p hp
      cases h
      exact Or.inr ⟨_, by rw [deed?, hp]; rfl, leaves_send env _⟩
    · cases h
  | executeAll | list =>
    rw [runCommand] at h
    split at h
    · rename_i e he
      cases h
      exact Or.inr ⟨_, by rw [deed?, he]; rfl, leaves_send env _⟩
    · rename_i he
      cases h
      exact Or.inl ⟨by rw [deed?, he]; rfl, rfl⟩
  | executeUnderCursor =>
    rw [runCommand] at h
    split at h
    · rename_i e he
      cases h
      exact Or.inr ⟨_, by rw [deed?, he]; rfl, c.leaves_runUnderCursor env e⟩
    · rename_i he
      cases h
      exact Or.inl ⟨by rw [deed?, he]; rfl, rfl⟩
  | openEditor =>
    cases h
    exact Or.inr ⟨_, rfl, leaves_openEditor c env⟩
  | openLatestInstance =>
    rw [runCommand] at h
    split at h
    · rename_i link hlink
      cases h
      exact Or.inr ⟨_, by rw [deed?, hlink]; rfl, leaves_send env _⟩
    · rename_i hnone
      cases h
      exact Or.inr ⟨_, by rw [deed?, hnone]; rfl, .warned _⟩

theorem fileToOpen_eq_some_iff {path : List UInt8} :
    c.fileToOpen env = some path ↔ ∃ e, env.active = some e ∧ e.document.isUntitled = false ∧
      e.document.languageId = c.settings.languageId ∧ e.document.uri.filePath? = some path := by
  simp only [fileToOpen, Option.bind_eq_some_iff, supportedEditor_eq_some_iff, and_assoc]

/-- The commands for the active document do nothing without one. -/
theorem runCommand_of_no_editor {b : BridgeCommand} (hb : b ∈ [.executeAll, .list, .executeUnderCursor])
    (h : c.supportedEditor env = none) : c.runCommand env arguments b = .ok [] := by
  simp only [List.mem_cons, List.not_mem_nil, or_false] at hb
  rcases hb with rfl | rfl | rfl
  all_goals rw [runCommand, h]

theorem run_name (b : BridgeCommand) : c.run env b.name arguments = c.runCommand env arguments b := by
  rw [run, b.ofName?_name]

/-- **A command that runs does at most one deed.** -/
theorem run_leaves {effects : List Effect} (h : c.run env name arguments = .ok effects) :
    effects = [] ∨ ∃ deed : Deed, deed.Leaves env effects := by
  rw [run] at h
  split at h
  · rcases runCommand_cases h with ⟨-, hnone⟩ | ⟨deed, -, hleaves⟩
    · exact Or.inl hnone
    · exact Or.inr ⟨deed, hleaves⟩
  · cases h

/-- One command of a document is run with arguments of the right kind, and only with these. -/
theorem run_execute_of_decode (c : Context) (env : Surroundings) {p : ExecuteParams}
    (h : Json.arr arguments = p.toJson) :
    c.run env (BridgeCommand.name .execute) arguments = .ok (send env (.execute p)) := by
  rw [run_name, runCommand, ExecuteParams.decode_eq_ok_iff.mpr h]

theorem run_execute_of_not_isArguments (c : Context) (env : Surroundings)
    (h : ¬ ExecuteParams.IsArguments arguments) :
    ∃ cause, c.run env (BridgeCommand.name .execute) arguments = .error (.badArguments .execute cause) := by
  obtain ⟨cause, hcause⟩ := ExecuteParams.exists_decode_error h
  exact ⟨cause, by rw [run_name, runCommand, hcause]⟩

theorem exists_runCommand_error_iff {b : BridgeCommand} :
    (∃ e, c.runCommand env arguments b = .error e) ↔
      b = .execute ∧ ¬ ExecuteParams.IsArguments arguments := by
  constructor
  · rintro ⟨e, h⟩
    cases b with
    | execute =>
      refine ⟨rfl, fun harguments => ?_⟩
      obtain ⟨p, hp⟩ := ExecuteParams.isArguments_iff.mp harguments
      rw [← run_name, c.run_execute_of_decode env hp] at h
      cases h
    | openEditor => cases h
    | _ =>
      rw [runCommand] at h
      split at h
      · cases h
      · cases h
  · rintro ⟨rfl, h⟩
    obtain ⟨cause, hcause⟩ := c.run_execute_of_not_isArguments env h
    exact ⟨_, (run_name .execute).symm.trans hcause⟩

/-- **What is not run.** -/
theorem exists_error_iff :
    (∃ e, c.run env name arguments = .error e) ↔ name ∉ BridgeCommand.all.map BridgeCommand.name ∨
      name = BridgeCommand.name .execute ∧ ¬ ExecuteParams.IsArguments arguments := by
  by_cases hname : name ∈ BridgeCommand.all.map BridgeCommand.name
  · obtain ⟨b, -, rfl⟩ := List.mem_map.mp hname
    rw [run_name, exists_runCommand_error_iff, BridgeCommand.name_inj]
    exact ⟨Or.inr, fun h => h.resolve_left fun hno => hno hname⟩
  · rw [run, BridgeCommand.ofName?_eq_none_iff.mpr hname]
    exact ⟨fun _ => Or.inl hname, fun _ => ⟨_, rfl⟩⟩

end Context

/-! ## 3. Commands of a session -/

namespace Session

variable {s : Session} {env : Surroundings} {name : String} {arguments : List Json} {effects : List Effect}

theorem execute_of_ok (h : s.context.run (s.surroundings env) name arguments = .ok effects) :
    s.execute env name arguments = (s.carryOut effects, .ok effects) := by
  rw [execute, h]

theorem execute_of_error {e : CommandError}
    (h : s.context.run (s.surroundings env) name arguments = .error e) :
    s.execute env name arguments = (s, .error e) := by
  rw [execute, h]

theorem execute_snd (s : Session) (env : Surroundings) (name : String) (arguments : List Json) :
    (s.execute env name arguments).2 = s.context.run (s.surroundings env) name arguments := by
  rw [execute]
  split
  · rename_i h
    exact h.symm
  · rename_i h
    exact h.symm

/-- Of all deeds only a notification that is sent changes the session, and that only its connection. -/
theorem carryOut_of_leaves {deed : Deed} (h : deed.Leaves env effects) :
    s.carryOut effects = s ∨ ∃ o : Outbound, effects = [.notify o true] ∧
      s.carryOut effects = { s with connection := (s.connection.notify o.method o.params).2 } := by
  cases h with
  | sent o _ => exact Or.inr ⟨o, rfl, rfl⟩
  | _ => exact Or.inl rfl

/-- **The arguments of one command of a document are passed on as they are, or refused.** Take any session
    whose connection runs, and any editor. A string, an integer of 64 bits and two of 32 bits without a sign
    are sent, in one message whose parameters are these arguments; reading its frame yields its body, if that is
    not longer than what is read at all. Any other arguments are refused as bad ones, and nothing is sent, shown
    or changed. -/
theorem passes_arguments (hw : s.connection.writer = .running) (env : Surroundings) (arguments : List Json) :
    let r := s.execute env "ExecuteAlloyCommand" arguments
    (ExecuteParams.IsArguments arguments →
      let message := Outgoing.notification "ExecuteAlloyCommand" (some (.arr arguments))
      (∃ p, r.2 = .ok [.notify (.execute p) true]) ∧
      r.1 = { s with connection := { s.connection with
        queue := s.connection.queue ++ [message]
        accepted := s.connection.accepted ++ [message] } } ∧
      (s.connection.peerListens = true →
        (r.1.connection.run (List.replicate r.1.connection.queue.length .writes)).wire =
          s.connection.wire ++ s.connection.queue.flatMap Outgoing.frame ++ message.frame) ∧
      (message.body.length ≤ Frame.maxBodyBytes →
        ∀ ended rest, Frame.read ended (message.frame ++ rest) = .frame message.body rest) ∧
      Json.parse? message.body = some (.obj
        [("jsonrpc", .str "2.0"), ("method", .str "ExecuteAlloyCommand"), ("params", .arr arguments)])) ∧
    (¬ ExecuteParams.IsArguments arguments → ∃ cause, r = (s, .error (.badArguments .execute cause))) := by
  refine ⟨fun harguments => ?_, fun hbad => ?_⟩
  · obtain ⟨p, hp⟩ := ExecuteParams.isArguments_iff.mp harguments
    have ha : s.connection.accepts = true := (Rpc.Connection.accepts_iff _).mpr hw
    have hsend : Context.send (s.surroundings env) (.execute p) = [.notify (.execute p) true] := if_pos ha
    have hparams : (Outbound.execute p).params = some (.arr arguments) := congrArg some hp.symm
    have hrun := execute_of_ok (s.context.run_execute_of_decode (s.surroundings env) hp)
    have hr : s.execute env "ExecuteAlloyCommand" arguments =
        ({ s with connection := (s.connection.notify "ExecuteAlloyCommand" (some (.arr arguments))).2 },
          .ok [.notify (.execute p) true]) := by
      rw [hsend] at hrun
      rw [← hparams]
      exact hrun
    have hparse := Outgoing.parse?_notification "ExecuteAlloyCommand" (Outbound.execute p).fits_params
    rw [Outbound.normal_params, hparams] at hparse
    rw [hr]
    refine ⟨⟨p, rfl⟩, ?_, fun hl => Rpc.Connection.wire_of_notified hw hl _ _,
      fun hfits ended rest => Frame.read_encode ended hfits [] rest, hparse⟩
    rw [Rpc.Connection.notify_of_accepted ha, Rpc.Connection.submit, if_pos ha]
  · obtain ⟨cause, hcause⟩ := s.context.run_execute_of_not_isArguments (s.surroundings env) hbad
    exact ⟨cause, execute_of_error hcause⟩

/-- The bounds of all four, and the first integer behind the last one. -/
theorem passes_arguments_bounds :
    let s : Session :=
      { port := 50000, context := .start ⟨"alloy", .codeLens⟩ "Alloy" "", connection := .start, dispatched := 0
        dispatcher := .running, process := .start, capabilities := .null, grace := ⟨3000⟩ }
    let env : Surroundings := ⟨none, true, none, fun _ _ => true⟩
    let arguments : List Json := [.str "", .int (-9223372036854775808), .int 0, .int 4294967295]
    let bad : List Json := [.str "", .int (-9223372036854775808), .int 0, .int 4294967296]
    (s.execute env "ExecuteAlloyCommand" arguments).1.connection.queue =
        [.notification "ExecuteAlloyCommand" (some (.arr arguments))] ∧
      ∃ cause, s.execute env "ExecuteAlloyCommand" bad = (s, .error (.badArguments .execute cause)) := by
  intro s env arguments bad
  have hgood : ExecuteParams.IsArguments arguments := ⟨_, _, _, _, rfl, by decide, by decide, by decide⟩
  have hbad : ¬ ExecuteParams.IsArguments bad := by
    rintro ⟨uri, index, line, character, he, -, -, -, hle⟩
    simp only [bad, List.cons.injEq, Json.int.injEq] at he
    omega
  obtain ⟨-, hsession, -⟩ := (passes_arguments (s := s) rfl env arguments).1 hgood
  exact ⟨congrArg (·.connection.queue) hsession, (passes_arguments rfl env bad).2 hbad⟩

/-- **One command, one effect at most**, for every command and its arguments, every editor and every session,
    whether the server is in reach or not and whether the standalone editor starts or not.

    Only a name that is not registered and bad arguments for one command of a document are errors, and then
    nothing happens at all. Else at most one deed is done: a notification, a command for the editor, a start of
    the standalone editor or a warning. One more warning follows exactly if the notification does not reach the
    server, and one error message if the editor does not start. Of the session nothing changes but that its
    connection takes the notification: the lenses, the latest link, the settings, the panel and all else stay
    what they are. The three commands for the active document do nothing unless it is saved and in the language
    of the session. The standalone editor is always started once, and with the file of the active document
    only if that holds and the document is a file. -/
theorem one_effect (s : Session) (env : Surroundings) (name : String) (arguments : List Json) :
    let r := s.execute env name arguments
    ((∃ e, r.2 = .error e) ↔ name ∉ BridgeCommand.all.map BridgeCommand.name ∨
      name = "ExecuteAlloyCommand" ∧ ¬ ExecuteParams.IsArguments arguments) ∧
    (∀ e, r.2 = .error e → r.1 = s) ∧
    (∀ effects, r.2 = .ok effects →
      (effects = [] ∨ ∃ deed : Deed, deed.Leaves (s.surroundings env) effects) ∧
      (r.1 = s ∨ ∃ o : Outbound, effects = [.notify o true] ∧
        r.1 = { s with connection := (s.connection.notify o.method o.params).2 })) ∧
    (name ∈ ["alloy.executeAllCommands", "alloy.listCommands", "alloy.executeCommandUnderCursor"] →
      (∀ e, env.active = some e →
        e.document.isUntitled = true ∨ e.document.languageId ≠ s.context.settings.languageId) →
      r = (s, .ok [])) ∧
    (name = "alloy.openAlloyEditor" → ∃ file effects, r.2 = .ok effects ∧
      (Deed.launches file).Leaves (s.surroundings env) effects ∧
      ∀ path, file = some path ↔ ∃ e, env.active = some e ∧ e.document.isUntitled = false ∧
        e.document.languageId = s.context.settings.languageId ∧ e.document.uri.filePath? = some path) := by
  intro r
  have hsnd : r.2 = s.context.run (s.surroundings env) name arguments := s.execute_snd env name arguments
  refine ⟨?_, fun e he => ?_, fun effects he => ?_, fun hname hactive => ?_, ?_⟩
  · rw [hsnd]
    exact Context.exists_error_iff
  · exact congrArg Prod.fst (execute_of_error (hsnd.symm.trans he))
  · have hrun := hsnd.symm.trans he
    have hdeed := Context.run_leaves hrun
    have hfst : r.1 = s.carryOut effects := congrArg Prod.fst (execute_of_ok hrun)
    rw [hfst]
    refine ⟨hdeed, ?_⟩
    rcases hdeed with rfl | ⟨deed, hleaves⟩
    · exact Or.inl rfl
    · exact carryOut_of_leaves hleaves
  · obtain ⟨b, hb, rfl⟩ : ∃ b ∈ [BridgeCommand.executeAll, .list, .executeUnderCursor], b.name = name :=
      List.mem_map.mp hname
    have hnone : s.context.supportedEditor (s.surroundings env) = none := by
      refine Option.eq_none_iff_forall_ne_some.mpr fun e he => ?_
      obtain ⟨hopen, hsaved, hlanguage⟩ := Context.supportedEditor_eq_some_iff.mp he
      rcases hactive e hopen with huntitled | hother
      · rw [hsaved] at huntitled
        cases huntitled
      · exact hother hlanguage
    exact execute_of_ok ((Context.run_name b).trans (Context.runCommand_of_no_editor hb hnone))
  · rintro rfl
    exact ⟨s.context.fileToOpen (s.surroundings env), s.context.openEditor (s.surroundings env), hsnd,
      s.context.leaves_openEditor (s.surroundings env), fun path => Context.fileToOpen_eq_some_iff⟩

/-- An untitled document is active and no editor starts: its commands are not listed, and the editor that is
    tried has no file. -/
theorem one_effect_untitled :
    let s : Session :=
      { port := 50000, context := .start ⟨"alloy", .codeLens⟩ "Alloy" "", connection := .start, dispatched := 0
        dispatcher := .running, process := .start, capabilities := .null, grace := ⟨3000⟩ }
    let failure := LaunchError.runtimeNotFound "java"
    let env : Surroundings := ⟨some ⟨⟨default, "alloy", true⟩, ⟨0, 0⟩⟩, true, some failure, fun _ _ => true⟩
    s.execute env "alloy.listCommands" [] = (s, .ok []) ∧
      ∃ line, (s.execute env "alloy.openAlloyEditor" []).2 =
        .ok [.openEditor none false, .log line, .error failure.userMessage] := by
  intro s failure env
  obtain ⟨-, -, -, hgate, -⟩ := one_effect s env "alloy.listCommands" []
  obtain ⟨-, -, -, -, hlaunch⟩ := one_effect s env "alloy.openAlloyEditor" []
  obtain ⟨file, effects, hok, hleaves, hfile⟩ := hlaunch rfl
  refine ⟨hgate (by decide) ?_, ?_⟩
  · rintro e he
    cases he
    exact Or.inl rfl
  · have hnone : file = none := by
      refine Option.eq_none_iff_forall_ne_some.mpr fun path hpath => ?_
      obtain ⟨e, hactive, hsaved, -⟩ := (hfile path).mp hpath
      cases hactive
      cases hsaved
    subst hnone
    rw [hok]
    cases hleaves with
    | launched _ h => cases h
    | unlaunched _ line _ h =>
      cases h
      exact ⟨line, rfl⟩

end Session

end EditorBridge
