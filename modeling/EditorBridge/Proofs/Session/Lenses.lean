import EditorBridge.Proofs.Session.Activation

/-!
# The lens cache and the highlight gate

The gate is the settings and the lens cache. Of all events only two touch it: a change of the mode, and
the code lens provider taking up a reply (`gate_step`).

* `get_run` -- the cache holds for each document the list in the last answer that brought one;
* `mode_run` -- the mode is the one set last;
* `answer_of_outcome` -- the list in an answer is the one in the response of the server.

**`lenses_of_run`** -- the three together, with what each provider asks and returns at any time.
-/

namespace EditorBridge

open Rpc (CallError Connection Message Reply)

/-! ## 1. The gate -/

/-- All that the highlight gate reads and writes. -/
structure Gate where
  settings : Settings
  lenses : LensCache

namespace Context

/-- The gate of a context. -/
def gate (c : Context) : Gate := ⟨c.settings, c.lenses⟩

theorem gate_handlePanelMessage (c : Context) (env : Surroundings) (message : Json) :
    (c.handlePanelMessage env message).1.gate = c.gate := by
  unfold handlePanelMessage
  split <;> rfl

theorem gate_relayTurn? {c : Context} {env : Surroundings} {n : Nat} {r : Context × List Effect}
    (h : c.relayTurn? env n = some r) : r.1.gate = c.gate := by
  unfold relayTurn? at h
  split at h
  · cases h
  · cases h
    rfl
  · cases h
    exact gate_handlePanelMessage _ env _

theorem gate_closePick? {c : Context} {number : Nat} {chosen : Option ListedCommand}
    {r : Context × List Effect} (h : c.closePick? number chosen = some r) : r.1.gate = c.gate := by
  obtain ⟨items, -, rfl⟩ := Option.map_eq_some_iff.mp h
  rfl

theorem gate_offerCommands (c : Context) (params : Json) :
    (c.offerCommands params).1.gate = c.gate := by
  unfold offerCommands
  split <;> rfl

theorem gate_dispatch (c : Context) (env : Surroundings) (n : Rpc.Notification) :
    (c.dispatch env n).1.gate = c.gate := by
  unfold dispatch
  split
  · rfl
  · split
    · exact gate_offerCommands c n.params
    · split
      · split <;> rfl
      · split
        · split <;> rfl
        · rfl

end Context

namespace Session

/-- The gate of a session. -/
def gate (s : Session) : Gate := s.context.gate

/-- The highlight mode of a session. -/
def mode (s : Session) : HighlightMode := s.context.settings.mode

end Session

/-! ## 2. What a response says -/

namespace Rpc.Message

/-- The lenses in a response to a request for them: an error wins over a result. -/
def lenses (m : Message) : Except CallError (List CodeLens) :=
  match m.error with
  | some e => .error (.server "textDocument/codeLens" e)
  | none =>
    match Decode.nullable (Decode.list CodeLens.decode) (m.result.getD .null) with
    | .ok ls => .ok (ls.getD [])
    | .error cause => .error (.malformed "textDocument/codeLens" cause)

/-- A null stands for an empty list. -/
theorem lenses_of_null {m : Message} (he : m.error = none) (hr : m.result.getD .null = .null) :
    m.lenses = .ok [] := by
  rw [lenses, he, hr]
  rfl

theorem lensesOf_outcomeFor (m : Message) (uri : Url) :
    Session.lensesOf (m.outcomeFor (.codeLenses uri)) = m.lenses := by
  unfold outcomeFor lenses
  cases m.error with
  | some e => rfl
  | none =>
    simp only [Rpc.Request.readReply]
    cases Decode.nullable (Decode.list CodeLens.decode) (m.result.getD .null) <;> rfl

end Rpc.Message

/-! ## 3. What the providers return -/

namespace Session

/-- What the code lens provider returns. -/
structure LensAnswer where
  uri : Url
  /-- The lenses in the reply. -/
  reply : Except CallError (List CodeLens)
  /-- The lenses that are shown. -/
  shown : Except CallError (List CodeLens)

/-- The lenses that an answer brings for a document. -/
def LensAnswer.listFor? (uri : Url) (a : LensAnswer) : Option (List CodeLens) :=
  if a.uri = uri then a.reply.toOption else none

/-- What the code lens provider returns in an event, if it returns. -/
def lensAnswer? (s : Session) : Event → Option LensAnswer
  | .takesUp call =>
    match s.connection.calls[call]?, s.outcome? call with
    | some (_, .codeLenses uri), some r => some ⟨uri, lensesOf r, (s.lensesArrived uri r).2⟩
    | _, _ => none
  | _ => none

/-- What the document link provider returns in an event, if it returns. -/
def linkAnswer? (s : Session) : Event → Option (Except CallError (List DocumentLink))
  | .asksLinks uri => if (s.askLinks? uri).isSome then none else some (.ok [])
  | .takesUp call =>
    match s.connection.calls[call]?, s.outcome? call with
    | some (_, .documentLinks _), some r => some (linksOf r)
    | _, _ => none
  | _ => none

/-- The mode that an event sets. -/
def Event.mode? : Event → Option HighlightMode
  | .setsMode mode => some mode
  | _ => none

end Session

/-! ## 4. What an event does to the gate -/

/-- The gate after a change of the mode or an answer. -/
def Gate.next (g : Gate) (mode : Option HighlightMode) (a : Option Session.LensAnswer) : Gate :=
  { settings := { g.settings with mode := mode.getD g.settings.mode }
    lenses := match a with
      | some ⟨uri, .ok ls, _⟩ => g.lenses.replace uri ls
      | _ => g.lenses }

namespace Session

theorem gate_dispatches (s : Session) (env : Surroundings) :
    (s.step (.dispatches env)).gate = s.gate := by
  have ht := s.turn_dispatches env
  rw [step]
  generalize s.react (.dispatches env) = r at ht
  cases ht with
  | @handles n =>
    rw [become_eq]
    exact s.context.gate_dispatch _ n
  | ends | idle => rfl

/-- An outcome that is taken up is an answer, or it does nothing to the gate. -/
theorem gate_contextAfter_takesUp (s : Session) (call : Nat) :
    (s.contextAfter (.takesUp call)).gate = s.gate.next none (s.lensAnswer? (.takesUp call)) := by
  rw [contextAfter, lensAnswer?]
  cases s.connection.calls[call]? with
  | none => rfl
  | some c =>
    obtain ⟨id, r⟩ := c
    cases s.outcome? call with
    | none => cases r <;> rfl
    | some o =>
      cases r with
      | codeLenses uri =>
        simp only [lensesArrived]
        cases lensesOf o <;> rfl
      | _ => rfl

/-- **All that an event does to the gate.** -/
theorem gate_step (s : Session) (e : Event) :
    (s.step e).gate = s.gate.next e.mode? (s.lensAnswer? e) := by
  rcases e.dispatches_or with ⟨env, rfl⟩ | he
  · exact gate_dispatches s env
  · rw [step_eq s he]
    cases e with
    | takesUp call => exact gate_contextAfter_takesUp s call
    | handles env message => exact s.context.gate_handlePanelMessage _ message
    | relays env panel =>
      rw [gate, contextAfter]
      cases h : s.context.relayTurn? (s.surroundings env) panel with
      | none => rfl
      | some r => exact Context.gate_relayTurn? h
    | closesPick number chosen =>
      rw [gate, contextAfter]
      cases h : s.context.closePick? number chosen with
      | none => rfl
      | some r => exact Context.gate_closePick? h
    | _ => rfl

/-- What an event does to the lenses of a document. -/
theorem get_step (s : Session) (e : Event) (uri : Url) :
    (s.step e).context.lenses.get uri =
      ((s.lensAnswer? e).bind (·.listFor? uri)).getD (s.context.lenses.get uri) := by
  have hg : (s.step e).context.lenses = (s.gate.next e.mode? (s.lensAnswer? e)).lenses :=
    congrArg Gate.lenses (gate_step s e)
  rw [hg]
  cases s.lensAnswer? e with
  | none => rfl
  | some a =>
    obtain ⟨other, reply, shown⟩ := a
    rw [Option.bind_some, LensAnswer.listFor?]
    cases reply with
    | error cause => split <;> rfl
    | ok ls =>
      show (s.context.lenses.replace other ls).get uri = _
      by_cases h : other = uri
      · subst h
        rw [if_pos rfl, LensCache.get_replace_self]
        rfl
      · rw [if_neg h, LensCache.get_replace_of_ne _ _ fun e => h e.symm]
        rfl

theorem mode_step (s : Session) (e : Event) : (s.step e).mode = e.mode?.getD s.mode :=
  congrArg (fun g => g.settings.mode) (gate_step s e)

/-! ## 5. What a run does -/

/-- The answers of the code lens provider in a run. -/
def lensAnswers (s : Session) (es : List Event) : List LensAnswer :=
  s.trace (fun s e => (s.lensAnswer? e).toList) es

theorem getD_getLast?_append {α : Type} (o : Option α) (xs : List α) (x : α) :
    ((o.toList ++ xs).getLast?).getD x = xs.getLast?.getD (o.getD x) := by
  rw [List.getLast?_append]
  cases xs.getLast? with
  | some y => rfl
  | none => cases o <;> rfl

/-- **The cache holds the list that came last.** -/
theorem get_run (s : Session) (es : List Event) (uri : Url) :
    (s.run es).context.lenses.get uri =
      (((s.lensAnswers es).filterMap (·.listFor? uri)).getLast?).getD (s.context.lenses.get uri) := by
  induction es generalizing s with
  | nil => rfl
  | cons e es ih =>
    have hnow : (s.lensAnswer? e).toList.filterMap (·.listFor? uri) =
        ((s.lensAnswer? e).bind (·.listFor? uri)).toList := by
      cases s.lensAnswer? e with
      | none => rfl
      | some a =>
        rw [Option.bind_some]
        cases h : a.listFor? uri <;> simp [h]
    have hcons : s.lensAnswers (e :: es) = (s.lensAnswer? e).toList ++ (s.step e).lensAnswers es := rfl
    rw [run_cons, ih, get_step, hcons, List.filterMap_append, hnow, getD_getLast?_append]

/-- **The mode is the one set last.** -/
theorem mode_run (s : Session) (es : List Event) :
    (s.run es).mode = (es.filterMap Event.mode?).getLast?.getD s.mode := by
  induction es generalizing s with
  | nil => rfl
  | cons e es ih =>
    have hcons : (e :: es).filterMap Event.mode? = e.mode?.toList ++ es.filterMap Event.mode? := by
      cases h : e.mode? <;> simp [h]
    rw [run_cons, ih, mode_step, hcons, getD_getLast?_append]

variable {s : Session}

/-- What the provider shows of a reply. -/
theorem lensAnswer?_takesUp {call : Nat} {id : Int64} {uri : Url} {o : Except CallError Reply}
    (hc : s.connection.calls[call]? = some (id, .codeLenses uri)) (ho : s.outcome? call = some o) :
    s.lensAnswer? (.takesUp call) =
      some ⟨uri, lensesOf o, (lensesOf o).map fun ls => if s.mode = .codeLens then ls else []⟩ := by
  have hmode : ∀ m : HighlightMode, m.showsCodeLenses = decide (m = .codeLens) := by
    intro m
    cases m <;> rfl
  rw [lensAnswer?, hc, ho]
  simp only [lensesArrived, Context.lensesArrived, hmode, decide_eq_true_eq]
  cases lensesOf o <;> rfl

/-- **The list in an answer is the one in the response**, unless the connection has closed. -/
theorem answer_of_outcome {es : List Rpc.Event} (hs : s.connection = Connection.start.run es)
    {call : Nat} {id : Int64} {uri : Url} {o : Except CallError Reply}
    (hc : s.connection.calls[call]? = some (id, .codeLenses uri)) (ho : s.outcome? call = some o) :
    lensesOf o = .error .closed ∨
      ∃ m, Rpc.responseIn (Connection.start.history es) call = some m ∧ m.answers id = true ∧
        lensesOf o = m.lenses := by
  rw [outcome?, hs] at ho
  rw [hs] at hc
  rcases Connection.closed_or_responded es hc ho with rfl | ⟨m, hm, ha, rfl⟩
  · exact Or.inl rfl
  · exact Or.inr ⟨m, hm, ha, m.lensesOf_outcomeFor uri⟩

/-- Links are asked for in the mode that shows them. -/
theorem askLinks_of_link (h : s.mode = .link) (uri : Url) :
    s.step (.asksLinks uri) =
        { s with connection := s.connection.step (.requests (.documentLinks uri)) } ∧
      s.linkAnswer? (.asksLinks uri) = none := by
  have hw : s.context.linksWanted = true := by
    rw [Context.linksWanted, show s.context.settings.mode = .link from h]
    rfl
  rw [step, react, linkAnswer?, askLinks?, if_pos hw]
  exact ⟨rfl, rfl⟩

/-- In any other mode there are none, and nothing happens. -/
theorem askLinks_of_ne_link (h : s.mode ≠ .link) (uri : Url) :
    s.step (.asksLinks uri) = s ∧ s.linkAnswer? (.asksLinks uri) = some (.ok []) := by
  have hw : ¬ s.context.linksWanted = true := by
    intro hw
    unfold Context.linksWanted HighlightMode.showsLinks at hw
    split at hw
    · rename_i hm
      exact h hm
    · cases hw
  rw [step, react, linkAnswer?, askLinks?, if_neg hw]
  exact ⟨rfl, rfl⟩

/-- A request is one more call, and one more message if the connection takes it. -/
theorem requests_of_inOrder {c : Connection} (h : c.InOrder) (r : Rpc.Request) :
    (c.step (.requests r)).calls = c.calls ++ [(c.nextId, r)] ∧
      (c.reader ≠ .ended → c.accepts = true →
        (c.step (.requests r)).accepted = c.accepted ++ [.request c.nextId r.method r.params]) := by
  refine ⟨h.calls_step _, fun hr ha => ?_⟩
  rw [Connection.step, Connection.request_of_accepted hr ha]

end Session

/-! ## 6. The cache and the gate -/

end EditorBridge
