import EditorBridge.Proofs.Session.Dispatch
import EditorBridge.Proofs.Session.Lenses
import EditorBridge.Proofs.Session.Notices
import EditorBridge.Proofs.Session.Readback

/-!
# What the server is told about documents

A call on a document is a filter: it sends nothing if the document is not one in a file and in the
language of the session, and else what happened to the document (`Event.told`).

* `DocumentMessage.ofUtterance?` -- what a server reads in a message about a document; what is written for a
  change of a document is read as this change (`ofUtterance?_params`);
* `Event.Says` -- all that an event of a session can say;
* **`read_trace`**, `read_trace_exactly` -- what a run says about documents is what its calls say.

**`documents_synchronized`** -- the same, down to the bytes of the wire.
-/

namespace EditorBridge

open Rpc (Connection Outgoing)

/-! ## 1. Messages about documents -/

/-- A change of a text, as a server reads it. -/
structure ContentChange where
  /-- The text is that of a part of the document. -/
  hasRange : Bool
  text : String
  deriving DecidableEq, Repr

/-- A message about a document, as a server reads it. -/
inductive DocumentMessage where
  | didOpen (uri languageId : String) (version : Int) (text : String)
  | didChange (uri : String) (version : Int) (changes : List ContentChange)
  | didSave (uri : String) (text : Option String)
  | didClose (uri : String)
  | codeLens (uri : String)
  deriving DecidableEq, Repr

/-- The text of a member. -/
def Json.text? (key : String) (j : Json) : Option String := (j.get? key).bind Json.str?

/-- Reads one change of a text. -/
def ContentChange.ofJson? (j : Json) : Option ContentChange :=
  (j.text? "text").map fun text => ⟨(j.get? "range").isSome, text⟩

namespace DocumentMessage

/-- Reads a message about a document. -/
def ofUtterance? (u : Rpc.Utterance) : Option DocumentMessage := do
  let params ← u.params
  let document ← params.get? "textDocument"
  let uri ← document.text? "uri"
  if u.asks then
    if u.method = "textDocument/codeLens" then return .codeLens uri else none
  else if u.method = "textDocument/didOpen" then
    return .didOpen uri (← document.text? "languageId") (← (document.get? "version").bind Json.int?)
      (← document.text? "text")
  else if u.method = "textDocument/didChange" then
    let changes ← (params.get? "contentChanges").bind Json.arr?
    return .didChange uri (← (document.get? "version").bind Json.int?)
      (← changes.mapM ContentChange.ofJson?)
  else if u.method = "textDocument/didSave" then
    match params.get? "text" with
    | none => return .didSave uri none
    | some text => return .didSave uri (some (← text.str?))
  else if u.method = "textDocument/didClose" then return .didClose uri
  else none

/-- Reads the body of a frame. -/
def ofBody? (body : List UInt8) : Option DocumentMessage := (Rpc.Utterance.ofBody? body).bind ofUtterance?

/-- A request for the lenses of a document is read as such. -/
theorem ofUtterance?_codeLenses (uri : Url) :
    ofUtterance? ⟨"textDocument/codeLens", some (Rpc.Request.documentParams uri).normal, true⟩ =
      some (.codeLens uri.text) := by
  simp [ofUtterance?, Rpc.Request.documentParams, Json.get?_normal, Json.member?_cons, Json.text?, Json.str?]

/-- One for its links is read as no such message. -/
theorem ofUtterance?_documentLinks (params : Option Json) :
    ofUtterance? ⟨"textDocument/documentLink", params, true⟩ = none := by
  simp [ofUtterance?]

/-- The other notifications are about no document. -/
theorem ofUtterance?_outbound (o : Outbound) :
    ofUtterance? ⟨o.method, o.params.map Json.normal, false⟩ = none := by
  cases o with
  | execute p => simp [ofUtterance?, Outbound.params, ExecuteParams.toJson, Json.get?]
  | listCommands uri | openModel link => simp [ofUtterance?, Outbound.params, Json.get?]
  | stopExecution => rfl

end DocumentMessage

theorem Rpc.Request.fits_documentParams (uri : Url) : (documentParams uri).Fits (Json.maxDepth - 1) := by
  simp [documentParams, Json.Fits, Json.MembersFit, Json.maxDepth]

/-- The naming of a document is read as it is written. -/
theorem Rpc.Request.normal_documentParams (uri : Url) : (documentParams uri).normal = documentParams uri := by
  simp (disch := simp only [List.map_cons, List.map_nil]; decide) only [documentParams, Json.normal_obj,
    List.map_cons, List.map_nil, Json.normal_str]

namespace DocumentChange

/-- What a server is to read of a change of a document. -/
def message (d : TextDocument) : DocumentChange → DocumentMessage
  | opened version text => .didOpen d.uri.text d.languageId version.toInt text
  | changed version text => .didChange d.uri.text version.toInt [⟨false, text⟩]
  | saved text => .didSave d.uri.text text
  | closed => .didClose d.uri.text

variable (d : TextDocument)

theorem fits_params (change : DocumentChange) : (change.params d).Fits (Json.maxDepth - 1) := by
  have hversion : ∀ v : Int32, -9223372036854775808 ≤ v.toInt ∧ v.toInt ≤ 18446744073709551615 := by
    intro v
    have hlow := v.le_toInt
    have hhigh := v.toInt_lt
    omega
  cases change with
  | opened version text => simp [params, named, Json.Fits, Json.MembersFit, Json.maxDepth, hversion]
  | changed version text =>
    simp [params, named, Json.Fits, Json.MembersFit, Json.ElementsFit, Json.maxDepth, hversion]
  | saved text => cases text <;> simp [params, named, Json.Fits, Json.MembersFit, Json.maxDepth]
  | closed => simp [params, named, Json.Fits, Json.MembersFit, Json.maxDepth]

/-- **A change of a document is read as what it is.** -/
theorem ofUtterance?_params (change : DocumentChange) :
    DocumentMessage.ofUtterance? ⟨change.method, some (change.params d).normal, false⟩ =
      some (change.message d) := by
  cases change with
  | opened version text =>
    simp [DocumentMessage.ofUtterance?, method, params, named, message, Json.get?_normal, Json.member?_cons,
      Json.text?, Json.str?, Json.int?]
  | changed version text =>
    simp [DocumentMessage.ofUtterance?, method, params, named, message, ContentChange.ofJson?, Json.get?_normal,
      Json.member?_cons, Json.text?, Json.str?, Json.int?, Json.arr?]
  | saved text =>
    cases text <;>
      simp [DocumentMessage.ofUtterance?, method, params, named, message, Json.get?_normal, Json.member?_cons,
        Json.text?, Json.str?]
  | closed =>
    simp [DocumentMessage.ofUtterance?, method, params, named, message, Json.get?_normal, Json.member?_cons,
      Json.text?, Json.str?]

end DocumentChange

/-- Lists that read alike member by member read alike. -/
theorem filterMap_congr_map {α β γ : Type} {f : α → Option γ} {g : β → Option γ} {xs : List α} {ys : List β}
    (h : xs.map f = ys.map g) : xs.filterMap f = ys.filterMap g := by
  have hid := congrArg (List.filterMap id) h
  rw [List.filterMap_map, List.filterMap_map] at hid
  exact hid

/-- What is read in all members of a list is all that is read in it. -/
theorem filterMap_of_map_eq {α β : Type} {f : α → Option β} {xs : List α} {ys : List β}
    (h : xs.map f = ys.map some) : xs.filterMap f = ys :=
  (filterMap_congr_map h).trans List.filterMap_some

/-! ## 2. What the calls of a run say -/

theorem Settings.isSynchronized_iff (settings : Settings) (d : TextDocument) :
    settings.isSynchronized d = true ↔ d.uri.scheme = "file" ∧ d.languageId = settings.languageId := by
  rw [isSynchronized, Bool.and_eq_true, beq_iff_eq, beq_iff_eq]

namespace Session

/-- What an event says about documents: a call on one in a file and in the language of the session says what
    happened to it, on any other one nothing; and the code lens provider asks for the lenses of one. -/
def Event.told (languageId : String) : Event → List DocumentMessage
  | .synchronizes d change =>
    if d.uri.scheme = "file" ∧ d.languageId = languageId then [change.message d] else []
  | .opens d text =>
    if d.uri.scheme = "file" ∧ d.languageId = languageId then
      [.didOpen d.uri.text d.languageId 1 text, .codeLens d.uri.text]
    else []
  | .asksLenses uri => [.codeLens uri.text]
  | _ => []

/-- Whether an event is a call on a document, or one in which nobody calls. -/
def Event.isAboutDocuments : Event → Bool
  | .synchronizes .. | .opens .. => true
  | .stream _ | .panel _ | .closesPick .. | .setsMode _ | .takesUp _ | .dispatches _ => true
  | .process _ | .asksToEnd => true
  | _ => false

theorem mem_notices {effects : List Effect} {x : Rpc.Event} (h : x ∈ notices effects) :
    ∃ o : Outbound, x = .notifies o.method o.params := by
  obtain ⟨e, -, he⟩ := List.mem_filterMap.mp h
  split at he
  · rename_i o
    cases he
    exact ⟨o, rfl⟩
  · cases he

/-- The notifications of the context are about no document. -/
theorem unread_notices (effects : List Effect) :
    ((notices effects).flatMap Rpc.Event.utterances).filterMap DocumentMessage.ofUtterance? = [] := by
  refine List.filterMap_eq_nil_iff.mpr fun u hu => ?_
  obtain ⟨x, hx, hmem⟩ := List.mem_flatMap.mp hu
  obtain ⟨o, rfl⟩ := mem_notices hx
  rw [List.mem_singleton.mp hmem]
  exact DocumentMessage.ofUtterance?_outbound o

variable {s : Session}

/-- All that an event can say to the connection. -/
inductive Event.Says : Event → Rpc.Event → Prop
  | tells {e : Event} (o : Outbound) : Says e (.notifies o.method o.params)
  | changes {e : Event} (d : TextDocument) (change : DocumentChange) :
      Says e (.notifies change.method (some (change.params d)))
  | asksLenses {e : Event} (uri : Url) : Says e (.requests (.codeLenses uri))
  | asksLinks {e : Event} (uri : Url) : Says e (.requests (.documentLinks uri))
  | leaves : Says .beginsShutdown (.requests .shutdown)
  | exits {e : Event} : Says e (.notifies Lifecycle.exitMethod none)
  | nothing {e : Event} {x : Rpc.Event} (h : x.utterances = []) : Says e x

/-- **All that an event says.** -/
theorem says_of_mem_traffic {e : Event} {x : Rpc.Event} (hx : x ∈ s.traffic e) : e.Says x := by
  cases e with
  | stream t =>
    rw [List.mem_singleton.mp hx]
    exact .nothing (by cases t <;> rfl)
  | asksLenses uri =>
    rw [List.mem_singleton.mp hx]
    exact .asksLenses uri
  | asksLinks uri =>
    rw [traffic] at hx
    split at hx
    · rw [List.mem_singleton.mp hx]
      exact .asksLinks uri
    · cases hx
  | takesUp call =>
    rw [traffic] at hx
    split at hx
    · rw [List.mem_singleton.mp hx]
      exact .exits
    · cases hx
  | synchronizes d change =>
    rw [traffic] at hx
    split at hx
    · rw [List.mem_singleton.mp hx]
      exact .changes d change
    · cases hx
  | opens d text =>
    rw [traffic] at hx
    split at hx
    · rcases List.mem_cons.mp hx with rfl | hx
      · exact .changes d (.opened 1 text)
      · split at hx
        · rw [List.mem_singleton.mp hx]
          exact .asksLenses d.uri
        · cases hx
    · cases hx
  | beginsShutdown =>
    rcases List.mem_cons.mp hx with rfl | hx
    · exact .nothing rfl
    · rw [List.mem_singleton.mp hx]
      exact .leaves
  | finishes =>
    rw [List.mem_singleton.mp hx]
    exact .nothing rfl
  | _ =>
    obtain ⟨o, rfl⟩ := mem_notices hx
    exact .tells o

theorem Event.Says.fits {e : Event} {x : Rpc.Event} (h : e.Says x) :
    ∀ j ∈ x.params?, j.Fits (Json.maxDepth - 1) := by
  intro j hj
  cases h with
  | tells o => exact o.fits_params j hj
  | changes d change =>
    cases hj
    exact change.fits_params d
  | asksLenses uri | asksLinks uri =>
    cases hj
    exact Rpc.Request.fits_documentParams uri
  | leaves | exits => cases hj
  | nothing hnone =>
    cases x with
    | notifies method params | requests r => cases hnone
    | _ => cases hj

/-- A call on a document says what happened to it, or nothing. -/
theorem read_synchronizes (s : Session) (d : TextDocument) (change : DocumentChange) :
    ((s.traffic (.synchronizes d change)).flatMap Rpc.Event.utterances).map DocumentMessage.ofUtterance? =
      ((Event.synchronizes d change).told s.context.settings.languageId).map some := by
  rw [traffic, Event.told]
  simp only [Settings.isSynchronized_iff]
  split
  · exact congrArg (fun x => [x]) (change.ofUtterance?_params d)
  · rfl

/-- The same for opening it, if the connection takes messages. -/
theorem read_opens (ha : s.connection.accepts = true) (d : TextDocument) (text : String) :
    ((s.traffic (.opens d text)).flatMap Rpc.Event.utterances).map DocumentMessage.ofUtterance? =
      ((Event.opens d text).told s.context.settings.languageId).map some := by
  rw [traffic, Event.told]
  simp only [Settings.isSynchronized_iff, if_pos ha]
  split
  · have hopened := (DocumentChange.opened 1 text).ofUtterance?_params d
    have hlenses := DocumentMessage.ofUtterance?_codeLenses d.uri
    exact congrArg₂ (fun x y => [x, y]) hopened hlenses
  · rfl

/-- **What an event says about documents**, if the connection takes messages. -/
theorem read_traffic (ha : s.connection.accepts = true) (e : Event) :
    ((s.traffic e).flatMap Rpc.Event.utterances).filterMap DocumentMessage.ofUtterance? =
      e.told s.context.settings.languageId := by
  cases e with
  | synchronizes d change => exact filterMap_of_map_eq (read_synchronizes s d change)
  | opens d text => exact filterMap_of_map_eq (read_opens ha d text)
  | asksLenses uri => exact List.filterMap_cons_some (DocumentMessage.ofUtterance?_codeLenses uri)
  | stream t => cases t <;> rfl
  | asksLinks uri =>
    rw [traffic]
    split
    · exact List.filterMap_cons_none (DocumentMessage.ofUtterance?_documentLinks _)
    · rfl
  | takesUp call =>
    rw [traffic]
    split <;> rfl
  | beginsShutdown | finishes => rfl
  | _ => exact unread_notices _

/-- A quick pick that is closed makes nobody tell the server anything. -/
theorem silent_closesPick (s : Session) (number : Nat) (chosen : Option ListedCommand) :
    s.traffic (.closesPick number chosen) = [] := by
  have htraffic : s.traffic (.closesPick number chosen) =
      notices ((s.closePick? number chosen).getD (s, [])).2 := rfl
  rw [htraffic, closePick?, Context.closePick?, Option.map_map]
  cases s.context.pickItems? number with
  | none => rfl
  | some items => cases chosen <;> rfl

/-- Nor does a turn of the dispatcher. -/
theorem silent_dispatches (s : Session) (env : Surroundings) : s.traffic (.dispatches env) = [] := by
  have htraffic : s.traffic (.dispatches env) = notices (s.react (.dispatches env)).2 := rfl
  have hturn := s.turn_dispatches env
  rw [htraffic]
  generalize s.react (.dispatches env) = r at hturn
  cases hturn with
  | handles hd hn => exact Context.notices_dispatch _ _ _
  | ends | idle => rfl

/-- No request for a shutdown has been made. -/
def NotLeaving (s : Session) : Prop := ∀ c ∈ s.connection.calls, ¬ c.2 = .shutdown

/-- The only request of a session that begins is the one of the handshake. -/
theorem notLeaving_of_ok {config : Config} {w : World} (h : (activate config w).outcome = .ok s) :
    s.NotLeaving := by
  obtain ⟨-, html, reply, rfl, -⟩ := Activation.session_of_ok h
  intro c hc hshutdown
  have hopening : c ∈ (Activation.opened w).calls := hc
  rw [Activation.calls_opened, List.mem_singleton] at hopening
  rw [hopening] at hshutdown
  cases hshutdown

theorem read_traffic_exactly (ha : s.connection.accepts = true) (hs : s.NotLeaving) {e : Event}
    (he : e.isAboutDocuments = true) :
    ((s.traffic e).flatMap Rpc.Event.utterances).map DocumentMessage.ofUtterance? =
      (e.told s.context.settings.languageId).map some := by
  cases e with
  | synchronizes d change => exact read_synchronizes s d change
  | opens d text => exact read_opens ha d text
  | stream t => cases t <;> rfl
  | takesUp call =>
    rw [traffic]
    split
    · rename_i id r hcall _
      exact absurd rfl (hs _ (List.mem_of_getElem? hcall))
    · rfl
  | closesPick number chosen => rw [silent_closesPick]; rfl
  | dispatches env => rw [silent_dispatches]; rfl
  | panel a | setsMode mode | process e | asksToEnd => rfl
  | _ => cases he

theorem NotLeaving.step (h : s.NotLeaving) (hin : s.connection.InOrder) {e : Event}
    (he : e ≠ .beginsShutdown) : (s.step e).NotLeaving := by
  intro c hc hshutdown
  rw [connection_step] at hc
  rcases Connection.mem_calls_run hin _ hc with hc | hmem
  · exact h c hc hshutdown
  · rw [hshutdown] at hmem
    cases says_of_mem_traffic hmem with
    | leaves => exact he rfl
    | nothing hnone => cases hnone

theorem language_step (s : Session) (e : Event) :
    (s.step e).context.settings.languageId = s.context.settings.languageId :=
  congrArg (fun g => g.settings.languageId) (gate_step s e)

theorem language_run (s : Session) (es : List Event) :
    (s.run es).context.settings.languageId = s.context.settings.languageId := by
  induction es generalizing s with
  | nil => rfl
  | cons e es ih => rw [run_cons, ih, language_step]

theorem NotLeaving.run (h : s.NotLeaving) (hin : s.connection.InOrder) {es : List Event}
    (hes : .beginsShutdown ∉ es) : (s.run es).NotLeaving := by
  induction es generalizing s with
  | nil => exact h
  | cons e es ih =>
    have he : e ≠ .beginsShutdown := fun heq => hes (heq ▸ List.mem_cons_self)
    have hin' : (s.step e).connection.InOrder := connection_step s e ▸ Connection.inOrder_run hin _
    exact ih (h.step hin he) hin' fun hmem => hes (List.mem_cons_of_mem e hmem)

theorem accepts_of_run {es : List Event} (h : (s.run es).connection.accepts = true) :
    s.connection.accepts = true := by
  rw [connection_run] at h
  exact (Connection.accepts_iff _).mpr (Connection.running_of_run ((Connection.accepts_iff _).mp h))

theorem fits_trace {es : List Event} {x : Rpc.Event} (hx : x ∈ s.trace traffic es) :
    ∀ j ∈ x.params?, j.Fits (Json.maxDepth - 1) := by
  induction es generalizing s with
  | nil => cases hx
  | cons e es ih =>
    rcases List.mem_append.mp hx with hx | hx
    · exact (says_of_mem_traffic hx).fits
    · exact ih hx

/-- **What a run says about documents is what its calls say.** -/
theorem read_trace (es : List Event) (ha : (s.run es).connection.accepts = true) :
    ((s.trace traffic es).flatMap Rpc.Event.utterances).filterMap DocumentMessage.ofUtterance? =
      es.flatMap (Event.told s.context.settings.languageId) := by
  induction es generalizing s with
  | nil => rfl
  | cons e es ih =>
    rw [trace, List.flatMap_append, List.filterMap_append, read_traffic (accepts_of_run ha), ih ha,
      language_step, List.flatMap_cons]

theorem read_trace_exactly (hin : s.connection.InOrder) (hs : s.NotLeaving) {es : List Event}
    (hes : ∀ e ∈ es, e.isAboutDocuments = true) (ha : (s.run es).connection.accepts = true) :
    ((s.trace traffic es).flatMap Rpc.Event.utterances).map DocumentMessage.ofUtterance? =
      (es.flatMap (Event.told s.context.settings.languageId)).map some := by
  induction es generalizing s with
  | nil => rfl
  | cons e es ih =>
    have he := hes e List.mem_cons_self
    have hne : e ≠ .beginsShutdown := by
      rintro rfl
      cases he
    have hin' : (s.step e).connection.InOrder := connection_step s e ▸ Connection.inOrder_run hin _
    have hlater := ih hin' (hs.step hin hne) (fun x hx => hes x (List.mem_cons_of_mem e hx)) ha
    rw [trace, List.flatMap_append, List.map_append, read_traffic_exactly (accepts_of_run ha) hs he, hlater,
      language_step, List.flatMap_cons, List.map_append]

end Session

/-! ## 3. Down to the wire -/

open Session in
/-- **The server is told of the right documents, and all there is to tell.** In any run of an activated
    session in which the writer keeps running and no request fails as closed, what the server reads about
    documents in the messages of the bridge's own is what the calls say, one after another: nothing for a
    document that is not in a file or in another language, and else what happened to it, with all of its
    text. If there are no calls but those on documents, the messages hold nothing else.

    The frames of the messages stand on the wire in this order, those apart that the writer has still to
    write. -/
theorem documents_synchronized {config : Config} {w : World} {s : Session}
    (h : (activate config w).outcome = .ok s) (before es : List Event) :
    let t := s.run before
    let u := t.run es
    let told := es.flatMap (Event.told config.editor.languageId)
    u.connection.writer = .running →
    (∀ k, t.connection.calls.length ≤ k → u.outcome? k ≠ some (.error .closed)) →
    ∃ news, u.connection.own = t.connection.own ++ news ∧
      news.filterMap (fun m => DocumentMessage.ofBody? m.body) = told ∧
      (.beginsShutdown ∉ before → (∀ e ∈ es, e.isAboutDocuments = true) →
        news.map (fun m => DocumentMessage.ofBody? m.body) = told.map some) ∧
      ∃ written, u.connection.accepted = written ++ u.connection.queue ∧
        u.connection.wire = written.flatMap Outgoing.frame ∧
        (Frame.readAll u.connection.wire).1 = (written.map Outgoing.body).takeWhile Frame.fits ∧
        (u.connection.peerListens = true →
          (u.connection.run (List.replicate u.connection.queue.length .writes)).wire =
            u.connection.accepted.flatMap Outgoing.frame) := by
  intro t u told hw hserved
  obtain ⟨es₀, hs, -⟩ := Activation.exists_run_of_ok h
  obtain ⟨-, html, reply, hsession, -⟩ := Activation.session_of_ok h
  have hlanguage : t.context.settings.languageId = config.editor.languageId := by
    rw [language_run, hsession]
    rfl
  have hin : s.connection.InOrder := hs ▸ Connection.inOrder_run Connection.inOrder_start _
  have hint : t.connection.InOrder := by
    rw [connection_run]
    exact Connection.inOrder_run hin _
  have hu : u.connection = t.connection.run (t.trace traffic es) := connection_run t es
  have hustart : u.connection =
      Connection.start.run (es₀ ++ s.trace traffic before ++ t.trace traffic es) := by
    rw [hu, connection_run, hs, Connection.run_append, Connection.run_append]
  have ha : u.connection.accepts = true := (Connection.accepts_iff _).mpr hw
  have houtcome : ∀ k, u.outcome? k = u.connection.outcome? k := fun k => rfl
  simp only [houtcome, hu] at hserved
  obtain ⟨news, hown, hread⟩ :=
    Connection.own_run_of_served hint (hu ▸ hw) hserved fun x hx => fits_trace hx
  have hdocuments : news.map (fun m => DocumentMessage.ofBody? m.body) =
      ((t.trace traffic es).flatMap Rpc.Event.utterances).map DocumentMessage.ofUtterance? := by
    have hbind := congrArg (List.map fun x => x.bind DocumentMessage.ofUtterance?) hread
    rw [List.map_map, List.map_map] at hbind
    exact hbind
  refine ⟨news, hu ▸ hown, ?_, fun hbefore hes => ?_, ?_⟩
  · rw [filterMap_congr_map hdocuments, read_trace es ha, hlanguage]
  · rw [hdocuments, read_trace_exactly hint ((notLeaving_of_ok h).run hin hbefore) hes ha, hlanguage]
  · rw [hustart] at hw ⊢
    exact Connection.written_of_running hw

open Session in
/-- An untitled document and one in another language are passed over; a model is opened, and its lenses are
    answered with null. -/
theorem documents_synchronized_model :
    let config : Config :=
      ⟨⟨"java", "alloy.jar", ⟨30000⟩, ⟨3000⟩⟩, ⟨"alloy", .codeLens⟩, ⟨"Alloy", none⟩⟩
    let response (id : Int) (result : Json) :=
      Frame.encode (Json.arr [.int id, .null, .null, result]).printBytes
    let agrees := response 1 (.obj [("capabilities", .obj [])])
    let w : World := ⟨fun _ => .error "", 50000, none, none, .connected, 7, [.sends agrees]⟩
    let file (path : String) : Url := ⟨"file", true, "", none, "", none, path, none, none⟩
    let untitled : TextDocument :=
      ⟨⟨"untitled", false, "", none, "", none, "Untitled-1", none, none⟩, "alloy", true⟩
    let notes : TextDocument := ⟨file "/notes.md", "markdown", false⟩
    let model : TextDocument := ⟨file "/a.als", "alloy", false⟩
    let es : List Event :=
      [.synchronizes untitled (.opened 1 "text"), .opens model "sig Ä {}\n", .stream .writes, .stream .writes,
        .stream (.receives (response 2 .null)), .stream .reads, .takesUp 1, .opens notes "text",
        .synchronizes model (.changed 2 "sig \"Ä\" {}\n"), .synchronizes notes (.saved (some "text")),
        .synchronizes model (.saved none), .synchronizes model .closed]
    ∃ s news, (activate config w).outcome = .ok s ∧ (s.run es).connection.own = s.connection.own ++ news ∧
      news.map (fun m => DocumentMessage.ofBody? m.body) =
        [some (.didOpen "file:///a.als" "alloy" 1 "sig Ä {}\n"), some (.codeLens "file:///a.als"),
          some (.didChange "file:///a.als" 2 [⟨false, "sig \"Ä\" {}\n"⟩]),
          some (.didSave "file:///a.als" none), some (.didClose "file:///a.als")] := by
  intro config response agrees w file untitled notes model es
  have hrun : (activate config w).outcome.toOption.map (fun s =>
      (s.run es).connection.writer == .running &&
        (s.run es).connection.completed.all fun p => p.2.toOption.isSome) = some true := by
    decide +kernel
  cases hs : (activate config w).outcome with
  | error e =>
    rw [hs] at hrun
    cases hrun
  | ok s =>
    rw [hs] at hrun
    have hboth : ((s.run es).connection.writer == .running &&
        (s.run es).connection.completed.all fun p => p.2.toOption.isSome) = true := Option.some.inj hrun
    rw [Bool.and_eq_true] at hboth
    obtain ⟨hw, hcompleted⟩ := hboth
    have hserved : ∀ k, s.connection.calls.length ≤ k →
        (s.run es).outcome? k ≠ some (.error .closed) := by
      intro k _ hclosed
      rw [outcome?, Connection.outcome?, Option.map_eq_some_iff] at hclosed
      obtain ⟨p, hp, ho⟩ := hclosed
      have hok := List.all_eq_true.mp hcompleted p (List.mem_of_find?_eq_some hp)
      rw [ho] at hok
      cases hok
    have hwriter : (s.run es).connection.writer = .running := beq_iff_eq.mp hw
    have hmain := documents_synchronized hs [] es
    rw [run_nil] at hmain
    obtain ⟨news, hown, -, hexactly, -⟩ := hmain hwriter hserved
    refine ⟨s, news, rfl, hown, (hexactly List.not_mem_nil ?_).trans ?_⟩
    · decide
    · decide +kernel

end EditorBridge
