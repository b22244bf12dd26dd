import EditorBridge.Proofs.Rpc.Conservation
import EditorBridge.Proofs.Rpc.Decoding
import EditorBridge.Proofs.Rpc.Reading

/-!
# Answers to the requests of the peer

A frame asks for an answer if it decodes and has both a method and an identifier (`asks`). The reader puts
one answer for it into the queue and changes nothing else (`step_reads_of_request`); no other frame has
an answer (`reply?_eq_some_iff`).

* `AnswerTo` -- what the answer to a request has to be;
* `Due` -- the answer that is due for a body, as it is read;
* `due_of_reply?`, `forall₂_due` -- what the reader puts into the queue is read as that;
* **`answers_of_run`** -- as long as the writer runs, the answers that are read on the wire are those that are
  due for the frames that ask, in this order and each once.
-/

namespace EditorBridge.Rpc

/-! ## 1. What the answer is -/

/-- The methods that are answered with null. -/
def acknowledged : List String :=
  ["client/registerCapability", "client/unregisterCapability", "window/workDoneProgress/create"]

/-- What the answer to a request has to be: a result, or the code and the message of an error. -/
inductive AnswerTo (method : String) (params : Option Json) : Except (Int × String) Json → Prop
  | acknowledgement (h : method ∈ acknowledged) : AnswerTo method params (.ok .null)
  /-- As many nulls as there are items. -/
  | configuration {items : List Json} (h : method = "workspace/configuration")
      (hi : params.bind (Json.get? "items") = some (.arr items)) :
      AnswerTo method params (.ok (.arr (List.replicate items.length .null)))
  /-- The items are missing, or they are no array. -/
  | noItems (h : method = "workspace/configuration")
      (hi : ∀ items, params.bind (Json.get? "items") ≠ some (.arr items)) :
      AnswerTo method params (.ok (.arr []))
  | unknown (h : method ∉ "workspace/configuration" :: acknowledged) :
      AnswerTo method params (.error (-32601, "Method not found"))

theorem mem_acknowledged_iff (method : String) :
    method ∈ acknowledged ↔ method = "client/registerCapability" ∨
      method = "client/unregisterCapability" ∨ method = "window/workDoneProgress/create" := by
  simp [acknowledged]

theorem elementsFit_nulls (depth n : Nat) : Json.ElementsFit depth (List.replicate n .null) := by
  induction n with
  | zero => trivial
  | succ n ih => exact ⟨trivial, ih⟩

/-- An array of nulls is read as it was sent. -/
theorem ofBody?_nulls (id : MessageId) (n : Nat) :
    Answer.ofBody? (Outgoing.response id (.ok (.arr (List.replicate n .null)))).body =
      some ⟨id.toJson, .ok (.arr (List.replicate n .null))⟩ := by
  have hfits : (Json.arr (List.replicate n .null)).Fits (Json.maxDepth - 1) := by
    rw [Json.Fits]
    exact ⟨by decide, elementsFit_nulls _ n⟩
  rw [Answer.ofBody?_result id hfits, Json.normal_arr, List.map_replicate, Json.normal_null]

/-- **What is sent in answer to a request is read as what the answer has to be.** -/
theorem ofBody?_answer (id : MessageId) (method : String) (params : Option Json) :
    ∃ outcome, Answer.ofBody? (Outgoing.response id (answer method params)).body = some ⟨id.toJson, outcome⟩ ∧
      AnswerTo method params outcome := by
  unfold answer
  by_cases ha : method ∈ acknowledged
  · rw [if_pos ((mem_acknowledged_iff method).mp ha)]
    exact ⟨_, Answer.ofBody?_result id trivial, .acknowledgement ha⟩
  · rw [if_neg fun h => ha ((mem_acknowledged_iff method).mpr h)]
    by_cases hc : method = "workspace/configuration"
    · rw [if_pos hc]
      refine ⟨_, ofBody?_nulls id _, ?_⟩
      by_cases hi : ∃ items, params.bind (Json.get? "items") = some (.arr items)
      · obtain ⟨items, hi⟩ := hi
        rw [hi]
        exact .configuration hc hi
      · have hnone : (params.bind (Json.get? "items")).bind Json.arr? = none := by
          rw [Option.bind_eq_none_iff]
          intro j hj
          cases j with
          | arr items => exact absurd ⟨items, hj⟩ hi
          | _ => rfl
        rw [hnone]
        exact .noItems hc fun items h => hi ⟨items, h⟩
    · rw [if_neg hc]
      have hread := Answer.ofBody?_error id (e := .methodNotFound) fun j hj => by cases hj
      exact ⟨_, hread, .unknown fun h => (List.mem_cons.mp h).elim hc ha⟩

/-- **The bodies that are answered** are those that decode and have both a method and an identifier. -/
theorem reply?_eq_some_iff {body : List UInt8} {o : Outgoing} :
    reply? body = some o ↔ ∃ m method id, Message.ofBody? body = some m ∧ m.method = some method ∧
      m.id = some id ∧ o = .response id (answer method m.params) := by
  rw [reply?, Option.bind_eq_some_iff]
  constructor
  · rintro ⟨m, hm, ho⟩
    unfold Message.reply? at ho
    split at ho
    · rename_i method id hmethod hid
      cases ho
      exact ⟨m, method, id, hm, hmethod, hid, rfl⟩
    · cases ho
  · rintro ⟨m, method, id, hm, hmethod, hid, rfl⟩
    refine ⟨m, hm, ?_⟩
    rw [Message.reply?, hmethod, hid]

/-! ## 2. What is due -/

/-- Whether a body asks for an answer: it decodes and has both a method and an identifier. -/
def asks (body : List UInt8) : Bool := (Message.ofBody? body).any fun m => m.method.isSome && m.id.isSome

/-- The value of the identifier in a body, if there is one. -/
def idValue? (body : List UInt8) : Option Json :=
  (((Json.Source.parse? body).bind Envelope.of?).bind (·.id)).bind (·.eval? (Json.maxDepth - 1))

/-- The answer that is due for a body: it echoes the identifier and says what it has to. -/
def Due (body : List UInt8) (a : Answer) : Prop :=
  ∃ m method, Message.ofBody? body = some m ∧ m.method = some method ∧ idValue? body = some a.id ∧
    AnswerTo method m.params a.outcome

/-- The identifier that is echoed is the one in the body. -/
theorem idValue?_of_ofBody? {body : List UInt8} {m : Message} (h : Message.ofBody? body = some m) :
    idValue? body = m.id.map MessageId.toJson := by
  obtain ⟨x, e, hx, he, hid, -⟩ := Message.ofBody?_eq_some_iff.mp h
  rw [idValue?, hx, Option.bind_some, Envelope.of?_eq_some_iff.mpr he, Option.bind_some]
  generalize e.id = i, m.id = j at hid ⊢
  cases hid with
  | missing => rfl
  | there hvalue => exact hvalue

/-- The bodies that ask are those that are answered. -/
theorem isSome_reply? (body : List UInt8) : (reply? body).isSome = asks body := by
  rw [reply?, asks]
  cases Message.ofBody? body with
  | none => rfl
  | some m =>
    rw [Option.bind_some, Option.any_some, Message.reply?]
    cases m.method with
    | none => rfl
    | some method => cases m.id <;> rfl

/-- **What the reader puts into the queue for a body is read as what is due for it.** -/
theorem due_of_reply? {body : List UInt8} {o : Outgoing} (h : reply? body = some o) :
    ∃ a, Answer.ofBody? o.body = some a ∧ Due body a := by
  obtain ⟨m, method, id, hm, hmethod, hid, rfl⟩ := reply?_eq_some_iff.mp h
  obtain ⟨outcome, hread, ha⟩ := ofBody?_answer id method m.params
  refine ⟨_, hread, m, method, hm, hmethod, ?_, ha⟩
  rw [idValue?_of_ofBody? hm, hid]
  rfl

theorem forall₂_due (bodies : List (List UInt8)) :
    List.Forall₂ Due (bodies.filter asks)
      ((bodies.filterMap reply?).filterMap fun o => Answer.ofBody? o.body) := by
  induction bodies with
  | nil => exact .nil
  | cons body bodies ih =>
    rw [List.filter_cons, ← isSome_reply?, List.filterMap_cons]
    cases hr : reply? body with
    | none => exact ih
    | some o =>
      obtain ⟨a, hread, hdue⟩ := due_of_reply? hr
      rw [List.filterMap_cons, hread]
      exact .cons hdue ih

/-! ## 3. The answers of a run -/

/-- Whether a message is an answer. -/
def Outgoing.isResponse : Outgoing → Bool
  | .response _ _ => true
  | _ => false

/-- What the bridge sends of its own is read as no answer. -/
theorem Outgoing.ofBody?_of_not_response {m : Outgoing} (h : m.isResponse = false) :
    Answer.ofBody? m.body = none := by
  cases m with
  | request id method params =>
    have hfits : Json.MembersFit 0 [version, ("id", .int id.toInt), ("method", .str method)] := by
      simp [version, Json.MembersFit, Json.Fits, Json.bounds_toInt id]
    have hmethod : ("method", Json.str method) ∈ [version, ("id", .int id.toInt), ("method", .str method)] := by
      simp
    exact Answer.ofBody?_of_method hfits hmethod
  | notification method params =>
    have hfits : Json.MembersFit 0 [version, ("method", .str method)] := by
      simp [version, Json.MembersFit, Json.Fits]
    have hmethod : ("method", Json.str method) ∈ [version, ("method", .str method)] := by simp
    exact Answer.ofBody?_of_method hfits hmethod
  | response id outcome => cases h

/-- The answers among messages, as they are read in their bodies. -/
theorem filterMap_ofBody? (ms : List Outgoing) :
    (ms.map Outgoing.body).filterMap Answer.ofBody? =
      (ms.filter Outgoing.isResponse).filterMap fun o => Answer.ofBody? o.body := by
  induction ms with
  | nil => rfl
  | cons m ms ih =>
    rw [List.map_cons, List.filterMap_cons, ih]
    cases hm : m.isResponse with
    | false => rw [Outgoing.ofBody?_of_not_response hm, List.filter_cons_of_neg (by simp [hm])]
    | true => rw [List.filter_cons_of_pos hm, List.filterMap_cons]

namespace Connection

theorem filter_offered (c : Connection) (e : Event) :
    (c.offered e).filter Outgoing.isResponse = (c.ear.acting e).filterMap reply? := by
  cases e with
  | requests r =>
    rw [offered]
    split
    · rfl
    · rfl
  | reads =>
    rw [offered, Ear.acting]
    cases c.ear.nextBody? with
    | none => rfl
    | some body =>
      cases hr : reply? body with
      | none => simp [hr]
      | some o =>
        obtain ⟨m, method, id, -, -, -, rfl⟩ := reply?_eq_some_iff.mp hr
        simp [hr, Outgoing.isResponse]
  | _ => rfl

/-- If the writer runs after a run, it has run all the time. -/
theorem accepts_of_run {c : Connection} {es : List Event} (hw : (c.run es).writer = .running) :
    c.accepts = true := by
  rw [accepts_iff]
  by_contra hno
  exact (run_of_not_running (c := c) hno es).1 hw

theorem filter_trace_submitted {c : Connection} (h : c.InOrder) {es : List Event}
    (hw : (c.run es).writer = .running) :
    (c.trace submitted es).filter Outgoing.isResponse = (c.bodies es).filterMap reply? := by
  induction es generalizing c with
  | nil => rfl
  | cons e es ih =>
    have hnow : c.submitted e = c.offered e := by
      rw [submitted_eq h e, accepts_of_run hw, if_pos rfl]
    have hlater := ih (inOrder_step h e) hw
    rw [bodies] at hlater ⊢
    rw [trace, trace, List.filter_append, List.filterMap_append, hnow, filter_offered, hlater]

/-- The answers that have been accepted are read as what is due for the bodies that ask. -/
theorem due_of_accepted (es : List Event) (hw : (start.run es).writer = .running) :
    List.Forall₂ Due ((start.bodies es).filter asks)
      (((start.run es).accepted.map Outgoing.body).filterMap Answer.ofBody?) := by
  have hacc : (start.run es).accepted = start.trace submitted es := accepted_run es
  rw [filterMap_ofBody?, hacc, filter_trace_submitted inOrder_start hw]
  exact forall₂_due _

/-- **A request of the peer changes nothing but what is on its way in and out.** -/
theorem step_reads_of_request {c : Connection} (hw : c.writer = .running) {body : List UInt8}
    (hb : c.ear.nextBody? = some body) (ha : asks body = true) :
    ∃ rest o, Frame.read c.peerDone c.inbox = .frame body rest ∧
      c.step .reads = { c with inbox := rest, queue := c.queue ++ [o], accepted := c.accepted ++ [o] } ∧
      ∃ a, Answer.ofBody? o.body = some a ∧ Due body a := by
  obtain ⟨rest, hf⟩ := Ear.exists_of_nextBody? hb
  obtain ⟨o, ho⟩ := Option.isSome_iff_exists.mp ((isSome_reply? body).trans ha)
  refine ⟨rest, o, Ear.read_of_found_frame hf, ?_, due_of_reply? ho⟩
  obtain ⟨m, method, id, hm, hmethod, hid, rfl⟩ := reply?_eq_some_iff.mp ho
  have hin : Incoming.ofBody? body = some (.request method id m.params) := by
    rw [Incoming.ofBody?, hm, Option.map_some, Message.sort, hmethod, hid]
  rw [step_reads, hf]
  simp only [handle, hin]
  exact if_pos ((accepts_iff _).mpr hw)

/-- **Every request of the peer is answered, once and in its turn.** Let the writer run. Then what stands on
    the wire are frames, and reading them yields their bodies, up to the first that is longer than what is read
    at all. The answers that are read in these bodies, with those that still wait to be written, are due one to
    one and in order for the bodies that ask, among those on which the reader has acted; nothing else on the
    wire is read as an answer. Nothing waits when the queue is empty; if the peer takes what is written, as many
    turns of the writer as there are messages in the queue write them all.

    The bodies on which the reader has acted are those of the first frames that have arrived, and all of them
    if the reader was not stopped and has nothing left to do. Acting on a body that asks adds its answer to the
    queue and takes the frame from the inbox; everything else stays as it is. -/
theorem answers_of_run (es : List Event) (hw : (start.run es).writer = .running) :
    let c := start.run es
    let asked := (start.bodies es).filter asks
    (∃ (bodies : List (List UInt8)) (waiting : List Answer), c.wire = bodies.flatMap Frame.encode ∧
      (Frame.readAll c.wire).1 = bodies.takeWhile Frame.fits ∧
      List.Forall₂ Due asked (bodies.filterMap Answer.ofBody? ++ waiting) ∧ (c.queue = [] → waiting = [])) ∧
    (c.peerListens = true →
      let d := c.run (List.replicate c.queue.length .writes)
      ∃ bodies : List (List UInt8), d.wire = bodies.flatMap Frame.encode ∧
        (Frame.readAll d.wire).1 = bodies.takeWhile Frame.fits ∧
        List.Forall₂ Due asked (bodies.filterMap Answer.ofBody?)) ∧
    (start.bodies es <+: Frame.bodiesIn c.peerDone (start.arrivals es) ∧
      (c.reader ≠ .aborted → c.ear.nextBody? = none →
        start.bodies es = Frame.bodiesIn c.peerDone (start.arrivals es))) ∧
    ∀ body, c.ear.nextBody? = some body → asks body = true →
      ∃ rest o, Frame.read c.peerDone c.inbox = .frame body rest ∧
        c.step .reads = { c with inbox := rest, queue := c.queue ++ [o], accepted := c.accepted ++ [o] } ∧
        ∃ a, Answer.ofBody? o.body = some a ∧ Due body a := by
  intro c asked
  have hdue := due_of_accepted es hw
  refine ⟨?_, fun hl => ?_, bodies_of_run es, fun body hb ha => step_reads_of_request hw hb ha⟩
  · obtain ⟨written, hd⟩ := divides_of_running hw
    have hwire : c.wire = (written.map Outgoing.body).flatMap Frame.encode := hd.wire.trans (flatMap_frame _)
    have haccepted : c.accepted = written ++ c.queue := hd.accepted
    rw [show (start.run es).accepted = written ++ c.queue from haccepted, List.map_append,
      List.filterMap_append] at hdue
    refine ⟨_, _, hwire, hwire ▸ (Frame.readAll_frames _).1, hdue, fun hq => ?_⟩
    rw [hq]
    rfl
  · intro d
    have hwire : d.wire = (c.accepted.map Outgoing.body).flatMap Frame.encode :=
      (wire_of_emptied hw hl).trans (flatMap_frame _)
    exact ⟨_, hwire, hwire ▸ (Frame.readAll_frames _).1, hdue⟩

/-- Behind a notification of the bridge's own, the array `["x","m"]` is answered on the wire: it is a request for
    a method that nobody knows. -/
theorem answers_of_run_unknown :
    let body : List UInt8 := [0x5B, 0x22, 0x78, 0x22, 0x2C, 0x22, 0x6D, 0x22, 0x5D]
    let es : List Event := [.notifies "n" none, .receives (Frame.encode body), .reads, .writes, .writes]
    let own := "\x7b\"jsonrpc\":\"2.0\",\"method\":\"n\"\x7d"
    let answer := "\x7b\"jsonrpc\":\"2.0\",\"id\":\"x\",\"error\":" ++
      "\x7b\"code\":-32601,\"message\":\"Method not found\"\x7d\x7d"
    (start.run es).wire = Frame.encode (Text.Utf8.encode own) ++ Frame.encode (Text.Utf8.encode answer) ∧
      ∃ bodies : List (List UInt8), (start.run es).wire = bodies.flatMap Frame.encode ∧
        List.Forall₂ Due [body] (bodies.filterMap Answer.ofBody?) := by
  intro body es own answer
  have hw : (start.run es).writer = .running := by decide +kernel
  have hasked : (start.bodies es).filter asks = [body] := by decide +kernel
  have hqueue : (start.run es).queue.length = 0 := by decide +kernel
  obtain ⟨⟨bodies, waiting, hwire, -, hdue, hnone⟩, -⟩ := answers_of_run es hw
  rw [hasked, hnone (List.length_eq_zero_iff.mp hqueue), List.append_nil] at hdue
  exact ⟨by decide +kernel, bodies, hwire, hdue⟩

end Connection

end EditorBridge.Rpc
