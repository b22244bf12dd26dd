import EditorBridge.Proofs.Json.RoundTrip
import EditorBridge.Proofs.Rpc.Conservation
import EditorBridge.Proofs.Session.Activation

/-!
# What is sent is read as it was sent

A server reads the method and the parameters in the body of a message, and whether an answer is asked for
(`Utterance.ofBody?`). These are the ones that were sent (`ofBody?_notification`, `ofBody?_request`), if the
parameters hold nothing but integers of 64 bits for numbers and do not nest too deep.

* `Outgoing.parse?_notification` -- the body of a notification is an object of exactly its members;
* **`own_run_of_served`** -- while the writer runs and no request fails as closed, the messages of the
  bridge's own in a run are read as what its events send;
* `written_of_running` -- and their frames stand on the wire, but for those in the queue.
-/

namespace EditorBridge.Rpc

/-! ## 1. Reading a message -/

namespace Outgoing

variable {params : Option Json}

theorem fits_notification (method : String) (h : ∀ j ∈ params, j.Fits (Json.maxDepth - 1)) :
    (notification method params).toJson.Fits Json.maxDepth := by
  rw [toJson, Json.Fits]
  refine ⟨by decide, ?_⟩
  cases params with
  | none => simp [version, optionalMember, Json.Fits, Json.MembersFit]
  | some j => simp [version, optionalMember, Json.Fits, Json.MembersFit, h j rfl]

/-- The members of a notification stand in the order of their keys. -/
theorem normal_notification (method : String) (params : Option Json) :
    (notification method params).toJson.normal = .obj ([("jsonrpc", .str "2.0"), ("method", .str method)] ++
      (params.map Json.normal).toList.map (("params", ·))) := by
  cases params with
  | none =>
    rw [toJson, Json.normal_obj]
    · simp only [version, optionalMember, List.append_nil, List.map_cons, List.map_nil, Json.normal_str]
      rfl
    · exact (by decide : ["jsonrpc", "method"].Pairwise (· < ·))
  | some j =>
    rw [toJson, Json.normal_obj]
    · simp only [version, optionalMember, List.cons_append, List.nil_append, List.map_cons, List.map_nil,
        Json.normal_str]
      rfl
    · exact (by decide : ["jsonrpc", "method", "params"].Pairwise (· < ·))

/-- A notification is read as an object of exactly its members. -/
theorem parse?_notification (method : String) (h : ∀ j ∈ params, j.Fits (Json.maxDepth - 1)) :
    Json.parse? (notification method params).body =
      some (.obj ([("jsonrpc", .str "2.0"), ("method", .str method)] ++
        (params.map Json.normal).toList.map (("params", ·)))) := by
  rw [body, Json.parse?_printBytes (fits_notification method h), normal_notification]

end Outgoing

/-- A request or a notification, as its receiver reads it. -/
structure Utterance where
  method : String
  params : Option Json
  /-- Whether an answer is asked for. -/
  asks : Bool

namespace Utterance

/-- Reads the body of a frame. -/
def ofBody? (body : List UInt8) : Option Utterance :=
  (Json.parse? body).bind fun message =>
    ((message.get? "method").bind Json.str?).map fun method =>
      ⟨method, message.get? "params", (message.get? "id").isSome⟩

variable {method : String} {params : Option Json}

theorem ofBody?_printBytes {ms : List (String × Json)} (hfits : Json.MembersFit (Json.maxDepth - 1) ms)
    (hkeys : (ms.map Prod.fst).Nodup) (hmethod : Json.member? "method" ms = some (.str method)) :
    ofBody? (Json.obj ms).printBytes =
      some ⟨method, (Json.member? "params" ms).map Json.normal, (Json.member? "id" ms).isSome⟩ := by
  have hobj : (Json.obj ms).Fits Json.maxDepth := by
    rw [Json.Fits]
    exact ⟨by decide, hfits⟩
  rw [ofBody?, Json.parse?_printBytes hobj, Option.bind_some, Json.get?_normal "method" hkeys,
    Json.get?_normal "params" hkeys, Json.get?_normal "id" hkeys, hmethod, Option.isSome_map, Option.map_some,
    Json.normal_str]
  rfl

/-- A notification is read as it was sent. -/
theorem ofBody?_notification (h : ∀ j ∈ params, j.Fits (Json.maxDepth - 1)) :
    ofBody? (Outgoing.notification method params).body = some ⟨method, params.map Json.normal, false⟩ := by
  rw [ofBody?, Outgoing.parse?_notification method h]
  cases params with
  | none => rfl
  | some j => rfl

/-- A request is read as it was sent. -/
theorem ofBody?_request (id : Int64) (h : ∀ j ∈ params, j.Fits (Json.maxDepth - 1)) :
    ofBody? (Outgoing.request id method params).body = some ⟨method, params.map Json.normal, true⟩ := by
  have hid := Json.bounds_toInt id
  rw [Outgoing.body, Outgoing.toJson]
  cases params with
  | none =>
    refine ofBody?_printBytes ?_ ?_ rfl
    · simp [Outgoing.version, Outgoing.optionalMember, Json.MembersFit, Json.Fits, hid]
    · simp [Outgoing.version, Outgoing.optionalMember]
  | some j =>
    have hj := h j rfl
    refine ofBody?_printBytes ?_ ?_ rfl
    · simp [Outgoing.version, Outgoing.optionalMember, Json.MembersFit, Json.Fits, hid, hj]
    · simp [Outgoing.version, Outgoing.optionalMember]

end Utterance

/-! ## 2. What a connection sends -/

/-- The parameters that an event sends. -/
def Event.params? : Event → Option Json
  | .notifies _ params => params
  | .requests r => r.params
  | _ => none

/-- What an event sends, as it is read. -/
def Event.utterances : Event → List Utterance
  | .notifies method params => [⟨method, params.map Json.normal, false⟩]
  | .requests r => [⟨r.method, r.params.map Json.normal, true⟩]
  | _ => []

namespace Connection

variable {c : Connection}

/-- What a connection sends in an event is read as it was sent. -/
theorem own_step_of_served (h : c.InOrder) (ha : c.accepts = true) {e : Event}
    (hr : ∀ r, e = .requests r → c.reader ≠ .ended)
    (hfits : ∀ j ∈ e.params?, j.Fits (Json.maxDepth - 1)) :
    ∃ ms, (c.step e).own = c.own ++ ms ∧
      ms.map (fun m => Utterance.ofBody? m.body) = e.utterances.map some := by
  refine ⟨_, own_step h e, ?_⟩
  cases e with
  | notifies method params =>
    rw [submitted_eq h, if_pos ha]
    exact congrArg (fun x => [x]) (Utterance.ofBody?_notification hfits)
  | requests r =>
    rw [submitted_eq h, if_pos ha, offered, if_neg (hr r rfl)]
    exact congrArg (fun x => [x]) (Utterance.ofBody?_request c.nextId hfits)
  | reads =>
    rw [show Event.reads = (Session.Traffic.reads).event from rfl, own_submitted_traffic]
    rfl
  | _ => rfl

/-- A request that does not fail as closed finds the reader not at its end. -/
theorem reader_ne_ended_of_served (h : c.InOrder) {r : Request} {es : List Event}
    (hserved : (c.run (.requests r :: es)).outcome? c.calls.length ≠ some (.error .closed)) :
    c.reader ≠ .ended := by
  intro he
  refine hserved ?_
  rw [h.outcome?_run_request, he]
  rfl

/-- **While the writer runs and no request fails as closed**, what is sent is read as it was sent. -/
theorem own_run_of_served (h : c.InOrder) {es : List Event} (hw : (c.run es).writer = .running)
    (hserved : ∀ k, c.calls.length ≤ k → (c.run es).outcome? k ≠ some (.error .closed))
    (hfits : ∀ e ∈ es, ∀ j ∈ e.params?, j.Fits (Json.maxDepth - 1)) :
    ∃ ms, (c.run es).own = c.own ++ ms ∧
      ms.map (fun m => Utterance.ofBody? m.body) = (es.flatMap Event.utterances).map some := by
  induction es generalizing c with
  | nil => exact ⟨[], (List.append_nil _).symm, rfl⟩
  | cons e es ih =>
    have ha : c.accepts = true := (accepts_iff c).mpr (running_of_run hw)
    have hreader : ∀ r, e = .requests r → c.reader ≠ .ended := by
      rintro r rfl
      exact reader_ne_ended_of_served h (hserved _ (Nat.le_refl _))
    have hlater : ∀ k, (c.step e).calls.length ≤ k →
        ((c.step e).run es).outcome? k ≠ some (.error .closed) := by
      intro k hk
      refine hserved k (Nat.le_trans ?_ hk)
      rw [h.calls_step, List.length_append]
      exact Nat.le_add_right _ _
    obtain ⟨ms, hms, hread⟩ := own_step_of_served h ha hreader (hfits e List.mem_cons_self)
    obtain ⟨ns, hns, hread'⟩ := ih (inOrder_step h e) hw hlater
      fun x hx => hfits x (List.mem_cons_of_mem e hx)
    refine ⟨ms ++ ns, ?_, ?_⟩
    · rw [run_cons, hns, hms, List.append_assoc]
    · rw [List.map_append, hread, hread', List.flatMap_cons, List.map_append]

/-- While the writer runs, the frames of what is accepted stand on the wire, but for those in the queue. -/
theorem written_of_running {es : List Event} (hw : (start.run es).writer = .running) :
    ∃ written, (start.run es).accepted = written ++ (start.run es).queue ∧
      (start.run es).wire = written.flatMap Outgoing.frame ∧
      (Frame.readAll (start.run es).wire).1 = (written.map Outgoing.body).takeWhile Frame.fits ∧
      ((start.run es).peerListens = true →
        ((start.run es).run (List.replicate (start.run es).queue.length .writes)).wire =
          (start.run es).accepted.flatMap Outgoing.frame) := by
  obtain ⟨written, hd⟩ := divides_of_running hw
  have hread := (Frame.readAll_frames (written.map Outgoing.body)).1
  rw [← flatMap_frame, ← hd.wire] at hread
  exact ⟨written, hd.accepted, hd.wire, hread, wire_of_emptied hw⟩

/-- A call is made by a request. -/
theorem mem_calls_run (h : c.InOrder) (es : List Event) {p : Int64 × Request} (hp : p ∈ (c.run es).calls) :
    p ∈ c.calls ∨ .requests p.2 ∈ es := by
  induction es generalizing c with
  | nil => exact Or.inl hp
  | cons e es ih =>
    rcases ih (inOrder_step h e) hp with hp | hp
    · rw [h.calls_step, List.mem_append] at hp
      rcases hp with hp | hp
      · exact Or.inl hp
      · rcases happening_cases c e with ⟨r, rfl⟩ | hmade
        · have hr : p = (c.nextId, r) := List.mem_singleton.mp hp
          exact Or.inr (hr ▸ List.mem_cons_self)
        · rw [hmade] at hp
          cases hp
    · exact Or.inr (List.mem_cons_of_mem e hp)

end Connection

end EditorBridge.Rpc
