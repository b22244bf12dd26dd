import EditorBridge.Proofs.Session.Documents
import EditorBridge.Proofs.Terminal.Talk

/-!
# The bridge's own messages on the wire

A server tells what the bridge says of its own from the answers to the server's requests by the method
(`ownMessage?`). What it reads is the whole message (`call`), if the message holds nothing but integers of 64
bits for numbers and does not nest too deep (`Legible`).

* `ownMessage?_body`, `ownMessage?_answer` -- what is read in the body of one message;
* `legible_step` -- and when all that is said stays legible;
* **`read_own`** -- reading the frames on the wire yields the bridge's own messages, whole and in their order,
  those apart that have not been written.
-/

namespace EditorBridge.Rpc

open Json (Fits MembersFit maxDepth)

/-- What is read in the body of a frame that is a message of the bridge's own: an object with a method. -/
def ownMessage? (body : List UInt8) : Option Json := (Json.parse? body).filter fun j => (j.get? "method").isSome

/-- A message as it is read: a request if it has an identifier, and else a notification. -/
def call (id : Option Int) (method : String) (params : Option Json) : Json :=
  .obj (id.toList.map (fun n => ("id", .int n)) ++ [("jsonrpc", .str "2.0"), ("method", .str method)] ++
    params.toList.map fun j => ("params", j))

/-- The method of a message as it is read. -/
def methodOf? (message : Json) : Option String := (message.get? "method").bind Json.str?

/-- Whether a message belongs to the frame of a session, as it is read. -/
def isFramingMessage (message : Json) : Bool := (methodOf? message).any framingMethods.contains

/-! ## 1. One message -/

namespace Outgoing

variable {params : Option Json} {m : Outgoing}

/-- A message as it is read. -/
def asRead (m : Outgoing) : Json := m.toJson.normal

/-- The keys of a message are different from each other. -/
theorem exists_members (m : Outgoing) : ∃ ms, m.toJson = .obj ms ∧ (ms.map Prod.fst).Nodup ∧
    Json.member? "method" ms = m.method?.map .str := by
  cases m with
  | request id method params =>
    refine ⟨_, rfl, ?_, rfl⟩
    cases params <;> simp [version, optionalMember]
  | notification method params =>
    refine ⟨_, rfl, ?_, rfl⟩
    cases params <;> simp [version, optionalMember]
  | response id outcome =>
    cases outcome with
    | ok result | error e =>
      refine ⟨_, rfl, ?_, rfl⟩
      simp [version]

/-- The method stays what it is when a message is read. -/
theorem get?_method_asRead (m : Outgoing) : m.asRead.get? "method" = m.method?.map .str := by
  obtain ⟨ms, hms, hkeys, hmethod⟩ := m.exists_members
  rw [asRead, hms, Json.get?_normal "method" hkeys, hmethod]
  cases m.method? with
  | none => rfl
  | some method => rw [Option.map_some, Option.map_some, Json.normal_str]

theorem isSome_method? (m : Outgoing) : m.method?.isSome = !m.isResponse := by
  cases m <;> rfl

/-- **A message is read whole**, and it is one of the bridge's own unless it is an answer. -/
theorem ownMessage?_body (h : m.toJson.Fits maxDepth) :
    ownMessage? m.body = if m.isResponse then none else some m.asRead := by
  rw [ownMessage?, body, Json.parse?_printBytes h, ← asRead, Option.filter, get?_method_asRead,
    Option.isSome_map, isSome_method?]
  cases m.isResponse <;> rfl

/-- Whether a message belongs to the frame of a session stays what it is, too. -/
theorem isFramingMessage_asRead (m : Outgoing) : isFramingMessage m.asRead = m.isFraming := by
  have hmethod : methodOf? m.asRead = m.method? := by
    rw [methodOf?, get?_method_asRead]
    cases m.method? <;> rfl
  rw [isFramingMessage, hmethod, isFraming]

theorem filter_isFramingMessage (ms : List Outgoing) :
    (ms.map asRead).filter isFramingMessage = (ms.filter isFraming).map asRead := by
  rw [List.filter_map]
  exact congrArg _ (List.filter_congr fun m _ => m.isFramingMessage_asRead)

/-- A request is written with its version first; the identifier is read before it. -/
theorem asRead_request (id : Int64) (method : String) (params : Option Json) :
    (request id method params).asRead = call (some id.toInt) method (params.map Json.normal) := by
  have hid (x v : Json) : Json.putMember "id" x [("jsonrpc", v)] = [("id", x), ("jsonrpc", v)] := rfl
  rw [asRead, toJson, Json.normal, Json.ofMembers, Json.sortMembers, Json.normalMembers_eq, version,
    List.cons_append, List.cons_append, List.map_cons, List.map_cons, List.foldl_cons, List.foldl_cons,
    Json.putMember, hid, Json.foldl_putMember]
  · simp only [Json.normal_str, Json.normal_int]
    cases params <;> rfl
  · cases params with
    | none => exact (by decide : ["id", "jsonrpc", "method"].Pairwise (· < ·))
    | some j => exact (by decide : ["id", "jsonrpc", "method", "params"].Pairwise (· < ·))

theorem asRead_notification (method : String) (params : Option Json) :
    (notification method params).asRead = call none method (params.map Json.normal) :=
  normal_notification method params

theorem fits_request (id : Int64) (method : String) (h : ∀ j ∈ params, j.Fits (maxDepth - 1)) :
    (request id method params).toJson.Fits maxDepth := by
  have hid := Json.bounds_toInt id
  rw [toJson, Fits]
  refine ⟨by decide, ?_⟩
  cases params with
  | none => simp [version, optionalMember, Fits, MembersFit, hid]
  | some j => simp [version, optionalMember, Fits, MembersFit, hid, h j rfl]

/-- An answer is not read as a message of the bridge's own. -/
theorem ownMessage?_answer (id : MessageId) (method : String) (params : Option Json) :
    ownMessage? (response id (answer method params)).body = none := by
  obtain ⟨outcome, hread, -⟩ := ofBody?_answer id method params
  obtain ⟨j, hj, h⟩ := Option.bind_eq_some_iff.mp hread
  rw [ownMessage?, hj]
  split at h
  · cases h
  · rename_i hmethod
    rw [Option.filter, if_neg hmethod]

end Outgoing

/-! ## 2. All messages -/

namespace Connection

variable {c : Connection}

/-- All that is said can be read as it is said. -/
def Legible (c : Connection) : Prop := ∀ m ∈ c.own, m.toJson.Fits maxDepth

theorem legible_of_own {d : Connection} {ms : List Outgoing} (hc : c.Legible) (h : d.own = c.own ++ ms)
    (hms : ∀ m ∈ ms, m.toJson.Fits maxDepth) : d.Legible := by
  intro m hm
  rw [h] at hm
  exact (List.mem_append.mp hm).elim (hc m) (hms m)

/-- **All that is said stays legible** in an event whose parameters can be read. -/
theorem legible_step (h : c.InOrder) (hc : c.Legible) {e : Event}
    (hfits : ∀ j ∈ e.params?, j.Fits (maxDepth - 1)) : (c.step e).Legible := by
  refine legible_of_own hc (own_step h e) fun m hm => ?_
  obtain ⟨hm, hown⟩ := List.mem_filter.mp hm
  rw [submitted_eq h] at hm
  split at hm
  · cases e with
    | notifies method params =>
      rw [List.mem_singleton.mp hm]
      exact Outgoing.fits_notification method hfits
    | requests r =>
      rw [offered] at hm
      split at hm
      · cases hm
      · rw [List.mem_singleton.mp hm]
        exact Outgoing.fits_request _ _ hfits
    | reads =>
      obtain ⟨body, -, ho⟩ := Option.bind_eq_some_iff.mp (Option.mem_toList.mp hm)
      obtain ⟨m, method, id, -, -, -, rfl⟩ := reply?_eq_some_iff.mp ho
      cases hown
    | _ => cases hm
  · cases hm

theorem legible_run (h : c.InOrder) (hc : c.Legible) {es : List Event}
    (hfits : ∀ e ∈ es, ∀ j ∈ e.params?, j.Fits (maxDepth - 1)) : (c.run es).Legible := by
  induction es generalizing c with
  | nil => exact hc
  | cons e es ih =>
    exact ih (inOrder_step h e) (legible_step h hc (hfits e List.mem_cons_self))
      fun x hx => hfits x (List.mem_cons_of_mem e hx)

/-- What the reader puts into the queue are answers to what is asked. -/
theorem exists_answer_of_mem_submitted (h : c.InOrder) {e : Event} {m : Outgoing} (hm : m ∈ c.submitted e)
    (hr : m.isResponse = true) : ∃ id method params, m = .response id (answer method params) := by
  rw [submitted_eq h] at hm
  split at hm
  · cases e with
    | notifies method params =>
      rw [List.mem_singleton.mp hm] at hr
      cases hr
    | requests r =>
      rw [offered] at hm
      split at hm
      · cases hm
      · rw [List.mem_singleton.mp hm] at hr
        cases hr
    | reads =>
      obtain ⟨body, -, ho⟩ := Option.bind_eq_some_iff.mp (Option.mem_toList.mp hm)
      obtain ⟨m, method, id, -, -, -, rfl⟩ := reply?_eq_some_iff.mp ho
      exact ⟨id, method, m.params, rfl⟩
    | _ => cases hm
  · cases hm

theorem exists_answer_of_mem_accepted {es : List Event} {m : Outgoing} (hm : m ∈ (start.run es).accepted)
    (hr : m.isResponse = true) : ∃ id method params, m = .response id (answer method params) := by
  rw [accepted_run] at hm
  have hstart : start.InOrder := inOrder_start
  generalize start = c at hm hstart
  induction es generalizing c with
  | nil => cases hm
  | cons e es ih =>
    rcases List.mem_append.mp hm with hm | hm
    · exact exists_answer_of_mem_submitted hstart hm hr
    · exact ih _ hm (inOrder_step hstart e)

/-- **Reading what has been accepted yields the bridge's own messages.** -/
theorem filterMap_ownMessage? {ms : List Outgoing}
    (hown : ∀ m ∈ ms.filter fun m => !m.isResponse, m.toJson.Fits maxDepth)
    (hanswers : ∀ m ∈ ms, m.isResponse = true → ∃ id method params, m = .response id (answer method params)) :
    (ms.map Outgoing.body).filterMap ownMessage? =
      (ms.filter fun m => !m.isResponse).map Outgoing.asRead := by
  induction ms with
  | nil => rfl
  | cons m ms ih =>
    have hlater := ih
      (fun m hm => hown m (((List.sublist_cons_self _ ms).filter _).subset hm))
      fun m hm => hanswers m (List.mem_cons_of_mem _ hm)
    rw [List.map_cons, List.filterMap_cons, hlater]
    cases hm : m.isResponse with
    | true =>
      obtain ⟨id, method, params, rfl⟩ := hanswers m List.mem_cons_self hm
      rw [Outgoing.ownMessage?_answer, List.filter_cons_of_neg (by simp [hm])]
    | false =>
      have hmem : m ∈ (m :: ms).filter fun m => !m.isResponse := by
        rw [List.filter_cons_of_pos (by simp [hm])]
        exact List.mem_cons_self
      rw [Outgoing.ownMessage?_body (hown m hmem), hm, List.filter_cons_of_pos (by simp [hm])]
      rfl

/-- **Reading the wire yields the bridge's own messages**: its frames are those of what has been written, and
    what is read in their bodies, and would be read in those that have not been written, is what is said. -/
theorem read_own {es : List Event} (h : (start.run es).Legible) :
    let c := start.run es
    ∃ written unwritten, c.accepted = written ++ unwritten ∧ (c.accepts = true → unwritten = c.queue) ∧
      c.wire = (written.map Outgoing.body).flatMap Frame.encode ∧
      (Frame.readAll c.wire).1 = (written.map Outgoing.body).takeWhile Frame.fits ∧
      ((written ++ unwritten).map Outgoing.body).filterMap ownMessage? = c.own.map Outgoing.asRead := by
  intro c
  obtain ⟨written, unwritten, hd, hcases⟩ := divides_run es
  have haccepted : c.accepted = written ++ unwritten := hd.accepted
  have hwire : c.wire = (written.map Outgoing.body).flatMap Frame.encode := hd.wire.trans (flatMap_frame _)
  refine ⟨written, unwritten, haccepted, fun ha => ?_, hwire, hwire ▸ (Frame.readAll_frames _).1, ?_⟩
  · rcases hcases with ⟨-, hq⟩ | ⟨hw, -⟩
    · exact hq
    · exact absurd ((accepts_iff c).mp ha) hw
  · rw [← haccepted]
    exact filterMap_ownMessage? h fun m hm => exists_answer_of_mem_accepted hm

end Connection

theorem Calm.fits {e : Event} (h : Calm e) : ∀ j ∈ e.params?, j.Fits (maxDepth - 1) := by
  intro j hj
  cases h with
  | tells o => exact o.fits_params j hj
  | asksLenses uri | asksLinks uri =>
    cases hj
    exact Request.fits_documentParams uri
  | stream t => cases t <;> cases hj

end EditorBridge.Rpc
