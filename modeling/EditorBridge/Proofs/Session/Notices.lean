import EditorBridge.Proofs.Json.Decode
import EditorBridge.Proofs.Session.Readback

/-!
# Notifications reach the server as they are

A notification of the bridge passes three layers: it is a method with parameters, the text of a JSON object
(`Outgoing.parse?_notification`), and the bytes of a frame (`Frame.encode_inj`). Nothing is lost in any of
them.

* `parts_injective` -- the method and the parameters determine the notification;
* `ofOutbound_frame_inj` -- so different notifications have different frames.

**`sent_faithfully`** -- a connection that is listened to writes the frame behind all that was accepted before
it. The body in it is read back if it is not longer than what is read at all.
-/

namespace EditorBridge

open Rpc (Connection Outgoing)

/-! ## 1. Method and parameters -/

namespace Outbound

theorem fits_params (o : Outbound) : ∀ j ∈ o.params, j.Fits (Json.maxDepth - 1) := by
  intro j hj
  cases o with
  | execute p =>
    cases hj
    have hindex := Json.bounds_toInt p.index
    have hline := p.line.toNat_lt
    have hcharacter := p.character.toNat_lt
    simp [ExecuteParams.toJson, Json.Fits, Json.ElementsFit, Json.maxDepth, hindex]
    omega
  | listCommands uri | openModel link =>
    cases hj
    simp [Json.Fits]
  | stopExecution => cases hj

/-- Parameters hold no object, so that nothing in them is put in order. -/
theorem normal_params (o : Outbound) : o.params.map Json.normal = o.params := by
  cases o <;> simp [params, ExecuteParams.toJson]

theorem params_eq_none_iff (o : Outbound) : o.params = none ↔ o = .stopExecution := by
  cases o <;> simp [params]

/-- **The method and the parameters determine the notification.** -/
theorem parts_injective {o o' : Outbound} (hmethod : o.method = o'.method) (hparams : o.params = o'.params) :
    o = o' := by
  cases o with
  | execute p =>
    cases o' with
    | execute p' =>
      have hdecoded := p.decode_toJson
      rw [Option.some.inj hparams, p'.decode_toJson, Except.ok.injEq] at hdecoded
      rw [hdecoded]
    | _ => exact absurd hmethod (by simp [method])
  | listCommands uri =>
    cases o' with
    | listCommands uri' => rw [Json.str.inj (Option.some.inj hparams)]
    | _ => exact absurd hmethod (by simp [method])
  | openModel link =>
    cases o' with
    | openModel link' => rw [Json.str.inj (Option.some.inj hparams)]
    | _ => exact absurd hmethod (by simp [method])
  | stopExecution => exact ((params_eq_none_iff o').mp hparams.symm).symm

end Outbound

/-! ## 2. The body and the frame -/

namespace Rpc

/-- A notification is read as its method and its parameters. -/
theorem Utterance.ofBody?_ofOutbound (o : Outbound) :
    ofBody? (Outgoing.ofOutbound o).body = some ⟨o.method, o.params, false⟩ := by
  rw [Outgoing.ofOutbound, ofBody?_notification o.fits_params, o.normal_params]

/-- **Different notifications have different frames**, also those that are not read back. -/
theorem Outgoing.ofOutbound_frame_inj {o o' : Outbound} (h : (ofOutbound o).frame = (ofOutbound o').frame) :
    o = o' := by
  have hbody : (ofOutbound o).body = (ofOutbound o').body := Frame.encode_inj h
  have hread := Utterance.ofBody?_ofOutbound o
  rw [hbody, Utterance.ofBody?_ofOutbound o', Option.some.injEq, Utterance.mk.injEq] at hread
  exact (Outbound.parts_injective hread.1 hread.2.1).symm

namespace Connection

variable {c : Connection}

/-- A notification is written behind all that has been accepted before it. -/
theorem wire_of_notified (hw : c.writer = .running) (hl : c.peerListens = true) (method : String)
    (params : Option Json) :
    let sent := (c.notify method params).2
    (sent.run (List.replicate sent.queue.length .writes)).wire =
      c.wire ++ c.queue.flatMap Outgoing.frame ++ (Outgoing.notification method params).frame := by
  have ha : c.accepts = true := (accepts_iff c).mpr hw
  rw [notify_of_accepted ha, submit, if_pos ha]
  intro sent
  rw [wire_run_writes (c := sent) hw hl, List.flatMap_append, List.flatMap_singleton, ← List.append_assoc]

end Connection

end Rpc

/-! ## 3. What the server reads -/

namespace Outbound

/-- **A notification reaches the server as it is.** A connection that runs and is listened to takes it and
    writes its frame behind all that has been accepted before. Reading the frame yields its body, if the body
    is not longer than what is read at all, and else nothing. The body is an object of exactly the version,
    the method and, unless the notification is to stop, the parameters: four values that decode to those of an
    execution, or the very text of a document or a link. Method and parameters determine the notification,
    and so do the bytes of the frame. -/
theorem sent_faithfully {c : Connection} (hw : c.writer = .running) (hl : c.peerListens = true)
    (o : Outbound) :
    let message := Outgoing.ofOutbound o
    let sent := (c.notify o.method o.params).2
    (c.notify o.method o.params).1 = .ok () ∧
    (sent.run (List.replicate sent.queue.length .writes)).wire =
      c.wire ++ c.queue.flatMap Outgoing.frame ++ message.frame ∧
    (message.body.length ≤ Frame.maxBodyBytes →
      ∀ ended rest, Frame.read ended (message.frame ++ rest) = .frame message.body rest) ∧
    (Frame.maxBodyBytes < message.body.length →
      ∀ ended rest, ∃ e, Frame.read ended (message.frame ++ rest) = .failed e) ∧
    Json.parse? message.body = some (.obj ([("jsonrpc", .str "2.0"), ("method", .str o.method)] ++
      o.params.toList.map (("params", ·)))) ∧
    (o.params = none ↔ o = .stopExecution) ∧
    (∀ p, o = .execute p → ∃ j, o.params = some j ∧ ExecuteParams.decode j = .ok p) ∧
    (∀ text, o = .listCommands text ∨ o = .openModel text → o.params = some (.str text)) ∧
    (∀ o' : Outbound, o.method = o'.method → o.params = o'.params → o = o') ∧
    ∀ o' : Outbound, message.frame = (Outgoing.ofOutbound o').frame → o = o' := by
  intro message sent
  refine ⟨?_, Connection.wire_of_notified hw hl o.method o.params, fun h ended rest => ?_,
    fun h ended rest => Frame.read_encode_of_lt ended h rest, ?_, o.params_eq_none_iff, ?_, ?_,
    fun o' => parts_injective, fun o' => Outgoing.ofOutbound_frame_inj⟩
  · rw [Connection.notify_of_accepted ((Rpc.Connection.accepts_iff c).mpr hw)]
  · exact Frame.read_encode ended h [] rest
  · have hparse := Outgoing.parse?_notification o.method o.fits_params
    rw [o.normal_params] at hparse
    exact hparse
  · rintro p rfl
    exact ⟨p.toJson, rfl, p.decode_toJson⟩
  · rintro text (rfl | rfl)
    · rfl
    · rfl

/-- A text that is empty is still a text. -/
theorem sent_faithfully_empty :
    let message := Outgoing.ofOutbound (.listCommands "")
    let sent := (Connection.start.notify "ListAlloyCommands" (some (.str ""))).2
    (sent.run [.writes]).wire = message.frame ∧
      (∀ ended rest, Frame.read ended (message.frame ++ rest) = .frame message.body rest) ∧
      Json.parse? message.body = some (.obj
        [("jsonrpc", .str "2.0"), ("method", .str "ListAlloyCommands"), ("params", .str "")]) := by
  intro message sent
  obtain ⟨-, hwire, hread, -, hparse, -⟩ :=
    sent_faithfully (c := Connection.start) rfl rfl (.listCommands "")
  exact ⟨hwire, hread (by decide +kernel), hparse⟩

/-- A link as long as the longest body that is read is sent and written, but reading what is written yields
    nothing. -/
theorem read_openModel_of_le {link : String} (h : Frame.maxBodyBytes ≤ link.toList.length) :
    let o := Outbound.openModel link
    let c := Connection.start.run [.notifies o.method o.params, .writes]
    (Connection.start.notify o.method o.params).1 = .ok () ∧ c.wire = (Outgoing.ofOutbound o).frame ∧
      ∀ ended, ∃ e, Frame.read ended c.wire = .failed e := by
  intro o c
  have hwire : c.wire = (Outgoing.ofOutbound o).frame := rfl
  have hlong : Frame.maxBodyBytes < (Outgoing.ofOutbound o).body.length :=
    Nat.lt_of_le_of_lt h (Connection.lt_length_body "OpenModel" link)
  refine ⟨rfl, hwire, fun ended => ?_⟩
  have hread := Frame.read_encode_of_lt ended hlong []
  rw [List.append_nil] at hread
  exact hwire ▸ hread

/-- Not all that is sent is read back. -/
theorem openModel_not_read :
    let o := Outbound.openModel (String.ofList (List.replicate Frame.maxBodyBytes 'a'))
    let c := Connection.start.run [.notifies o.method o.params, .writes]
    (Connection.start.notify o.method o.params).1 = .ok () ∧ c.wire = (Outgoing.ofOutbound o).frame ∧
      ∀ ended, ∃ e, Frame.read ended c.wire = .failed e :=
  have hlength : (String.ofList (List.replicate Frame.maxBodyBytes 'a')).toList.length =
      Frame.maxBodyBytes := by
    rw [String.toList_ofList, List.length_replicate]
  read_openModel_of_le (Nat.le_of_eq hlength.symm)

end Outbound

end EditorBridge
