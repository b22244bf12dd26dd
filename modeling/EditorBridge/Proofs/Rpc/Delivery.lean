import EditorBridge.Proofs.Rpc.Transparency

/-!
# The delivery of notifications

The notifications that have been delivered form a list to which events only add, as the notifications
arrive and as long as someone takes them (`exists_notifications_run`). Once the reader has stopped, it
acts on no body any more (`bodies_of_not_running`), so that nothing is added.
-/

namespace EditorBridge.Rpc

/-- Whether someone goes on to take the notifications after an event. -/
def Event.keepsReceiver : Event → Bool
  | .dropsReceiver => false
  | _ => true

namespace Connection

variable {c : Connection}

theorem InOrder.hasReceiver_step (h : c.InOrder) (e : Event) :
    (c.step e).hasReceiver = (c.hasReceiver && e.keepsReceiver) := by
  refine (congrArg Rest.hasReceiver (rest_step h e)).trans ?_
  cases e with
  | dropsReceiver => exact (Bool.and_false _).symm
  | reads =>
    rw [Ear.act]
    cases c.ear.found <;> exact (Bool.and_true _).symm
  | _ => exact (Bool.and_true _).symm

theorem InOrder.hasReceiver_run (h : c.InOrder) (es : List Event) :
    (c.run es).hasReceiver = (c.hasReceiver && es.all Event.keepsReceiver) := by
  induction es generalizing c with
  | nil => exact (Bool.and_true _).symm
  | cons e es ih =>
    rw [run_cons, ih (inOrder_step h e), h.hasReceiver_step, List.all_cons, Bool.and_assoc]

/-- A notification is delivered when the reader acts on it, if someone takes it. -/
theorem InOrder.notifications_step (h : c.InOrder) (e : Event) :
    (c.step e).notifications =
      c.notifications ++ if c.hasReceiver then (c.ear.acting e).filterMap notification? else [] := by
  have hnil : c.notifications =
      c.notifications ++ if c.hasReceiver then ([] : List (List UInt8)).filterMap notification? else [] := by
    rw [List.filterMap_nil, ite_self, List.append_nil]
  refine (congrArg Rest.notifications (rest_step h e)).trans ?_
  cases e with
  | reads =>
    rw [Ear.act, Ear.acting, Ear.nextBody?]
    cases c.ear.found with
    | frame body rest =>
      show c.notifications ++ (if c.hasReceiver then (notification? body).toList else []) = _
      cases hn : notification? body <;> simp [hn]
    | _ => exact hnil
  | _ => exact hnil

theorem bodies_of_not_running (hr : c.reader ≠ .running) (es : List Event) : c.bodies es = [] := by
  induction es generalizing c with
  | nil => rfl
  | cons e es ih =>
    have hnow : c.ear.acting e = [] := by
      cases e with
      | reads =>
        have hf : c.ear.found = .wait := if_neg hr
        rw [Ear.acting, Ear.nextBody?, hf]
        rfl
      | _ => rfl
    have hlater : (c.step e).reader ≠ .running := by
      have hear : (c.step e).reader = (c.ear.step e).reader := congrArg Ear.reader (ear_step c e)
      rw [hear, Ear.reader_step_of_not_running hr]
      exact hr
    have hih := ih hlater
    rw [bodies] at hih ⊢
    rw [trace, hnow, hih]
    rfl

theorem reader_run_of_not_running (hr : c.reader ≠ .running) (es : List Event) :
    (c.run es).reader = c.reader := by
  have hear : (c.run es).reader = (es.foldl Ear.step c.ear).reader := congrArg Ear.reader (ear_run c es)
  rw [hear, Ear.reader_of_not_running hr]
  rfl

/-- **In a run notifications are only added**, as they arrive and as long as someone takes them. -/
theorem InOrder.exists_notifications_run (h : c.InOrder) (es : List Event) :
    ∃ new, (c.run es).notifications = c.notifications ++ new ∧
      new <+: (c.bodies es).filterMap notification? ∧ (c.hasReceiver = false → new = []) := by
  induction es generalizing c with
  | nil => exact ⟨[], (List.append_nil _).symm, List.nil_prefix, fun _ => rfl⟩
  | cons e es ih =>
    obtain ⟨new, hnew, hprefix, hnone⟩ := ih (inOrder_step h e)
    have hcons : c.bodies (e :: es) = c.ear.acting e ++ (c.step e).bodies es := rfl
    rw [run_cons, hnew, h.notifications_step, hcons, List.filterMap_append]
    cases hr : c.hasReceiver with
    | true =>
      refine ⟨_, List.append_assoc .., ?_, fun h => nomatch h⟩
      exact (List.prefix_append_right_inj _).mpr hprefix
    | false =>
      rw [hnone (by rw [h.hasReceiver_step, hr]; rfl)]
      refine ⟨[], ?_, List.nil_prefix, fun _ => rfl⟩
      rw [List.append_nil, List.append_nil]
      exact List.append_nil _

end Connection

end EditorBridge.Rpc
