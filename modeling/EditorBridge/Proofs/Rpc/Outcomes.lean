import EditorBridge.Proofs.Rpc.Accounts

/-!
# Outcomes and histories

The outcome of a call is a function of what happens after it is made: it is what the first happening
that settles the call makes of it (`InOrder.outcome?_run`). So it can be read off the history of a run
alone (`InOrder.outcome?_eq_outcomeIn`), and a call that a response completes has the outcome of the
first message that answers under its number (`answered_first`), which is its response in the history
(`responded`).
-/

namespace EditorBridge.Rpc

/-- The messages that the reader acts on. -/
def heardIn (hs : List Happening) : List Message :=
  hs.filterMap fun h => match h with
    | .heard m => some m
    | _ => none

/-- What becomes of the call that is made after `k` others. -/
def outcomeIn : List Happening → Nat → Option (Except CallError Reply)
  | [], _ => none
  | .called id r entered accepted :: hs, 0 =>
    if entered && accepted then hs.findSome? (Happening.settlement? id r) else some (.error .closed)
  | .called _ _ _ _ :: hs, k + 1 => outcomeIn hs k
  | .nothing :: hs, k => outcomeIn hs k
  | .heard _ :: hs, k => outcomeIn hs k
  | .ended :: hs, k => outcomeIn hs k

/-- A call that does not end as closed has the outcome of the first message that answers it. -/
theorem answered_first {id : Int64} {r : Request} {hs : List Happening} {o : Except CallError Reply}
    (h : hs.findSome? (Happening.settlement? id r) = some o) (hne : o ≠ .error .closed) :
    ∃ m, (heardIn hs).find? (·.answers id) = some m ∧ o = m.outcomeFor r := by
  induction hs with
  | nil => cases h
  | cons x hs ih =>
    cases x with
    | nothing => exact ih h
    | ended =>
      cases h
      exact absurd rfl hne
    | called id' r' entered accepted =>
      cases hb : entered && id == id' with
      | true =>
        rw [List.findSome?_cons, Happening.settlement?, if_pos hb] at h
        cases h
        exact absurd rfl hne
      | false =>
        rw [List.findSome?_cons, Happening.settlement?, hb] at h
        exact ih h
    | heard m =>
      cases ha : m.answers id with
      | true =>
        rw [List.findSome?_cons, Happening.settlement?, if_pos ha] at h
        cases h
        exact ⟨m, List.find?_cons_of_pos ha, rfl⟩
      | false =>
        rw [List.findSome?_cons, Happening.settlement?, ha] at h
        obtain ⟨m', hm, ho⟩ := ih h
        refine ⟨m', ?_, ho⟩
        rw [← hm]
        exact List.find?_cons_of_neg (by rw [ha]; exact Bool.false_ne_true)

/-- The response to the call that is made after `k` others: the first message under its number that is
    heard after the call. -/
def responseIn : List Happening → Nat → Option Message
  | [], _ => none
  | .called id _ _ _ :: hs, 0 => (heardIn hs).find? (·.answers id)
  | .called _ _ _ _ :: hs, k + 1 => responseIn hs k
  | .nothing :: hs, k => responseIn hs k
  | .heard _ :: hs, k => responseIn hs k
  | .ended :: hs, k => responseIn hs k

/-- **A call that does not end as closed** has the outcome of its response. -/
theorem responded {hs : List Happening} {k : Nat} {id : Int64} {r : Request}
    (hc : (hs.flatMap Happening.made)[k]? = some (id, r)) {o : Except CallError Reply}
    (h : outcomeIn hs k = some o) (hne : o ≠ .error .closed) :
    ∃ m, responseIn hs k = some m ∧ m.answers id = true ∧ o = m.outcomeFor r := by
  induction hs generalizing k with
  | nil => cases h
  | cons x hs ih =>
    cases x with
    | called id' r' entered accepted =>
      cases k with
      | succ k => exact ih hc h
      | zero =>
        cases hc
        rw [outcomeIn] at h
        split at h
        · obtain ⟨m, hm, ho⟩ := answered_first h hne
          exact ⟨m, hm, List.find?_some (p := fun m : Message => m.answers id) hm, ho⟩
        · cases h
          exact absurd rfl hne
    | _ => exact ih hc h

theorem outcomeIn_cons_of_made {h : Happening} (hm : h.made = []) (hs : List Happening) (k : Nat) :
    outcomeIn (h :: hs) k = outcomeIn hs k := by
  cases h with
  | called id r entered accepted => cases hm
  | _ => rfl

namespace Connection

/-- **What a run makes of a call.** A call that has completed keeps its outcome; one that waits has the
    outcome that the first happening which settles it gives it. -/
theorem InOrder.outcome?_run {c : Connection} (h : c.InOrder) (es : List Event) {k : Nat} {id : Int64}
    {r : Request} (hk : c.calls[k]? = some (id, r)) :
    (c.run es).outcome? k =
      (c.outcome? k).or ((c.history es).findSome? (Happening.settlement? id r)) := by
  induction es generalizing c with
  | nil => exact (Option.or_none).symm
  | cons e es ih =>
    have hk' : (c.step e).calls[k]? = some (id, r) := by
      rw [h.calls_step, List.getElem?_append_left (List.getElem?_eq_some_iff.mp hk).choose, hk]
    have hsome : ((c.history (e :: es)).findSome? (Happening.settlement? id r)) =
        ((c.happening e).settlement? id r).or
          (((c.step e).history es).findSome? (Happening.settlement? id r)) := by
      rw [history, List.findSome?_cons]
      cases (c.happening e).settlement? id r <;> rfl
    rw [run_cons, ih (inOrder_step h e) hk', h.outcome?_step e hk, hsome, Option.or_assoc]

theorem InOrder.outcome?_of_length_le {c : Connection} (h : c.InOrder) {k : Nat}
    (hk : c.calls.length ≤ k) : c.outcome? k = none := by
  rw [outcome?_eq_none_iff_not_mem]
  intro hm
  have hr := h.books.once.mem_iff.mp (List.mem_append_right _ hm)
  exact absurd (List.mem_range.mp hr) (Nat.not_lt.mpr hk)

theorem InOrder.getElem?_calls_request {c : Connection} (h : c.InOrder) (r : Request) :
    (c.step (.requests r)).calls[c.calls.length]? = some (c.nextId, r) := by
  rw [h.calls_step]
  exact List.getElem?_concat_length

/-- **What a run makes of the request with which it begins.** -/
theorem InOrder.outcome?_run_request {c : Connection} (h : c.InOrder) (r : Request)
    (es : List Event) :
    (c.run (.requests r :: es)).outcome? c.calls.length =
      if c.reader != .ended && c.accepts then
        ((c.step (.requests r)).history es).findSome? (Happening.settlement? c.nextId r)
      else some (.error .closed) := by
  have hmade := h.outcome?_request r
  have hrun := (inOrder_step h (.requests r)).outcome?_run es (h.getElem?_calls_request r)
  rw [run_cons, hrun, step, hmade]
  cases c.reader != .ended && c.accepts <;> rfl

/-- A call that has completed keeps its outcome. -/
theorem InOrder.outcome?_run_of_some {c : Connection} (h : c.InOrder) {k : Nat}
    {o : Except CallError Reply} (ho : c.outcome? k = some o) (es : List Event) :
    (c.run es).outcome? k = some o := by
  by_cases hk : k < c.calls.length
  · obtain ⟨id, r, hcall⟩ := exists_call hk
    rw [h.outcome?_run es hcall, ho, Option.some_or]
  · rw [h.outcome?_of_length_le (Nat.le_of_not_lt hk)] at ho
    cases ho

/-- **The history of a run tells the outcome of every call.** -/
theorem InOrder.outcome?_eq_outcomeIn {c : Connection} (h : c.InOrder) (es : List Event) (k : Nat) :
    (c.run es).outcome? (c.calls.length + k) = outcomeIn (c.history es) k := by
  induction es generalizing c k with
  | nil => exact h.outcome?_of_length_le (Nat.le_add_right _ _)
  | cons e es ih =>
    have h' := inOrder_step h e
    rcases happening_cases c e with ⟨r, rfl⟩ | hm
    · have hlen : (c.step (.requests r)).calls.length = c.calls.length + 1 := by
        rw [h.calls_step, List.length_append]
        rfl
      cases k with
      | zero =>
        rw [Nat.add_zero, h.outcome?_run_request r es]
        rfl
      | succ k =>
        have e1 : c.calls.length + (k + 1) = (c.step (.requests r)).calls.length + k := by omega
        rw [run_cons, e1, ih h']
        rfl
    · have hlen : (c.step e).calls.length = c.calls.length := by
        rw [h.calls_step, hm, List.append_nil]
      rw [history, outcomeIn_cons_of_made hm, ← ih h', hlen, run_cons]

theorem InOrder.calls_run {c : Connection} (h : c.InOrder) (es : List Event) :
    (c.run es).calls = c.calls ++ (c.history es).flatMap Happening.made := by
  induction es generalizing c with
  | nil => exact (List.append_nil _).symm
  | cons e es ih =>
    rw [run_cons, ih (inOrder_step h e), h.calls_step, history, List.flatMap_cons, List.append_assoc]

/-- **What a call of a run comes to**: it ends as closed, or it has the outcome of its response. -/
theorem closed_or_responded (es : List Event) {k : Nat} {id : Int64} {r : Request}
    (hc : (start.run es).calls[k]? = some (id, r)) {o : Except CallError Reply}
    (ho : (start.run es).outcome? k = some o) :
    o = .error .closed ∨
      ∃ m, responseIn (start.history es) k = some m ∧ m.answers id = true ∧ o = m.outcomeFor r := by
  have hcalls := inOrder_start.calls_run es
  have hout := inOrder_start.outcome?_eq_outcomeIn es k
  rw [hcalls] at hc
  rw [show start.calls.length + k = k from Nat.zero_add k, ho] at hout
  by_cases hne : o = .error .closed
  · exact Or.inl hne
  · exact Or.inr (responded hc hout.symm hne)

end Connection

end EditorBridge.Rpc
