import EditorBridge.Proofs.Rpc.Conservation
import EditorBridge.Proofs.Rpc.Delivery
import EditorBridge.Proofs.Rpc.Outcomes

/-!
# What an abort leaves behind

An abort stops both tasks where they stand. Nothing is accepted from then on, so that every later call
fails at once. The calls that wait are another matter: it is the reader that completes them, when it comes
to its own end, and a reader that has been stopped does not come to it.

* `stopped_abort`, `stopped_run` -- after an abort neither task runs, whatever happens;
* `pending_run_of_stopped` -- then the table stays as it is;
* **`waiting_of_abort`** -- no call that waits at an abort ever completes, and every later one is refused.
-/

namespace EditorBridge.Rpc.Connection

variable {c : Connection}

/-! ## 1. When neither task runs -/

/-- Neither task runs. -/
def Stopped (c : Connection) : Prop := c.reader ≠ .running ∧ c.writer ≠ .running

theorem stopped_abort (c : Connection) : c.abort.Stopped := by
  have hstop : ∀ t : TaskState, (if t = .running then .aborted else t) ≠ .running := by
    intro t
    cases t <;> decide
  exact ⟨hstop c.reader, hstop c.writer⟩

theorem Stopped.accepts (h : c.Stopped) : c.accepts = false :=
  Bool.eq_false_iff.mpr fun ha => h.2 ((accepts_iff c).mp ha)

theorem stopped_run (h : c.Stopped) (es : List Event) : (c.run es).Stopped := by
  have hreader : (c.run es).reader = c.reader := reader_run_of_not_running h.1 es
  have hwriter : (c.run es).writer ≠ .running := (run_of_not_running h.2 es).1
  exact ⟨hreader ▸ h.1, hwriter⟩

/-- A request that is refused leaves no entry, and nobody takes one out of the table. -/
theorem pending_step_of_stopped (hc : c.InOrder) (h : c.Stopped) (hlt : c.calls.length < 2 ^ 63) (e : Event) :
    (c.step e).pending = c.pending := by
  have hbooks := books_step hc.books.keys e
  have hsilent : c.happening e = .nothing → (c.step e).pending = c.pending := by
    intro hn
    rw [hn, Books.note_nothing] at hbooks
    exact congrArg Books.pending hbooks
  cases e with
  | requests r =>
    by_cases hr : c.reader = .ended
    · rw [step, request_of_ended hr]
    · exact hc.pending_request_of_refused hlt hr h.accepts r
  | reads => exact hsilent (if_neg h.1)
  | _ => exact hsilent rfl

theorem length_calls_le_run (hc : c.InOrder) (es : List Event) :
    c.calls.length ≤ (c.run es).calls.length := by
  rw [hc.calls_run, List.length_append]
  exact Nat.le_add_right ..

theorem pending_run_of_stopped (hc : c.InOrder) (h : c.Stopped) (es : List Event)
    (hlt : (c.run es).calls.length < 2 ^ 63) : (c.run es).pending = c.pending := by
  induction es generalizing c with
  | nil => rfl
  | cons e es ih =>
    have hnext : (c.step e).InOrder := inOrder_step hc e
    have hfew : c.calls.length < 2 ^ 63 := Nat.lt_of_le_of_lt (length_calls_le_run hc (e :: es)) hlt
    rw [run_cons, ih hnext (stopped_run h [e]) hlt, pending_step_of_stopped hc h hfew]

/-- **Nobody completes a call any more.** -/
theorem outcome?_run_of_stopped (hc : c.InOrder) (h : c.Stopped) (es : List Event)
    (hlt : (c.run es).calls.length < 2 ^ 63) {k : Nat} (hk : k < c.calls.length) :
    (c.run es).outcome? k = c.outcome? k := by
  cases ho : c.outcome? k with
  | some o => exact hc.outcome?_run_of_some ho es
  | none =>
    -- the call has an entry, and the entry is still there
    have hentry : ∃ e ∈ c.pending, e.2.call = k := (hc.outcome?_eq_none_iff hk).mp ho
    rw [← pending_run_of_stopped hc h es hlt] at hentry
    have hk' : k < (c.run es).calls.length := Nat.lt_of_lt_of_le hk (length_calls_le_run hc es)
    exact ((inOrder_run hc es).outcome?_eq_none_iff hk').mpr hentry

/-! ## 2. After an abort -/

/-- **An abort completes no call.** Whatever happens after it, as long as there are fewer than 2^63
    requests: every notification and every request fails as closed, and a call that had been made before
    has the outcome that it had at the abort. A call that waited has none, then or ever, so that all
    calls that waited complete only if there were none. -/
theorem waiting_of_abort (es fs : List Event)
    (hlt : (start.run (es ++ .aborts :: fs)).calls.length < 2 ^ 63) :
    let c := start.run es
    let d := start.run (es ++ .aborts :: fs)
    (∀ method params, (d.notify method params).1 = .error .closed) ∧
    (∀ r, (d.request r).2.outcome? (d.request r).1 = some (.error .closed)) ∧
    (∀ k < c.calls.length, d.outcome? k = c.outcome? k) ∧
    ((∀ k < c.calls.length, c.outcome? k = none → d.outcome? k = some (.error .closed)) ↔
      c.pending = []) := by
  intro c d
  have hc : c.InOrder := inOrder_run inOrder_start es
  have habort : c.abort.InOrder := inOrder_step hc .aborts
  have hd : d = c.abort.run fs := run_append start es (.aborts :: fs)
  have hstopped : d.Stopped := hd ▸ stopped_run (stopped_abort c) fs
  have hsame : ∀ k < c.calls.length, d.outcome? k = c.outcome? k := by
    intro k hk
    have hfew : (c.abort.run fs).calls.length < 2 ^ 63 := hd ▸ hlt
    rw [hd]
    exact outcome?_run_of_stopped habort (stopped_abort c) fs hfew hk
  have hcalls := (hd ▸ inOrder_run habort fs : d.InOrder).calls_of_not_running hstopped.2
  refine ⟨hcalls.1, hcalls.2, hsame, ?_⟩
  constructor
  · intro hall
    refine List.eq_nil_iff_forall_not_mem.mpr fun e he => ?_
    have hown : c.calls[e.2.call]? = some (e.1, e.2.request) := hc.books.own e he
    have hk : e.2.call < c.calls.length := (List.getElem?_eq_some_iff.mp hown).choose
    have hwaits : c.outcome? e.2.call = none := (hc.outcome?_eq_none_iff hk).mpr ⟨e, he, rfl⟩
    have hlost : d.outcome? e.2.call = none := (hsame e.2.call hk).trans hwaits
    rw [hall e.2.call hk hwaits] at hlost
    cases hlost
  · intro hnone k hk hwaits
    obtain ⟨e, he, -⟩ := (hc.outcome?_eq_none_iff hk).mp hwaits
    rw [hnone] at he
    cases he

/-- One call waits at an abort, and has no outcome when another one has been refused. -/
theorem waiting_of_abort_one :
    let d := start.run ([.requests .shutdown] ++ .aborts :: [.requests .shutdown, .reads])
    d.calls.length < 2 ^ 63 ∧ d.outcome? 0 = none ∧ (d.notify "exit" none).1 = .error .closed := by
  intro d
  have hlt : d.calls.length < 2 ^ 63 := by decide
  obtain ⟨hnotify, -, hsame, -⟩ := waiting_of_abort [.requests .shutdown] [.requests .shutdown, .reads] hlt
  exact ⟨hlt, hsame 0 (by decide), hnotify "exit" none⟩

/-- The end of the stream completes a call that waits, and an abort does not. -/
theorem abort_strands_call :
    let c := start.run [.requests .shutdown]
    c.outcome? 0 = none ∧ (c.run [.hangsUp, .reads]).outcome? 0 = some (.error .closed) ∧
      (c.run [.aborts, .hangsUp, .reads]).outcome? 0 = none :=
  ⟨rfl, rfl, rfl⟩

end EditorBridge.Rpc.Connection
