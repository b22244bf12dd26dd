import EditorBridge.Rpc.Connection

/-!
# Runs of a connection

A run is a sequence of events in any order: what the bridge does, what the peer does, and the turns of
the two tasks. A turn for which there is nothing to do leaves the connection as it is.

* `exists_settle_eq_run` -- letting both tasks run until nothing is left to do is such a run;
* `record_run` -- what every event adds to a record of a connection is what a run adds to it.
-/

namespace EditorBridge.Rpc

/-- What happens to a connection. -/
inductive Event where
  | notifies (method : String) (params : Option Json)
  | requests (r : Request)
  /-- Bytes arrive from the peer. -/
  | receives (bs : List UInt8)
  /-- The peer stops sending. -/
  | hangsUp
  /-- The peer stops taking what is written. -/
  | deafens
  | dropsReceiver
  | aborts
  /-- A turn of the reader. -/
  | reads
  /-- A turn of the writer. -/
  | writes

namespace Connection

/-- One event. -/
def step (c : Connection) : Event → Connection
  | .notifies method params => (c.notify method params).2
  | .requests r => (c.request r).2
  | .receives bs => c.receive bs
  | .hangsUp => c.hangUp
  | .deafens => c.deafen
  | .dropsReceiver => c.dropReceiver
  | .aborts => c.abort
  | .reads => c.readFrame?.getD c
  | .writes => c.writeFrame?.getD c

/-- A sequence of events. -/
def run (c : Connection) (es : List Event) : Connection := es.foldl step c

@[simp] theorem run_nil (c : Connection) : c.run [] = c := rfl

@[simp] theorem run_cons (c : Connection) (e : Event) (es : List Event) :
    c.run (e :: es) = (c.step e).run es := rfl

theorem run_append (c : Connection) (es fs : List Event) : c.run (es ++ fs) = (c.run es).run fs :=
  List.foldl_append

/-- What a step preserves holds after a run. -/
theorem run_induction {P : Connection → Prop} (hstep : ∀ c e, P c → P (c.step e)) {c : Connection}
    (h : P c) (es : List Event) : P (c.run es) := by
  induction es generalizing c with
  | nil => exact h
  | cons e es ih => exact ih (hstep c e h)

/-- What the events of a run yield, one after another, if `f` says what each yields. -/
def trace {α : Type} (f : Connection → Event → List α) (c : Connection) : List Event → List α
  | [] => []
  | e :: es => f c e ++ trace f (c.step e) es

/-- A record to which every step adds what it yields holds the trace after a run. -/
theorem record_run {α : Type} {P : Connection → Prop} {g : Connection → List α}
    {f : Connection → Event → List α} (hstep : ∀ c e, P c → P (c.step e))
    (hadds : ∀ c e, P c → g (c.step e) = g c ++ f c e) {c : Connection} (h : P c)
    (es : List Event) : g (c.run es) = g c ++ c.trace f es := by
  induction es generalizing c with
  | nil => exact (List.append_nil _).symm
  | cons e es ih => rw [run_cons, ih (hstep c e h), hadds c e h, trace, List.append_assoc]

theorem notify_of_accepted {c : Connection} (ha : c.accepts = true) (method : String) (params : Option Json) :
    c.notify method params = (.ok (), c.submit (.notification method params)) := if_pos ha

theorem notify_of_refused {c : Connection} (ha : c.accepts = false) (method : String) (params : Option Json) :
    c.notify method params = (.error .closed, c) := by
  rw [notify, ha]
  rfl

theorem exists_readMany_eq_run (fuel : Nat) (c : Connection) :
    ∃ n, readMany fuel c = c.run (List.replicate n .reads) := by
  induction fuel generalizing c with
  | zero => exact ⟨0, rfl⟩
  | succ fuel ih =>
    rw [readMany]
    cases hr : c.readFrame? with
    | none => exact ⟨0, rfl⟩
    | some c' =>
      obtain ⟨n, hn⟩ := ih c'
      refine ⟨n + 1, ?_⟩
      rw [List.replicate_succ, run_cons, step, hr]
      exact hn

theorem exists_writeMany_eq_run (fuel : Nat) (c : Connection) :
    ∃ n, writeMany fuel c = c.run (List.replicate n .writes) := by
  induction fuel generalizing c with
  | zero => exact ⟨0, rfl⟩
  | succ fuel ih =>
    rw [writeMany]
    cases hw : c.writeFrame? with
    | none => exact ⟨0, rfl⟩
    | some c' =>
      obtain ⟨n, hn⟩ := ih c'
      refine ⟨n + 1, ?_⟩
      rw [List.replicate_succ, run_cons, step, hw]
      exact hn

/-- **Letting the tasks run is a run.** -/
theorem exists_settle_eq_run (c : Connection) :
    ∃ n m, c.settle = c.run (List.replicate n .reads ++ List.replicate m .writes) := by
  obtain ⟨n, hn⟩ := exists_readMany_eq_run (c.inbox.length + 1) c
  obtain ⟨m, hm⟩ := exists_writeMany_eq_run ((readMany (c.inbox.length + 1) c).queue.length + 1)
    (readMany (c.inbox.length + 1) c)
  refine ⟨n, m, ?_⟩
  rw [run_append, ← hn, ← hm]
  rfl

end Connection

end EditorBridge.Rpc
