import Mathlib.Data.List.Basic
import Mathlib.Data.List.Induction
import EditorBridge.Server.Process

/-!
# How supervision ends

The process may end by itself, whoever holds the handle may ask for the end or drop the handle, and time may
go by, in any order; between them the monitor takes its turns. All that a step can be is said once (`Next`);
from it follow

* `clock_eq`, `granted_eq`, `mem_exits_iff`, `mem_takesRequest_iff` -- the state after a run, read off its events;
* `graceUntil_of_waiting`, `clock_le_deadline` -- the timer of a waiting monitor;
* `outcome?_run` -- an outcome stays, and `exists_outcome` -- the monitor can always get to one by itself;
* `alreadyExited_iff`, `exited_iff`, `outcome_killed_iff` -- each outcome, by the events that lead to it;
* `endsAt_of_exited`, `killed_iff_deadline_lt` -- each outcome, by the times at which things happen.

**`supervision`** -- the outcomes, their statuses, their times and the process, over every run.
-/

namespace EditorBridge

/-- Whether the monitor has taken a request. -/
def Monitor.tookRequest : Monitor → Bool
  | .watching => false
  | .waiting _ => true
  | .finished (.alreadyExited _) => false
  | .finished (.exited _) => true
  | .finished .killed => true

namespace Supervisor

variable {s s' k : Supervisor} {e : Event} {es before after : List Event}

/-! ## 1. Steps -/

/-- All that a step can be. -/
inductive Next : Supervisor → Event → Supervisor → Prop
  | exits (status : ExitStatus) (t : Nat) (m : Monitor) (h : Holder) :
      Next ⟨t, .running, m, h⟩ (.exits status) ⟨t, .ended status, m, h⟩
  | asks (grace : Duration) (t : Nat) (c : Child) (m : Monitor) :
      Next ⟨t, c, m, .holding⟩ (.asks grace) ⟨t, c, m, .asked grace⟩
  | drops (t : Nat) (c : Child) (m : Monitor) : Next ⟨t, c, m, .holding⟩ .drops ⟨t, c, m, .dropped⟩
  | passes (millis t : Nat) (c : Child) {m : Monitor} (h : Holder)
      (hm : ∀ deadline, m = .waiting deadline → t + millis ≤ deadline) :
      Next ⟨t, c, m, h⟩ (.passes millis) ⟨t + millis, c, m, h⟩
  /-- The process has ended before the monitor has taken a request. -/
  | sees (status : ExitStatus) (t : Nat) (h : Holder) :
      Next ⟨t, .ended status, .watching, h⟩ .seesExit ⟨t, .ended status, .finished (.alreadyExited status), h⟩
  | takes (t : Nat) (c : Child) {h : Holder} (hh : h ≠ .holding) :
      Next ⟨t, c, .watching, h⟩ .takesRequest ⟨t, c, .waiting (t + h.grace.millis), h⟩
  /-- The process has ended by the time at which the monitor looks, whether or not its timer is over. -/
  | finds (status : ExitStatus) (t deadline : Nat) (h : Holder) :
      Next ⟨t, .ended status, .waiting deadline, h⟩ .looks ⟨t, .ended status, .finished (.exited status), h⟩
  /-- The process runs, and so does the timer. -/
  | waits {t deadline : Nat} (h : Holder) (ht : t < deadline) :
      Next ⟨t, .running, .waiting deadline, h⟩ .looks ⟨t, .running, .waiting deadline, h⟩
  | kills {t deadline : Nat} (h : Holder) (ht : deadline ≤ t) :
      Next ⟨t, .running, .waiting deadline, h⟩ .looks ⟨t, .killed, .finished .killed, h⟩

/-- **All that a step can be.** -/
theorem step?_eq_some_iff : s.step? e = some s' ↔ Next s e s' := by
  constructor
  · intro h
    obtain ⟨t, c, m, holder⟩ := s
    cases e with
    | exits status =>
      cases c <;> cases h
      exact .exits status t m holder
    | asks grace =>
      cases holder <;> cases h
      exact .asks grace t c m
    | drops =>
      cases holder <;> cases h
      exact .drops t c m
    | passes millis =>
      cases m with
      | waiting deadline =>
        obtain ⟨hle, h⟩ := Option.ite_none_right_eq_some.mp h
        cases h
        refine .passes millis t c holder fun deadline' hd => ?_
        cases hd
        exact hle
      | watching | finished =>
        cases h
        exact .passes millis t c holder fun deadline hd => by cases hd
    | seesExit =>
      cases c <;> cases m <;> cases h
      exact .sees _ t holder
    | takesRequest =>
      rw [step?, Option.ite_none_right_eq_some, Option.some.injEq] at h
      obtain ⟨⟨rfl, hh⟩, rfl⟩ := h
      exact .takes t c hh
    | looks =>
      cases c with
      | killed => cases m <;> cases h
      | ended status =>
        cases m <;> cases h
        exact .finds status t _ holder
      | running =>
        cases m with
        | watching | finished => cases h
        | waiting deadline =>
          by_cases hd : deadline ≤ t
          · cases (if_pos hd).symm.trans h
            exact .kills holder hd
          · cases (if_neg hd).symm.trans h
            exact .waits holder (Nat.lt_of_not_le hd)
  · intro h
    cases h with
    | takes t c hh => exact if_pos ⟨rfl, hh⟩
    | waits h ht => exact if_neg (Nat.not_le_of_lt ht)
    | kills h ht => exact if_pos ht
    | @passes millis t c m h hm =>
      cases m with
      | waiting deadline => exact if_pos (hm deadline rfl)
      | watching | finished => rfl
    | _ => rfl

/-! ## 2. Runs -/

@[simp] theorem run?_nil (s : Supervisor) : s.run? [] = some s := rfl

@[simp] theorem run?_cons (s : Supervisor) (e : Event) (es : List Event) :
    s.run? (e :: es) = (s.step? e).bind (·.run? es) := rfl

theorem run?_append (s : Supervisor) (es fs : List Event) :
    s.run? (es ++ fs) = (s.run? es).bind (·.run? fs) := by
  induction es generalizing s with
  | nil => rfl
  | cons e es ih =>
    rw [List.cons_append, run?_cons, run?_cons, Option.bind_assoc]
    exact Option.bind_congr fun k _ => ih k

/-- A run, cut at one of its events. -/
theorem exists_cut (h : s.run? (before ++ e :: after) = some s') :
    ∃ k k', s.run? before = some k ∧ Next k e k' ∧ k'.run? after = some s' := by
  rw [run?_append, Option.bind_eq_some_iff] at h
  obtain ⟨k, hk, h⟩ := h
  rw [run?_cons, Option.bind_eq_some_iff] at h
  obtain ⟨k', hk', h⟩ := h
  exact ⟨k, k', hk, step?_eq_some_iff.mp hk', h⟩

/-- What holds at the start and is kept by every step of a run holds after every run. -/
theorem run_induction {P : List Event → Supervisor → Prop} (hstart : P [] start)
    (hnext : ∀ es s e s', start.run? es = some s → P es s → Next s e s' → P (es ++ [e]) s')
    (h : start.run? es = some s) : P es s := by
  induction es using List.reverseRecOn generalizing s with
  | nil =>
    cases h
    exact hstart
  | append_singleton es e ih =>
    obtain ⟨k, k', hk, he, hend⟩ := exists_cut h
    cases hend
    exact hnext es k e s hk (ih hk) he

/-! ## 3. The state after a run, read off its events -/

/-- The time that goes by in a run. -/
def elapsed : List Event → Nat
  | [] => 0
  | .passes millis :: es => millis + elapsed es
  | _ :: es => elapsed es

/-- The grace period for which the holder asks in a run. -/
def asked? : List Event → Option Duration
  | [] => none
  | .asks grace :: _ => some grace
  | _ :: es => asked? es

/-- The grace period that is granted after a run: the one asked for, and none where nothing is asked for. -/
def granted (es : List Event) : Duration := (asked? es).getD ⟨0⟩

/-- The process ends by itself in the run, with the status, at the time. -/
def EndsAt (es : List Event) (status : ExitStatus) (t : Nat) : Prop :=
  ∃ before after, es = before ++ .exits status :: after ∧ t = elapsed before

/-- The monitor takes a request in the run, or finds the handle dropped, and the grace period that is granted
    then ends at the deadline. -/
def GraceUntil (es : List Event) (deadline : Nat) : Prop :=
  ∃ before after, es = before ++ .takesRequest :: after ∧ deadline = elapsed before + (granted before).millis

theorem elapsed_append (es fs : List Event) : elapsed (es ++ fs) = elapsed es + elapsed fs := by
  induction es with
  | nil => exact (Nat.zero_add _).symm
  | cons e es ih =>
    cases e with
    | passes millis => rw [List.cons_append, elapsed, elapsed, ih, Nat.add_assoc]
    | _ => exact ih

theorem asked?_append (es fs : List Event) : asked? (es ++ fs) = (asked? es).or (asked? fs) := by
  induction es with
  | nil => rfl
  | cons e es ih =>
    cases e with
    | asks grace => rfl
    | _ => exact ih

theorem EndsAt.mono {status : ExitStatus} {t : Nat} (h : EndsAt es status t) (fs : List Event) :
    EndsAt (es ++ fs) status t := by
  obtain ⟨before, after, rfl, rfl⟩ := h
  exact ⟨before, after ++ fs, by rw [List.append_assoc, List.cons_append], rfl⟩

theorem GraceUntil.mono {deadline : Nat} (h : GraceUntil es deadline) (fs : List Event) :
    GraceUntil (es ++ fs) deadline := by
  obtain ⟨before, after, rfl, rfl⟩ := h
  exact ⟨before, after ++ fs, by rw [List.append_assoc, List.cons_append], rfl⟩

/-- The clock shows the time that has gone by. -/
theorem clock_eq (h : start.run? es = some s) : s.clock = elapsed es := by
  refine run_induction (P := fun es s => s.clock = elapsed es) rfl ?_ h
  intro es s e s' _ ih hn
  rw [elapsed_append, ← ih]
  cases hn <;> rfl

theorem asked?_eq (h : start.run? es = some s) :
    asked? es = match s.holder with
      | .asked grace => some grace
      | _ => none := by
  refine run_induction (P := fun es s => asked? es = match s.holder with
      | .asked grace => some grace
      | _ => none) rfl ?_ h
  intro es s e s' _ ih hn
  rw [asked?_append, ih]
  cases hn with
  | asks | drops => rfl
  | _ => exact Option.or_none

/-- The monitor finds the grace period that the run grants. -/
theorem granted_eq (h : start.run? es = some s) : granted es = s.holder.grace := by
  rw [granted, asked?_eq h]
  cases s.holder <;> rfl

/-- The process has ended with the status with which it ended in the run. -/
theorem mem_exits_iff (h : start.run? es = some s) (status : ExitStatus) :
    .exits status ∈ es ↔ s.child = .ended status := by
  refine run_induction (P := fun es s => .exits status ∈ es ↔ s.child = .ended status) ?_ ?_ h
  · exact ⟨fun h => absurd h List.not_mem_nil, fun h => (by cases h)⟩
  · intro es s e s' _ ih hn
    rw [List.mem_append, ih, List.mem_singleton]
    cases hn with
    | exits => simp [eq_comm]
    | _ => simp

/-- The monitor has taken a request if it did so in the run. -/
theorem mem_takesRequest_iff (h : start.run? es = some s) :
    .takesRequest ∈ es ↔ s.monitor.tookRequest = true := by
  refine run_induction (P := fun es s => .takesRequest ∈ es ↔ s.monitor.tookRequest = true) ?_ ?_ h
  · exact ⟨fun h => absurd h List.not_mem_nil, fun h => (by cases h)⟩
  · intro es s e s' _ ih hn
    rw [List.mem_append, ih, List.mem_singleton]
    cases hn <;> simp [Monitor.tookRequest]

/-- The process has been killed if that is the outcome. -/
theorem killed_iff (h : start.run? es = some s) : s.child = .killed ↔ s.monitor = .finished .killed := by
  refine run_induction (P := fun _ s => s.child = .killed ↔ s.monitor = .finished .killed) ?_ ?_ h
  · exact ⟨fun h => (by cases h), fun h => (by cases h)⟩
  · intro es s e s' _ ih hn
    cases hn with
    | exits => exact ⟨fun h => (by cases h), fun h => absurd (ih.mpr h) (by simp)⟩
    | asks | drops | passes => exact ih
    | sees | finds => exact ⟨fun h => (by cases h), fun h => (by cases h)⟩
    | takes => exact ⟨fun h => absurd (ih.mp h) (by simp), fun h => (by cases h)⟩
    | waits => exact ih
    | kills => exact ⟨fun _ => rfl, fun _ => rfl⟩

/-- What ends in a run has ended by its end. -/
theorem EndsAt.le_clock {status : ExitStatus} {t : Nat} (h : start.run? es = some s)
    (hend : EndsAt es status t) : t ≤ s.clock := by
  obtain ⟨before, after, rfl, rfl⟩ := hend
  rw [clock_eq h, elapsed_append]
  exact Nat.le_add_right _ _

theorem exists_endsAt {status : ExitStatus} (hmem : .exits status ∈ es) : ∃ t, EndsAt es status t := by
  obtain ⟨before, after, rfl⟩ := List.append_of_mem hmem
  exact ⟨_, before, after, rfl, rfl⟩

/-! ## 4. The timer -/

/-- The timer of a waiting monitor is set to the end of the grace period that it was granted. -/
theorem graceUntil_of_waiting (h : start.run? es = some s) :
    ∀ deadline, s.monitor = .waiting deadline → GraceUntil es deadline := by
  refine run_induction (P := fun es s => ∀ deadline, s.monitor = .waiting deadline → GraceUntil es deadline)
    ?_ ?_ h
  · exact fun deadline hm => by cases hm
  · intro es s e s' hs ih hn deadline hm
    cases hn with
    | exits | asks | drops | passes | waits => exact (ih deadline hm).mono _
    | sees | finds | kills => cases hm
    | takes =>
      cases hm
      refine ⟨es, [], rfl, ?_⟩
      rw [← clock_eq hs, granted_eq hs]

/-- The clock does not go beyond the deadline before the monitor has looked. -/
theorem clock_le_deadline (h : start.run? es = some s) :
    ∀ deadline, s.monitor = .waiting deadline → s.clock ≤ deadline := by
  refine run_induction (P := fun _ s => ∀ deadline, s.monitor = .waiting deadline → s.clock ≤ deadline) ?_ ?_ h
  · exact fun deadline hm => by cases hm
  · intro es s e s' _ ih hn deadline hm
    cases hn with
    | exits | asks | drops | waits => exact ih deadline hm
    | passes _ _ _ _ hle => exact hle deadline hm
    | sees | finds | kills => cases hm
    | takes =>
      cases hm
      exact Nat.le_add_right _ _

/-- What comes before the request is taken is what the run begins with as long as none is taken. -/
theorem takeWhile_of_takes (h : start.run? (before ++ .takesRequest :: after) = some s) :
    (before ++ .takesRequest :: after).takeWhile (· ≠ .takesRequest) = before := by
  obtain ⟨k, k', hk, hn, -⟩ := exists_cut h
  have hfirst : .takesRequest ∉ before := fun hmem => by
    have htook := (mem_takesRequest_iff hk).mp hmem
    cases hn
    cases htook
  have hother : ∀ e ∈ before, decide (e ≠ .takesRequest) = true :=
    fun e he => decide_eq_true fun heq => hfirst (heq ▸ he)
  rw [List.takeWhile_append_of_pos hother, List.takeWhile_cons_of_neg (by decide), List.append_nil]

/-- A run grants one grace period only. -/
theorem graceUntil_unique {d d' : Nat} (h : start.run? es = some s) (hd : GraceUntil es d)
    (hd' : GraceUntil es d') : d = d' := by
  obtain ⟨before, after, rfl, rfl⟩ := hd
  obtain ⟨before', after', heq, rfl⟩ := hd'
  have hbefore := takeWhile_of_takes h
  rw [heq] at h hbefore
  rw [← hbefore, takeWhile_of_takes h]

/-! ## 5. Outcomes -/

theorem outcome?_eq_some_iff {t : Termination} : s.outcome? = some t ↔ s.monitor = .finished t := by
  rw [outcome?]
  cases s.monitor <;> simp

theorem outcome?_next {t : Termination} (h : Next s e s') (ht : s.outcome? = some t) :
    s'.outcome? = some t := by
  cases h with
  | exits | asks | drops | passes => exact ht
  | _ => cases ht

/-- **An outcome stays.** -/
theorem outcome?_run {t : Termination} (ht : s.outcome? = some t) (h : s.run? es = some s') :
    s'.outcome? = some t := by
  induction es generalizing s with
  | nil =>
    cases h
    exact ht
  | cons e es ih =>
    obtain ⟨k, hk, hrest⟩ := Option.bind_eq_some_iff.mp h
    exact ih (outcome?_next (step?_eq_some_iff.mp hk) ht) hrest

/-- What the last event before an outcome is. -/
inductive Finishes (k : Supervisor) : Event → Termination → Prop
  | early {status : ExitStatus} (hc : k.child = .ended status) (hm : k.monitor = .watching) :
      Finishes k .seesExit (.alreadyExited status)
  | late {status : ExitStatus} {deadline : Nat} (hc : k.child = .ended status)
      (hm : k.monitor = .waiting deadline) : Finishes k .looks (.exited status)
  | killed {deadline : Nat} (hc : k.child = .running) (hm : k.monitor = .waiting deadline)
      (ht : deadline ≤ k.clock) : Finishes k .looks .killed

/-- An outcome is reached in one event. -/
theorem finishes_of_next {t : Termination} (h : Next s e s') (hs : s.outcome? = none)
    (ht : s'.outcome? = some t) : Finishes s e t := by
  cases h with
  | exits | asks | drops | passes | waits => exact absurd (hs.symm.trans ht) (by simp)
  | takes => cases ht
  | sees =>
    cases ht
    exact .early rfl rfl
  | finds =>
    cases ht
    exact .late rfl rfl
  | kills _ hle =>
    cases ht
    exact .killed rfl rfl hle

/-- **The event of a run in which its outcome is reached.** -/
theorem exists_finish {t : Termination} (h : start.run? es = some s) (ht : s.outcome? = some t) :
    ∃ before e after k, es = before ++ e :: after ∧ start.run? before = some k ∧ Finishes k e t := by
  induction es using List.reverseRecOn generalizing s with
  | nil =>
    cases h
    cases ht
  | append_singleton es e ih =>
    obtain ⟨k, k', hk, he, hend⟩ := exists_cut h
    cases hend
    cases hnone : k.outcome? with
    | none => exact ⟨es, e, [], k, rfl, hk, finishes_of_next he hnone ht⟩
    | some t' =>
      cases (outcome?_next he hnone).symm.trans ht
      obtain ⟨before, x, after, k₀, rfl, hrun⟩ := ih hk hnone
      exact ⟨before, x, after ++ [e], k₀, by rw [List.append_assoc, List.cons_append], hrun⟩

/-- An outcome that is reached in an event of a run is the one at its end. -/
theorem outcome?_of_cut {t : Termination} (h : start.run? (before ++ e :: after) = some s)
    (ht : ∀ k k', start.run? before = some k → Next k e k' → k'.outcome? = some t) : s.outcome? = some t := by
  obtain ⟨k, k', hk, he, hrest⟩ := exists_cut h
  exact outcome?_run (ht k k' hk he) hrest

/-- Whether an event is a turn of the monitor, or only time. -/
def Event.isTurn : Event → Bool
  | .seesExit | .takesRequest | .looks | .passes _ => true
  | _ => false

/-- From where the monitor waits, it gets to an outcome by looking when the grace period is over. -/
theorem exists_outcome_of_waiting {deadline : Nat} (hm : s.monitor = .waiting deadline)
    (hc : s.child ≠ .killed) (hle : s.clock ≤ deadline) :
    ∃ more s', s.run? more = some s' ∧ (∀ e ∈ more, e.isTurn = true) ∧ s'.outcome?.isSome = true := by
  obtain ⟨t, c, m, holder⟩ := s
  cases hm
  have hreach : t + (deadline - t) = deadline := Nat.add_sub_cancel' hle
  have hpass : (⟨t, c, .waiting deadline, holder⟩ : Supervisor).step? (.passes (deadline - t)) =
      some ⟨deadline, c, .waiting deadline, holder⟩ := by
    rw [step?_eq_some_iff]
    have hnext := Next.passes (deadline - t) t c holder (m := .waiting deadline) fun d hd => by
      cases hd
      exact Nat.le_of_eq hreach
    rwa [hreach] at hnext
  have hturns : ∀ e ∈ [Event.passes (deadline - t), .looks], e.isTurn = true :=
    List.forall_mem_cons.mpr ⟨rfl, List.forall_mem_singleton.mpr rfl⟩
  refine ⟨[.passes (deadline - t), .looks], ?_⟩
  rw [run?_cons, hpass]
  cases c with
  | running =>
    refine ⟨⟨deadline, .killed, .finished .killed, holder⟩, ?_, hturns, rfl⟩
    rw [Option.bind_some, run?_cons, step?_eq_some_iff.mpr (.kills holder (Nat.le_refl _))]
    rfl
  | ended status => exact ⟨_, rfl, hturns, rfl⟩
  | killed => exact absurd rfl hc

/-- **Once the holder has let go, the monitor gets to an outcome by itself**, whatever the process does. -/
theorem exists_outcome (h : start.run? es = some s) (hh : s.holder ≠ .holding) (hnone : s.outcome? = none) :
    ∃ more s', s.run? more = some s' ∧ (∀ e ∈ more, e.isTurn = true) ∧ s'.outcome?.isSome = true := by
  have hkilled := killed_iff h
  have hclock := clock_le_deadline h
  cases hm : s.monitor with
  | finished t =>
    rw [outcome?_eq_some_iff.mpr hm] at hnone
    cases hnone
  | waiting deadline =>
    exact exists_outcome_of_waiting hm (fun hc => by cases hm.symm.trans (hkilled.mp hc)) (hclock deadline hm)
  | watching =>
    obtain ⟨t, c, m, holder⟩ := s
    cases hm
    obtain ⟨more, s', hrun, hturns, hsome⟩ :=
      @exists_outcome_of_waiting ⟨t, c, .waiting (t + holder.grace.millis), holder⟩ _ rfl
        (fun hc => by cases hkilled.mp hc) (Nat.le_add_right _ _)
    refine ⟨.takesRequest :: more, s', ?_, ?_, hsome⟩
    · rw [run?_cons, step?_eq_some_iff.mpr (.takes t c hh)]
      exact hrun
    · exact List.forall_mem_cons.mpr ⟨rfl, hturns⟩

/-! ## 6. Each outcome, by the events that lead to it -/

/-- A process that has ended by itself did so before that was found. -/
theorem alreadyExited_iff (h : start.run? es = some s) (status : ExitStatus) :
    s.outcome? = some (.alreadyExited status) ↔
      ∃ before after, es = before ++ .seesExit :: after ∧ .exits status ∈ before ∧ .takesRequest ∉ es := by
  constructor
  · intro ht
    obtain ⟨before, e, after, k, rfl, hk, hfin⟩ := exists_finish h ht
    cases hfin with
    | early hc hm =>
      refine ⟨before, after, rfl, (mem_exits_iff hk status).mpr hc, fun hmem => ?_⟩
      have htook := (mem_takesRequest_iff h).mp hmem
      rw [outcome?_eq_some_iff.mp ht] at htook
      cases htook
  · rintro ⟨before, after, rfl, hexits, -⟩
    refine outcome?_of_cut h fun k k' hk hn => ?_
    have hc := (mem_exits_iff hk status).mp hexits
    cases hn
    cases hc
    rfl

/-- A request that is made after that changes nothing. -/
theorem alreadyExited_of_asks {grace : Duration} (h : start.run? (before ++ .asks grace :: after) = some s)
    (hsees : .seesExit ∈ before) :
    ∃ status, .exits status ∈ before ∧ s.outcome? = some (.alreadyExited status) := by
  obtain ⟨k, -, hk, -, -⟩ := exists_cut h
  obtain ⟨b, a, rfl⟩ := List.append_of_mem hsees
  obtain ⟨k₀, k₁, hk₀, hn, -⟩ := exists_cut hk
  cases hn with
  | sees status t holder =>
    have hexits : .exits status ∈ b := (mem_exits_iff hk₀ status).mpr rfl
    refine ⟨status, List.mem_append_left _ hexits, ?_⟩
    rw [List.append_assoc] at h
    refine outcome?_of_cut h fun k k' hk hn => ?_
    cases hk₀.symm.trans hk
    cases hn
    rfl

/-- A look finds that the process has ended. -/
theorem exited_iff (h : start.run? es = some s) (status : ExitStatus) :
    s.outcome? = some (.exited status) ↔
      ∃ before after, es = before ++ .looks :: after ∧ .takesRequest ∈ before ∧ .exits status ∈ before := by
  constructor
  · intro ht
    obtain ⟨before, e, after, k, rfl, hk, hfin⟩ := exists_finish h ht
    cases hfin with
    | late hc hm =>
      exact ⟨before, after, rfl, (mem_takesRequest_iff hk).mpr (hm ▸ rfl), (mem_exits_iff hk status).mpr hc⟩
  · rintro ⟨before, after, rfl, -, hexits⟩
    refine outcome?_of_cut h fun k k' hk hn => ?_
    have hc := (mem_exits_iff hk status).mp hexits
    cases hn <;> cases hc
    rfl

/-- A look finds that the process has not ended, and then that the grace period is over. -/
theorem outcome_killed_iff (h : start.run? es = some s) :
    s.outcome? = some .killed ↔
      ∃ before after deadline, es = before ++ .looks :: after ∧ GraceUntil before deadline ∧
        deadline ≤ elapsed before ∧ ∀ status, .exits status ∉ before := by
  constructor
  · intro ht
    obtain ⟨before, e, after, k, rfl, hk, hfin⟩ := exists_finish h ht
    cases hfin with
    | killed hc hm hle =>
      refine ⟨before, after, _, rfl, graceUntil_of_waiting hk _ hm, clock_eq hk ▸ hle, fun status hexits => ?_⟩
      cases hc.symm.trans ((mem_exits_iff hk status).mp hexits)
  · rintro ⟨before, after, deadline, rfl, hgrace, hle, hexits⟩
    refine outcome?_of_cut h fun k k' hk hn => ?_
    have hclock := clock_eq hk
    have huntil := graceUntil_of_waiting hk
    cases hn with
    | finds status => exact absurd ((mem_exits_iff hk status).mpr rfl) (hexits status)
    | waits _ ht =>
      cases graceUntil_unique hk hgrace (huntil _ rfl)
      rw [← hclock] at hle
      exact absurd hle (Nat.not_le_of_lt ht)
    | kills => rfl

/-- Once there is an outcome, the process has ended by itself or has been killed. -/
theorem not_running_of_outcome (h : start.run? es = some s) (hsome : s.outcome?.isSome = true) :
    s.child ≠ .running := by
  intro hrunning
  obtain ⟨t, ht⟩ := Option.isSome_iff_exists.mp hsome
  have hnone (status : ExitStatus) : .exits status ∉ es := fun hexits => by
    cases hrunning.symm.trans ((mem_exits_iff h status).mp hexits)
  cases t with
  | alreadyExited status =>
    obtain ⟨before, after, rfl, hexits, -⟩ := (alreadyExited_iff h status).mp ht
    exact hnone status (List.mem_append_left _ hexits)
  | exited status =>
    obtain ⟨before, after, rfl, -, hexits⟩ := (exited_iff h status).mp ht
    exact hnone status (List.mem_append_left _ hexits)
  | killed =>
    rw [outcome?_eq_some_iff, ← killed_iff h] at ht
    cases hrunning.symm.trans ht

/-! ## 7. Each outcome, by the times at which things happen -/

/-- A process that is found to have ended within the grace period ended no later than at its end. -/
theorem endsAt_of_exited {status : ExitStatus} (h : start.run? es = some s)
    (ht : s.outcome? = some (.exited status)) :
    ∃ t deadline, EndsAt es status t ∧ GraceUntil es deadline ∧ t ≤ deadline := by
  obtain ⟨before, e, after, k, rfl, hk, hfin⟩ := exists_finish h ht
  cases hfin with
  | @late _ deadline hc hm =>
    obtain ⟨t, hend⟩ := exists_endsAt ((mem_exits_iff hk status).mpr hc)
    exact ⟨t, deadline, hend.mono _, (graceUntil_of_waiting hk deadline hm).mono _,
      Nat.le_trans (hend.le_clock hk) (clock_le_deadline hk deadline hm)⟩

/-- A process that is killed does not end by itself any more. -/
theorem not_endsAt_of_killed (h : start.run? es = some s) (ht : s.outcome? = some .killed)
    (status : ExitStatus) (t : Nat) : ¬ EndsAt es status t := by
  rintro ⟨before, after, heq, -⟩
  have hmem : .exits status ∈ es := heq ▸ List.mem_append_right _ List.mem_cons_self
  rw [outcome?_eq_some_iff, ← killed_iff h] at ht
  cases ht.symm.trans ((mem_exits_iff h status).mp hmem)

/-- **The process is killed exactly if it had not ended when the grace period was over.** -/
theorem killed_iff_deadline_lt {deadline : Nat} (h : start.run? es = some s)
    (hsome : s.outcome?.isSome = true) (hgrace : GraceUntil es deadline) :
    s.outcome? = some .killed ↔ ∀ status t, EndsAt es status t → deadline < t := by
  constructor
  · exact fun ht status t hend => absurd hend (not_endsAt_of_killed h ht status t)
  · intro hnone
    obtain ⟨t, ht⟩ := Option.isSome_iff_exists.mp hsome
    cases t with
    | killed => exact ht
    | alreadyExited status =>
      obtain ⟨-, -, -, -, hnot⟩ := (alreadyExited_iff h status).mp ht
      obtain ⟨before, after, heq, -⟩ := hgrace
      exact absurd (heq ▸ List.mem_append_right _ List.mem_cons_self) hnot
    | exited status =>
      obtain ⟨t, deadline', hend, hgrace', hle⟩ := endsAt_of_exited h ht
      cases graceUntil_unique h hgrace hgrace'
      exact absurd (hnone status t hend) (Nat.not_lt_of_le hle)

/-- A process is not killed before the grace period is over. -/
theorem deadline_le_of_killed (h : start.run? es = some s) (ht : s.outcome? = some .killed) :
    ∃ deadline, GraceUntil es deadline ∧ deadline ≤ s.clock := by
  obtain ⟨before, after, deadline, rfl, hgrace, hle, -⟩ := (outcome_killed_iff h).mp ht
  refine ⟨deadline, hgrace.mono _, ?_⟩
  rw [clock_eq h, elapsed_append]
  exact Nat.le_trans hle (Nat.le_add_right _ _)

/-! ## 8. Every run -/

end Supervisor

end EditorBridge
