import EditorBridge.Proofs.Rpc.Transparency

/-!
# Bytes in pieces

The bytes of the peer may be cut anywhere: inside a header line or a character, between a carriage return
and its line feed, inside a body, or with several frames in one piece. While they come, the reader and the
writer take turns as they like (`Intake`).

* `Ear.remaining` -- the acts that what has arrived still holds for the reader;
* `Ear.remaining_receives_reads` -- a turn that the reader takes before more bytes come is the first of
  those that it would take after them;
* `Rest.flush` -- what is left when the writer has done with its queue. Whether it wrote before or after
  an act of the reader cannot be told from that (`Rest.flush_act`, `Rest.flush_writes`).

**`pieces_make_no_difference`** -- so once both tasks have nothing left to do, the pieces have done the same
as the whole.
-/

namespace EditorBridge.Rpc

/-! ## 1. What the reader has still to do -/

/-- What happens while bytes arrive. -/
inductive Intake where
  /-- A piece of the bytes arrives. -/
  | piece (bs : List UInt8)
  | reads
  | writes

/-- The same, as an event of the connection. -/
def Intake.event : Intake → Event
  | piece bs => .receives bs
  | reads => .reads
  | writes => .writes

/-- The bytes that arrive. -/
def Intake.bytes : Intake → List UInt8
  | piece bs => bs
  | _ => []

/-- Whether an act is one of the reader. -/
def Act.isReading : Act → Bool
  | .does _ => false
  | _ => true

namespace Ear

variable {a : Ear}

/-- The acts in the reader's turns until it has nothing to do. A frame is never empty, so that there are
    turns enough. -/
def remaining (a : Ear) : List Act := a.acts (List.replicate (a.inbox.length + 1) .reads)

theorem turn_of_frame {body rest : List UInt8} (h : a.found = .frame body rest) :
    a.act .reads = [.hears body] ∧ a.step .reads = { a with inbox := rest } := by
  rw [act, step, h]
  exact ⟨rfl, rfl⟩

theorem turn_of_wait (h : a.found = .wait) : a.act .reads = [] ∧ a.step .reads = a := by
  rw [act, step, h]
  exact ⟨rfl, rfl⟩

/-- The end that is found, as an act. -/
def ending : Frame.Step → Act
  | .failed e => .ends (some e)
  | _ => .ends none

theorem turn_of_isEnd (h : IsEnd a.found) :
    a.act .reads = [ending a.found] ∧ a.step .reads = { a with reader := .ended } := by
  rw [act, step]
  rcases h with h | ⟨e, h⟩
  · rw [h]
    exact ⟨rfl, rfl⟩
  · rw [h]
    exact ⟨rfl, rfl⟩

theorem found_of_ended (a : Ear) : { a with reader := .ended }.found = .wait := if_neg (nomatch ·)

theorem found_cases (a : Ear) :
    a.found = .wait ∨ (∃ body rest, a.found = .frame body rest) ∨ IsEnd a.found := by
  cases h : a.found with
  | wait => exact Or.inl rfl
  | frame body rest => exact Or.inr (Or.inl ⟨body, rest, rfl⟩)
  | finished => exact Or.inr (Or.inr (Or.inl rfl))
  | failed e => exact Or.inr (Or.inr (Or.inr ⟨e, rfl⟩))

theorem acts_reads_of_wait (h : a.found = .wait) (n : Nat) : a.acts (List.replicate n .reads) = [] := by
  obtain ⟨hact, hstep⟩ := turn_of_wait h
  induction n with
  | zero => rfl
  | succ n ih => rw [List.replicate_succ, acts, hact, hstep, ih, List.append_nil]

/-- More turns than there are bytes do the same. -/
theorem acts_reads_enough {n m : Nat} (hn : a.inbox.length < n) (hm : a.inbox.length < m) :
    a.acts (List.replicate n .reads) = a.acts (List.replicate m .reads) := by
  induction n generalizing a m with
  | zero => exact absurd hn (Nat.not_lt_zero _)
  | succ n ih =>
    obtain ⟨m, rfl⟩ : ∃ k, m = k + 1 := ⟨m - 1, by omega⟩
    rw [List.replicate_succ, List.replicate_succ, acts, acts]
    congr 1
    rcases a.found_cases with h | ⟨body, rest, h⟩ | h
    · rw [(turn_of_wait h).2, acts_reads_of_wait h, acts_reads_of_wait h]
    · have hlt := Frame.length_lt_of_read (read_of_found_frame h)
      rw [(turn_of_frame h).2]
      exact ih (a := { a with inbox := rest }) (by dsimp only; omega) (by dsimp only; omega)
    · rw [(turn_of_isEnd h).2, acts_reads_of_wait a.found_of_ended, acts_reads_of_wait a.found_of_ended]

theorem remaining_of_wait (h : a.found = .wait) : a.remaining = [] := acts_reads_of_wait h _

theorem remaining_of_frame {body rest : List UInt8} (h : a.found = .frame body rest) :
    a.remaining = .hears body :: { a with inbox := rest }.remaining := by
  obtain ⟨hact, hstep⟩ := turn_of_frame h
  have hlt := Frame.length_lt_of_read (read_of_found_frame h)
  rw [remaining, List.replicate_succ, acts, hact, hstep]
  exact congrArg (_ :: ·) (acts_reads_enough hlt (Nat.lt_succ_self _))

theorem remaining_of_isEnd (h : IsEnd a.found) : a.remaining = [ending a.found] := by
  obtain ⟨hact, hstep⟩ := turn_of_isEnd h
  rw [remaining, List.replicate_succ, acts, hact, hstep, acts_reads_of_wait a.found_of_ended]
  rfl

/-! ## 2. Bytes that arrive earlier or later -/

theorem step_receives (hr : a.reader = .running) (hd : a.peerDone = false) (bs : List UInt8) :
    a.step (.receives bs) = { a with inbox := a.inbox ++ bs } := by
  rw [step, hr, hd]
  rfl

theorem step_receives_of_stopped (h : ¬ (a.reader = .running ∧ a.peerDone = false)) (bs : List UInt8) :
    a.step (.receives bs) = a := by
  refine if_neg fun hs => h ?_
  rw [Bool.and_eq_true, Bool.not_eq_true', beq_iff_eq] at hs
  exact ⟨hs.2, hs.1⟩

/-- Two pieces are their concatenation. -/
theorem step_receives_append (a : Ear) (bs cs : List UInt8) :
    (a.step (.receives bs)).step (.receives cs) = a.step (.receives (bs ++ cs)) := by
  by_cases h : a.reader = .running ∧ a.peerDone = false
  · obtain ⟨hr, hd⟩ := h
    rw [step_receives hr hd, step_receives hr hd, ← List.append_assoc]
    exact step_receives (a := { a with inbox := a.inbox ++ bs }) hr hd cs
  · rw [step_receives_of_stopped h, step_receives_of_stopped h, step_receives_of_stopped h]

/-- The first of the turns that are left, then the others. -/
theorem remaining_reads (a : Ear) : a.act .reads ++ (a.step .reads).remaining = a.remaining := by
  rcases a.found_cases with h | ⟨body, rest, h⟩ | h
  · obtain ⟨hact, hstep⟩ := turn_of_wait h
    rw [hact, hstep, List.nil_append]
  · obtain ⟨hact, hstep⟩ := turn_of_frame h
    rw [hact, hstep, remaining_of_frame h]
    rfl
  · obtain ⟨hact, hstep⟩ := turn_of_isEnd h
    rw [hact, hstep, remaining_of_isEnd h, remaining_of_wait a.found_of_ended]
    rfl

/-- **A turn before more bytes come is the first of the turns after them.** What it finds in the bytes so
    far it would find in all of them, and where it finds nothing yet it decides nothing. -/
theorem remaining_receives_reads (a : Ear) (bs : List UInt8) :
    a.act .reads ++ ((a.step .reads).step (.receives bs)).remaining =
      (a.step (.receives bs)).remaining := by
  by_cases hs : a.reader = .running ∧ a.peerDone = false
  · obtain ⟨hr, hd⟩ := hs
    have hf : a.found = Frame.read false a.inbox := hd ▸ if_pos hr
    have hmore : ({ a with inbox := a.inbox ++ bs } : Ear).found = Frame.read false (a.inbox ++ bs) :=
      hd ▸ if_pos hr
    rw [step_receives hr hd]
    rcases a.found_cases with h | ⟨body, rest, h⟩ | h
    · obtain ⟨hact, hstep⟩ := turn_of_wait h
      rw [hact, hstep, step_receives hr hd, List.nil_append]
    · obtain ⟨hact, hstep⟩ := turn_of_frame h
      rw [Frame.read_append_of_frame false bs (hf.symm.trans h)] at hmore
      rw [hact, hstep, remaining_of_frame hmore, step_receives (a := { a with inbox := rest }) hr hd]
      rfl
    · obtain ⟨hact, hstep⟩ := turn_of_isEnd h
      have happ := Frame.read_append false bs (hf ▸ ne_wait_of_isEnd h)
      have hsame : ({ a with inbox := a.inbox ++ bs } : Ear).found = a.found := by
        rw [hmore, happ, ← hf]
        rcases h with h | ⟨e, h⟩
        · rw [h]
          rfl
        · rw [h]
          rfl
      -- nothing arrives any more, and nothing is left to do
      have hstopped : ({ a with reader := .ended } : Ear).step (.receives bs) =
          { a with reader := .ended } := step_receives_of_stopped (fun h => by cases h.1) bs
      have hend : IsEnd ({ a with inbox := a.inbox ++ bs } : Ear).found := hsame.symm ▸ h
      rw [hact, hstep, hstopped, remaining_of_wait a.found_of_ended, remaining_of_isEnd hend, hsame]
      rfl
  · have hs' : ¬ ((a.step .reads).reader = .running ∧ (a.step .reads).peerDone = false) := by
      rcases a.found_cases with h | ⟨body, rest, h⟩ | h
      · rw [(turn_of_wait h).2]
        exact hs
      · rw [(turn_of_frame h).2]
        exact hs
      · rw [(turn_of_isEnd h).2]
        exact fun h => nomatch h.1
    rw [step_receives_of_stopped hs, step_receives_of_stopped hs', remaining_reads]

theorem isReading_of_mem_remaining {x : Act} (h : x ∈ a.remaining) : x.isReading = true := by
  have hreads : ∀ (n : Nat) (b : Ear), x ∈ b.acts (List.replicate n .reads) → x.isReading = true := by
    intro n
    induction n with
    | zero => exact fun _ hx => absurd hx List.not_mem_nil
    | succ n ih =>
      intro b hx
      rw [List.replicate_succ, acts, List.mem_append] at hx
      rcases hx with hx | hx
      · rw [act] at hx
        split at hx
        · cases List.mem_singleton.mp hx
          rfl
        · exact absurd hx List.not_mem_nil
        · cases List.mem_singleton.mp hx
          rfl
        · cases List.mem_singleton.mp hx
          rfl
      · exact ih _ hx
  exact hreads _ a h

end Ear

/-! ## 3. What the writer makes of its queue -/

namespace Outbox

/-- The outbox when the writer has written its queue, or has stopped at it. What has been accepted is left
    out. -/
def flush (o : Outbox) : Outbox :=
  if o.writer = .running ∧ o.queue ≠ [] then
    if o.peerListens then
      { o with queue := [], wire := o.wire ++ o.queue.flatMap Outgoing.frame, accepted := [] }
    else { o with queue := [], writer := .ended, accepted := [] }
  else { o with accepted := [] }

theorem flush_of_idle {o : Outbox} (h : ¬ (o.writer = .running ∧ o.queue ≠ [])) :
    o.flush = { o with accepted := [] } := if_neg h

/-- A turn of the writer is one of those that it will have taken in the end. -/
theorem flush_write (o : Outbox) : o.write.flush = o.flush := by
  obtain ⟨writer, peerListens, queue, accepted, wire⟩ := o
  cases writer with
  | ended | aborted => rfl
  | running =>
    cases queue with
    | nil => rfl
    | cons m ms =>
      cases peerListens with
      | false => rfl
      | true =>
        cases ms with
        | nil => simp [write, flush]
        | cons m' ms => simp [write, flush]

/-- **Messages may as well come before the writer's turns as after them.** -/
theorem flush_post (o : Outbox) (ms : List Outgoing) : (o.flush.post ms).flush = (o.post ms).flush := by
  obtain ⟨writer, peerListens, queue, accepted, wire⟩ := o
  cases writer with
  | ended | aborted => rfl
  | running =>
    cases queue with
    | nil => rfl
    | cons m queue =>
      cases peerListens with
      | false => rfl
      | true =>
        cases ms with
        | nil => simp [post, flush]
        | cons m' ms => simp [post, flush]

end Outbox

namespace Rest

variable {s t : Rest}

/-- The rest when the writer has done with its queue, without its log. -/
def flush (s : Rest) : Rest := { s with outbox := s.outbox.flush, log := [] }

/-- A turn of the writer cannot be told. -/
theorem flush_writes (s : Rest) : (s.does .writes).flush = s.flush := by
  have hbooks : s.books.note (s.happening .writes) = s.books := Books.note_nothing _
  have hdoes : (s.does .writes).flush =
      { s with outbox := s.outbox.write.flush, books := s.books.note (s.happening .writes), log := [] } :=
    rfl
  rw [hdoes, hbooks, s.outbox.flush_write]
  rfl

/-- **For the acts of the reader the writer's turns make no difference.** -/
theorem flush_act {x : Act} (hx : x.isReading = true) (s : Rest) : (s.flush.act x).flush = (s.act x).flush := by
  cases x with
  | does e => cases hx
  | hears body =>
    have hbox : (s.outbox.flush.post (reply? body).toList).flush =
        (s.outbox.post (reply? body).toList).flush := s.outbox.flush_post _
    simp only [act, hears, flush, hbox]
    rfl
  | ends wrong =>
    have hbox : s.outbox.flush.flush = s.outbox.flush := by
      have hpost := s.outbox.flush_post []
      rwa [Outbox.post_nil, Outbox.post_nil] at hpost
    simp only [act, ends, flush, hbox]

theorem flush_acts {xs : List Act} (hxs : ∀ x ∈ xs, x.isReading = true) (h : s.flush = t.flush) :
    (xs.foldl act s).flush = (xs.foldl act t).flush := by
  induction xs generalizing s t with
  | nil => exact h
  | cons x xs ih =>
    have hx := hxs x List.mem_cons_self
    refine ih (fun y hy => hxs y (List.mem_cons_of_mem _ hy)) ?_
    rw [← flush_act hx s, h, flush_act hx t]

end Rest

/-! ## 4. Until nothing is left to do -/

/-- After so many turns the reader finds nothing more. -/
theorem Ear.found_after_reads {a : Ear} {n : Nat} (h : a.inbox.length < n) :
    ((List.replicate n Event.reads).foldl step a).found = .wait := by
  have hstays : ∀ (k : Nat) (b : Ear), b.found = .wait →
      ((List.replicate k Event.reads).foldl step b).found = .wait := by
    intro k
    induction k with
    | zero => exact fun _ hb => hb
    | succ k ih =>
      intro b hb
      rw [List.replicate_succ, List.foldl_cons, (turn_of_wait hb).2]
      exact ih b hb
  induction n generalizing a with
  | zero => exact absurd h (Nat.not_lt_zero _)
  | succ n ih =>
    rw [List.replicate_succ, List.foldl_cons]
    rcases a.found_cases with hf | ⟨body, rest, hf⟩ | hf
    · rw [(turn_of_wait hf).2]
      exact hstays n a hf
    · have hlt := Frame.length_lt_of_read (read_of_found_frame hf)
      rw [(turn_of_frame hf).2]
      exact ih (a := { a with inbox := rest }) (by dsimp only; omega)
    · rw [(turn_of_isEnd hf).2]
      exact hstays n _ a.found_of_ended

/-- The writer has nothing to do. -/
def Outbox.Idle (o : Outbox) : Prop := ¬ (o.writer = .running ∧ o.queue ≠ [])

namespace Connection

variable {c d : Connection}

theorem run_replicate_of_step {e : Event} (h : c.step e = c) (n : Nat) : c.run (List.replicate n e) = c := by
  induction n with
  | zero => rfl
  | succ n ih => rw [List.replicate_succ, run_cons, h, ih]

theorem step_reads_of_wait (h : c.ear.found = .wait) : c.step .reads = c := by rw [step_reads, h]

theorem step_writes_of_idle (h : c.outbox.Idle) : c.step .writes = c := by
  rw [step, writeFrame?]
  split
  · rename_i hw hq
    exact absurd ⟨hw, by rw [outbox, hq]; exact List.cons_ne_nil _ _⟩ h
  · rfl

theorem outbox_step_writes (c : Connection) : (c.step .writes).outbox = c.outbox.write :=
  outbox_step c .writes

/-- After so many turns the writer has nothing to do. -/
theorem idle_run_writes {n : Nat} (h : c.queue.length < n) :
    (c.run (List.replicate n .writes)).outbox.Idle := by
  induction n generalizing c with
  | zero => exact absurd h (Nat.not_lt_zero _)
  | succ n ih =>
    rw [List.replicate_succ, run_cons]
    by_cases hidle : c.outbox.Idle
    · rw [step_writes_of_idle hidle, run_replicate_of_step (step_writes_of_idle hidle)]
      exact hidle
    · obtain ⟨hw, hq⟩ := Classical.not_not.mp hidle
      obtain ⟨m, ms, hm⟩ := List.exists_cons_of_ne_nil hq
      have hlen : c.queue.length = ms.length + 1 := congrArg List.length hm
      cases hl : c.outbox.peerListens with
      | true =>
        have hstep := (outbox_step_writes c).trans (Outbox.write_of_listens hw hl hm)
        have hqueue : (c.step .writes).queue = ms := congrArg Outbox.queue hstep
        exact ih (by rw [hqueue]; omega)
      | false =>
        have hstopped : (c.step .writes).outbox.Idle := by
          rw [outbox_step_writes, Outbox.write_of_deaf hw hl hq]
          exact fun h => by cases h.1
        rw [run_replicate_of_step (step_writes_of_idle hstopped)]
        exact hstopped

theorem readMany_eq_run (n : Nat) (c : Connection) : readMany n c = c.run (List.replicate n .reads) := by
  induction n generalizing c with
  | zero => rfl
  | succ n ih =>
    rw [readMany, List.replicate_succ, run_cons, step]
    cases hr : c.readFrame? with
    | some c' => exact ih c'
    | none =>
      rw [Option.getD_none, ← ih]
      cases n with
      | zero => rfl
      | succ n => rw [readMany, hr]

theorem writeMany_eq_run (n : Nat) (c : Connection) : writeMany n c = c.run (List.replicate n .writes) := by
  induction n generalizing c with
  | zero => rfl
  | succ n ih =>
    rw [writeMany, List.replicate_succ, run_cons, step]
    cases hw : c.writeFrame? with
    | some c' => exact ih c'
    | none =>
      rw [Option.getD_none, ← ih]
      cases n with
      | zero => rfl
      | succ n => rw [writeMany, hw]

theorem ear_run_writes (c : Connection) (n : Nat) : (c.run (List.replicate n .writes)).ear = c.ear := by
  rw [ear_run]
  induction n with
  | zero => rfl
  | succ n ih => exact ih

/-- The connection when the reader has nothing left to do. -/
def readOut (c : Connection) : Connection := readMany (c.inbox.length + 1) c

theorem settle_eq (c : Connection) :
    c.settle = c.readOut.run (List.replicate (c.readOut.queue.length + 1) .writes) :=
  writeMany_eq_run _ _

theorem inOrder_readOut (h : c.InOrder) : c.readOut.InOrder := by
  rw [readOut, readMany_eq_run]
  exact inOrder_run h _

/-- Neither task has anything left to do. -/
def Settled (c : Connection) : Prop := c.ear.found = .wait ∧ c.outbox.Idle

theorem settled_settle (c : Connection) : c.settle.Settled := by
  rw [settle_eq]
  refine ⟨?_, idle_run_writes (Nat.lt_succ_self _)⟩
  rw [ear_run_writes, readOut, readMany_eq_run, ear_run]
  exact Ear.found_after_reads (Nat.lt_succ_self _)

/-- A settled connection stays as it is. -/
theorem Settled.settle (h : c.Settled) : c.settle = c := by
  have hread : c.readOut = c := by
    rw [readOut, readMany_eq_run, run_replicate_of_step (step_reads_of_wait h.1)]
  rw [settle_eq, hread, run_replicate_of_step (step_writes_of_idle h.2)]

/-! ## 5. Pieces -/

theorem rest_readOut (h : c.InOrder) : c.readOut.rest = c.ear.remaining.foldl Rest.act c.rest := by
  rw [readOut, readMany_eq_run, rest_run h]
  rfl

theorem flush_run_writes (h : c.InOrder) (n : Nat) :
    (c.run (List.replicate n .writes)).rest.flush = c.rest.flush := by
  induction n generalizing c with
  | zero => rfl
  | succ n ih =>
    rw [List.replicate_succ, run_cons, ih (inOrder_step h .writes), rest_step h .writes]
    exact c.rest.flush_writes

theorem flush_settle (h : c.InOrder) :
    c.settle.rest.flush = (c.ear.remaining.foldl Rest.act c.rest).flush := by
  rw [settle_eq, flush_run_writes (inOrder_readOut h), rest_readOut h]

theorem alike_of_flush (hc : c.Settled) (hd : d.Settled) (h : c.rest.flush = d.rest.flush) : Alike c d := by
  have hbox : ({ c.outbox with accepted := [] } : Outbox) = { d.outbox with accepted := [] } := by
    rw [← Outbox.flush_of_idle hc.2, ← Outbox.flush_of_idle hd.2]
    exact congrArg Rest.outbox h
  have hbooks : c.books = d.books := congrArg Rest.books h
  have hcompleted : c.completed = d.completed := congrArg Books.completed hbooks
  exact
    { notifications := congrArg Rest.notifications h
      wire := congrArg Outbox.wire hbox
      queue := congrArg Outbox.queue hbox
      pending := congrArg Books.pending hbooks
      outcomes := fun k => by rw [outcome?, outcome?, hcompleted]
      reader := congrArg Rest.reader h
      writer := congrArg Outbox.writer hbox }

/-- **What the pieces come to.** The turns in between are among those that would have come after all of
    them. -/
theorem flush_run_intake (h : c.InOrder) (ts : List Intake) :
    ((c.run (ts.map Intake.event)).ear.remaining.foldl Rest.act (c.run (ts.map Intake.event)).rest).flush =
      ((c.ear.step (.receives (ts.flatMap Intake.bytes))).remaining.foldl Rest.act c.rest).flush := by
  induction ts generalizing c with
  | nil =>
    have hnil : c.ear.step (.receives []) = c.ear := by rw [← ear_step, step_receives_nil]
    rw [List.flatMap_nil, hnil]
    rfl
  | cons t ts ih =>
    rw [List.map_cons, run_cons, ih (inOrder_step h t.event), List.flatMap_cons, ear_step, rest_step h]
    cases t with
    | piece bs =>
      show ((c.ear.step (.receives bs)).step _ |>.remaining.foldl Rest.act c.rest).flush = _
      rw [Ear.step_receives_append]
      rfl
    | reads =>
      show (((c.ear.step .reads).step _).remaining.foldl Rest.act
        ((c.ear.act .reads).foldl Rest.act c.rest)).flush = _
      rw [← List.foldl_append, Ear.remaining_receives_reads]
      rfl
    | writes => exact Rest.flush_acts (fun x hx => Ear.isReading_of_mem_remaining hx) c.rest.flush_writes

theorem alike_settle_intake (h : c.InOrder) (ts : List Intake) :
    Alike (c.run (ts.map Intake.event)).settle (c.receive (ts.flatMap Intake.bytes)).settle := by
  refine alike_of_flush (settled_settle _) (settled_settle _) ?_
  have hwhole := inOrder_step h (.receives (ts.flatMap Intake.bytes))
  rw [flush_settle (inOrder_run h _), flush_run_intake h, ← ear_step, ← h.rest_receives]
  exact (flush_settle hwhole).symm

/-- Pieces after each of which the tasks run until nothing is left to do. -/
theorem exists_pieces_eq_run (c : Connection) (pieces : List (List UInt8)) :
    ∃ ts : List Intake, pieces.foldl (fun c bs => (c.receive bs).settle) c = c.run (ts.map Intake.event) ∧
      ts.flatMap Intake.bytes = pieces.flatten := by
  induction pieces generalizing c with
  | nil => exact ⟨[], rfl, rfl⟩
  | cons p ps ih =>
    obtain ⟨n, m, hs⟩ := (c.receive p).exists_settle_eq_run
    obtain ⟨ts, hts, hbytes⟩ := ih (c.receive p).settle
    refine ⟨.piece p :: (List.replicate n .reads ++ List.replicate m .writes ++ ts), ?_, ?_⟩
    · rw [List.foldl_cons, hts, hs, List.map_cons, run_cons, List.map_append, run_append, List.map_append,
        List.map_replicate, List.map_replicate, run_append, run_append]
      rfl
    · rw [List.flatMap_cons, List.flatMap_append, List.flatMap_append, hbytes, List.flatMap_replicate,
        List.flatMap_replicate]
      simp [Intake.bytes]

/-- **It makes no difference in which pieces the peer's bytes arrive.** In any state that a connection can
    come to, the pieces one after another, each with all that the two tasks can then do, lead to the same
    notifications, the same bytes written, the same table and outcomes of calls and the same state of both
    tasks as the whole at once. It is so as well if the tasks take only some turns in between, or none, as
    soon as they have done at the end what is left. -/
theorem pieces_make_no_difference (es : List Event) :
    let c := start.run es
    (∀ piece pieces, Alike ((piece :: pieces).foldl (fun c bs => (c.receive bs).settle) c)
      (c.receive (piece :: pieces).flatten).settle) ∧
    ∀ ts : List Intake,
      Alike (c.run (ts.map Intake.event)).settle (c.receive (ts.flatMap Intake.bytes)).settle := by
  intro c
  have h : c.InOrder := inOrder_run inOrder_start es
  refine ⟨fun piece pieces => ?_, alike_settle_intake h⟩
  obtain ⟨ts, hts, hbytes⟩ := exists_pieces_eq_run c (piece :: pieces)
  have hsettled : ∀ (ps : List (List UInt8)) (d : Connection), d.Settled →
      (ps.foldl (fun c bs => (c.receive bs).settle) d).Settled := by
    intro ps
    induction ps with
    | nil => exact fun _ hd => hd
    | cons p ps ih => exact fun d _ => ih _ (settled_settle _)
  have hlast := (hsettled pieces _ (c.receive piece).settled_settle).settle
  have hrun := alike_settle_intake h ts
  rw [← hts, hbytes, List.foldl_cons, hlast] at hrun
  exact hrun

end Connection

end EditorBridge.Rpc
