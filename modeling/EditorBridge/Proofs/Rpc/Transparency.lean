import EditorBridge.Proofs.Frame.Stream
import EditorBridge.Proofs.Rpc.Decoding
import EditorBridge.Proofs.Rpc.Insertion

/-!
# What the peer's messages do, and what they do not

Every notification of the peer is delivered, in its turn, as long as someone takes it
(`notifications_run`); that nobody takes them changes nothing else (`run_dropsReceiver`).

A body is ignored (`Rest.Ignores`) if it does not decode, or if it holds neither a request nor a
notification nor a response to a call that waits. It is logged and does nothing else, so that the acts of
a run may hold any number of such bodies more than those of another (`Padded`) without a difference but
in the log (`mute_of_padded`).

**`ignored_leave_no_trace`** -- so frames around such bodies leave no trace, wherever they come in the
stream and however many they are (`Interspersed`); and behind something that is no frame, no bytes do.
-/

namespace EditorBridge.Rpc

/-! ## 1. Notifications -/

theorem notification?_eq_some_iff {body : List UInt8} {n : Notification} :
    notification? body = some n ↔ ∃ m, Message.ofBody? body = some m ∧ m.method = some n.method ∧
      m.id = none ∧ n.params = m.params.getD .null := by
  rw [notification?, Option.bind_eq_some_iff]
  constructor
  · rintro ⟨m, hm, hn⟩
    unfold Message.notification? at hn
    split at hn
    · rename_i method hmethod hid
      cases hn
      exact ⟨m, hm, hmethod, hid, rfl⟩
    · cases hn
  · rintro ⟨m, hm, hmethod, hid, hparams⟩
    refine ⟨m, hm, ?_⟩
    rw [Message.notification?, hmethod, hid, ← hparams]

namespace Rest

variable {s : Rest}

/-- Nobody who has gone takes notifications again. -/
theorem hasReceiver_of_act {x : Act} (h : (s.act x).hasReceiver = true) : s.hasReceiver = true := by
  cases x with
  | does e =>
    cases e with
    | dropsReceiver => cases h
    | _ => exact h
  | hears body => exact h
  | ends wrong => exact h

theorem hasReceiver_of_acts (xs : List Act) (h : (xs.foldl act s).hasReceiver = true) :
    s.hasReceiver = true := by
  induction xs generalizing s with
  | nil => exact h
  | cons x xs ih => exact hasReceiver_of_act (ih h)

/-- As long as someone takes them, all notifications that are heard are delivered. -/
theorem notifications_acts {xs : List Act} (h : (xs.foldl act s).hasReceiver = true) :
    (xs.foldl act s).notifications =
      s.notifications ++ (xs.filterMap Act.body?).filterMap notification? := by
  induction xs generalizing s with
  | nil => exact (List.append_nil _).symm
  | cons x xs ih =>
    have hnow : s.hasReceiver = true := hasReceiver_of_acts (x :: xs) h
    rw [List.foldl_cons, ih h]
    cases x with
    | does e => rfl
    | ends wrong => rfl
    | hears body =>
      have hheard : (s.act (.hears body)).notifications =
          s.notifications ++ (notification? body).toList :=
        congrArg (s.notifications ++ ·) (if_pos hnow)
      rw [hheard, List.append_assoc]
      cases hn : notification? body with
      | none => simp [Act.body?, hn]
      | some n => simp [Act.body?, hn]

/-- The rest when nobody takes notifications after these. -/
def deaf (ns : List Notification) (s : Rest) : Rest :=
  { s with hasReceiver := false, notifications := ns }

theorem act_deaf (ns : List Notification) (s : Rest) (x : Act) :
    (s.deaf ns).act x = (s.act x).deaf ns := by
  cases x with
  | does e => cases e <;> rfl
  | ends wrong => rfl
  | hears body =>
    show { (s.hears body).deaf ns with notifications := ns ++ [] } = (s.hears body).deaf ns
    rw [List.append_nil]
    rfl

theorem acts_deaf (ns : List Notification) (s : Rest) (xs : List Act) :
    xs.foldl act (s.deaf ns) = (xs.foldl act s).deaf ns := by
  induction xs generalizing s with
  | nil => rfl
  | cons x xs ih => rw [List.foldl_cons, List.foldl_cons, act_deaf, ih]

/-! ## 2. Ignored bodies -/

/-- The body does not decode, or it holds neither a request nor a notification nor a response to a call
    that waits. -/
def Ignores (s : Rest) (body : List UInt8) : Prop :=
  ∀ m, Message.ofBody? body = some m → m.method = none ∧
    ∀ id, m.id = some (.number id) → id ∉ s.books.pending.map Prod.fst

/-- The rest without its log. -/
def mute (s : Rest) : Rest := { s with log := [] }

theorem note_of_ignores {body : List UInt8} (h : s.Ignores body) :
    s.books.note (.ofBody body) = s.books := by
  unfold Happening.ofBody
  cases hm : Message.ofBody? body with
  | none => exact Books.note_nothing _
  | some m =>
    refine Books.note_of_settles_nothing rfl (fun _ => rfl) (fun _ => rfl) fun e he => ?_
    have hno : m.answers e.1 = false := Bool.eq_false_iff.mpr fun ha => by
      obtain ⟨-, hid⟩ := (Message.answers_iff m e.1).mp ha
      exact (h m hm).2 e.1 hid (List.mem_map_of_mem he)
    rw [Happening.settlement?, hno]
    rfl

/-- **A body that is ignored is logged, and that is all.** -/
theorem hears_of_ignores {body : List UInt8} (h : s.Ignores body) :
    (s.hears body).mute = s.mute := by
  have hreply : reply? body = none := by
    rw [reply?, Option.bind_eq_none_iff]
    intro m hm
    rw [Message.reply?, (h m hm).1]
  have hnote : notification? body = none := by
    rw [notification?, Option.bind_eq_none_iff]
    intro m hm
    rw [Message.notification?, (h m hm).1]
  have hnil : (if s.hasReceiver then ([] : List Notification) else []) = [] := ite_self _
  simp only [hears, mute, hreply, hnote, note_of_ignores h, Option.toList_none, Outbox.post_nil, hnil,
    List.append_nil]

/-- The log has no say in anything. -/
theorem mute_act (s : Rest) (x : Act) : (s.mute.act x).mute = (s.act x).mute := by
  cases x with
  | does e => cases e <;> rfl
  | hears body => rfl
  | ends wrong => rfl

end Rest

/-- The second list of acts is the first with bodies put in that are ignored. -/
inductive Padded : Rest → List Act → List Act → Prop
  | same (s : Rest) (xs : List Act) : Padded s xs xs
  | act {s : Rest} (x : Act) {xs ys : List Act} (h : Padded (s.act x) xs ys) :
      Padded s (x :: xs) (x :: ys)
  | ignored {s : Rest} {body : List UInt8} (hb : s.Ignores body) {xs ys : List Act}
      (h : Padded s xs ys) : Padded s xs (.hears body :: ys)

theorem padded_insert {s : Rest} {before : List Act} {body : List UInt8}
    (h : (before.foldl Rest.act s).Ignores body) (after : List Act) :
    Padded s (before ++ after) (before ++ .hears body :: after) := by
  induction before generalizing s with
  | nil => exact .ignored h (.same s after)
  | cons x before ih => exact .act x (ih h)

/-- **Acts with ignored bodies put in do the same but for the log.** -/
theorem mute_of_padded {s : Rest} {xs ys : List Act} (h : Padded s xs ys) {t : Rest}
    (ht : t.mute = s.mute) : (ys.foldl Rest.act t).mute = (xs.foldl Rest.act s).mute := by
  induction h generalizing t with
  | same s xs => exact Rest.acts_congr Rest.mute_act ht xs
  | act x h ih => exact ih (Rest.acts_congr Rest.mute_act ht [x])
  | @ignored s body hb xs ys h ih =>
    have hbt : t.Ignores body := by
      have hmute : t.mute.books = s.mute.books := congrArg Rest.books ht
      have hbooks : t.books = s.books := hmute
      intro m hm
      rw [hbooks]
      exact hb m hm
    exact ih ((Rest.hears_of_ignores hbt).trans ht)

/-! ## 3. Runs -/

/-- Two connections that neither side can tell apart. -/
structure Alike (c d : Connection) : Prop where
  notifications : c.notifications = d.notifications
  wire : c.wire = d.wire
  queue : c.queue = d.queue
  pending : c.pending = d.pending
  outcomes : ∀ k, c.outcome? k = d.outcome? k
  reader : c.reader = d.reader
  writer : c.writer = d.writer

theorem alike_of_mute {c d : Connection} (h : c.rest.mute = d.rest.mute) : Alike c d := by
  have hnotifications := congrArg Rest.notifications h
  have houtbox := congrArg Rest.outbox h
  have hbooks := congrArg Rest.books h
  have hcompleted : c.completed = d.completed := congrArg Books.completed hbooks
  exact
    { notifications := hnotifications
      wire := congrArg Outbox.wire houtbox
      queue := congrArg Outbox.queue houtbox
      pending := congrArg Books.pending hbooks
      outcomes := fun k => by rw [Connection.outcome?, Connection.outcome?, hcompleted]
      reader := congrArg Rest.reader h
      writer := congrArg Outbox.writer houtbox }

namespace Connection

/-- **Every notification that the reader acts on is delivered**, in its turn and once. -/
theorem notifications_run (es : List Event) (h : (start.run es).hasReceiver = true) :
    (start.run es).notifications = (start.bodies es).filterMap notification? := by
  have hrun := rest_run inOrder_start es
  have hrec : ((start.acts es).foldl Rest.act start.rest).hasReceiver = true := hrun ▸ h
  rw [bodies_eq_acts]
  exact (congrArg Rest.notifications hrun).trans (Rest.notifications_acts hrec)

/-- **If nobody takes the notifications any more, nothing else changes.** -/
theorem InOrder.run_dropsReceiver {c : Connection} (h : c.InOrder) (es : List Event) :
    c.run (.dropsReceiver :: es) =
      { c.run es with hasReceiver := false, notifications := c.notifications } := by
  have hear : (c.run (.dropsReceiver :: es)).ear = (c.run es).ear := by
    rw [ear_run, ear_run]
    rfl
  refine eq_of_rest hear ?_
  have hdrop : (c.step .dropsReceiver).rest = c.rest.deaf c.notifications := rfl
  have hacts : (c.step .dropsReceiver).acts es = c.acts es := rfl
  rw [run_cons, rest_run (inOrder_step h .dropsReceiver), hdrop, hacts, Rest.acts_deaf, ← rest_run h]
  rfl

/-- Runs whose acts are those of another run with ignored bodies put in. -/
theorem mute_run_of_padded {es fs : List Event} (h : Padded start.rest (start.acts es) (start.acts fs)) :
    (start.run fs).rest.mute = (start.run es).rest.mute := by
  rw [rest_run inOrder_start fs, rest_run inOrder_start es]
  exact mute_of_padded h rfl

theorem InOrder.rest_receives {c : Connection} (h : c.InOrder) (bs : List UInt8) :
    (c.step (.receives bs)).rest = c.rest := rest_step h (.receives bs)

theorem step_receives_of_not_running {c : Connection} (hr : c.reader ≠ .running) (bs : List UInt8) :
    c.step (.receives bs) = c := by
  have hs : ¬ c.peerCanSend = true := by
    rw [peerCanSend, Bool.and_eq_true, beq_iff_eq]
    exact fun hs => hr hs.2
  exact if_neg hs

theorem step_receives_of_running {c : Connection} (hr : c.reader = .running) (hd : c.peerDone = false)
    (bs : List UInt8) : c.step (.receives bs) = { c with inbox := c.inbox ++ bs } := by
  have hs : c.peerCanSend = true := by
    rw [peerCanSend, hr, hd]
    rfl
  exact if_pos hs

section Insertion

variable {c : Connection} {x f g : List UInt8} {bodies : List (List UInt8)} {mid : List Event}

theorem spread_receives (hr : c.reader = .running) (hd : c.peerDone = false)
    (hx : Frame.Cut false (c.inbox ++ x) bodies []) (f y : List UInt8) :
    Ear.Spread f bodies (c.step (.receives (x ++ y))).ear (c.step (.receives (x ++ f ++ y))).ear := by
  rw [step_receives_of_running hr hd, step_receives_of_running hr hd]
  refine ⟨rfl, rfl, c.inbox ++ x, y, hx, (List.append_assoc ..).symm, ?_⟩
  simp only [ear, List.append_assoc]

/-- One more frame from the peer is one more act, or none if the reader does not run. -/
theorem acts_insert (hd : c.peerDone = false) (hx : Frame.Cut false (c.inbox ++ x) bodies [])
    (hf : Frame.read false f = .frame g []) (hn : mid.countP Event.isTurn = bodies.length)
    (y : List UInt8) (post : List Event) :
    ∃ before after, (c.step (.receives (x ++ f ++ y))).acts mid = before ∧
      (c.step (.receives (x ++ y))).acts (mid ++ post) = before ++ after ∧
      ((c.step (.receives (x ++ f ++ y))).acts (mid ++ .reads :: post) =
          before ++ .hears g :: after ∨
        (c.step (.receives (x ++ f ++ y))).acts (mid ++ .reads :: post) = before ++ after) := by
  by_cases hr : c.reader = .running
  · exact Ear.acts_of_spread (spread_receives hr hd hx f y) hf hn post
  · rw [step_receives_of_not_running hr, step_receives_of_not_running hr]
    have hr' : (mid.foldl Ear.step c.ear).reader ≠ .running := by
      rw [Ear.reader_of_not_running hr]
      exact hr
    have hfound : (mid.foldl Ear.step c.ear).found = .wait := if_neg hr'
    refine ⟨_, (mid.foldl Ear.step c.ear).acts post, rfl, Ear.acts_append _ _ _, Or.inr ?_⟩
    rw [acts, Ear.acts_append, Ear.acts, Ear.act, Ear.step, hfound]
    rfl

/-- A frame to which the reader has not come has no effect yet. -/
theorem InOrder.rest_unread (h : c.InOrder) (hd : c.peerDone = false)
    (hx : Frame.Cut false (c.inbox ++ x) bodies []) (hn : mid.countP Event.isTurn ≤ bodies.length)
    (f y : List UInt8) :
    (c.run (.receives (x ++ f ++ y) :: mid)).rest = (c.run (.receives (x ++ y) :: mid)).rest := by
  by_cases hr : c.reader = .running
  · have hacts : (c.step (.receives (x ++ f ++ y))).acts mid = (c.step (.receives (x ++ y))).acts mid :=
      ((spread_receives hr hd hx f y).run hn).1
    rw [run_cons, run_cons, rest_run (inOrder_step h _), rest_run (inOrder_step h _),
      h.rest_receives, h.rest_receives, hacts]
  · rw [run_cons, run_cons, step_receives_of_not_running hr, step_receives_of_not_running hr]

/-- **A frame around a body that is ignored leaves no trace but in the log.** It comes behind whole frames,
    on which the reader acts before it, and takes one more turn. -/
theorem InOrder.mute_insert (h : c.InOrder) (hd : c.peerDone = false)
    (hx : Frame.Cut false (c.inbox ++ x) bodies []) (hf : Frame.read false f = .frame g [])
    (hn : mid.countP Event.isTurn = bodies.length) (y : List UInt8)
    (hg : (c.run (.receives (x ++ f ++ y) :: mid)).rest.Ignores g) (post : List Event) :
    (c.run (.receives (x ++ f ++ y) :: (mid ++ .reads :: post))).rest.mute =
      (c.run (.receives (x ++ y) :: (mid ++ post))).rest.mute := by
  obtain ⟨before, after, hbefore, hwithout, hwith⟩ := acts_insert hd hx hf hn y post
  have hstep := inOrder_step h (.receives (x ++ f ++ y))
  rw [run_cons, rest_run hstep, h.rest_receives, hbefore] at hg
  rw [run_cons, run_cons, rest_run hstep, rest_run (inOrder_step h _), h.rest_receives,
    h.rest_receives, hwithout]
  rcases hwith with hwith | hwith
  · rw [hwith]
    exact mute_of_padded (padded_insert hg after) rfl
  · rw [hwith]

/-- **Behind something that is no frame, no byte has any effect**, not even on the log. -/
theorem InOrder.rest_of_broken (h : c.InOrder) (hb : Frame.Broken c.inbox) (bs : List UInt8)
    (es : List Event) : (c.run (.receives bs :: es)).rest = (c.run es).rest := by
  have hacts : (c.step (.receives bs)).acts es = c.acts es := by
    refine Ear.acts_of_beyond ?_ es
    have hnil : c.inbox = c.inbox ++ [] := (List.append_nil _).symm
    rw [ear_step]
    simp only [Ear.step]
    split
    · exact ⟨rfl, rfl, c.inbox, [], bs, hb, hnil, rfl⟩
    · exact ⟨rfl, rfl, c.inbox, [], [], hb, hnil, hnil⟩
  rw [run_cons, rest_run (inOrder_step h _), rest_run h, h.rest_receives, hacts]

end Insertion

/-- The second run is the first with frames around ignored bodies put into the stream of the peer. -/
inductive Interspersed (es : List Event) : List Event → Prop
  | none : Interspersed es es
  /-- Bytes may arrive when none did. -/
  | arrival {pre post : List Event} (h : Interspersed es (pre ++ post)) :
      Interspersed es (pre ++ .receives [] :: post)
  /-- Behind whole frames comes one more, and the reader takes one more turn when it has acted on them. -/
  | heard {pre mid post : List Event} {x f g y : List UInt8} {bodies : List (List UInt8)}
      (h : Interspersed es (pre ++ .receives (x ++ y) :: (mid ++ post)))
      (hd : (start.run pre).peerDone = false)
      (hx : Frame.Cut false ((start.run pre).inbox ++ x) bodies [])
      (hf : Frame.read false f = .frame g [])
      (hn : mid.countP Event.isTurn = bodies.length)
      (hg : (start.run (pre ++ .receives (x ++ f ++ y) :: mid)).rest.Ignores g) :
      Interspersed es (pre ++ .receives (x ++ f ++ y) :: (mid ++ .reads :: post))
  /-- The reader has not come to it. -/
  | unread {pre mid : List Event} {x f y : List UInt8} {bodies : List (List UInt8)}
      (h : Interspersed es (pre ++ .receives (x ++ y) :: mid))
      (hd : (start.run pre).peerDone = false)
      (hx : Frame.Cut false ((start.run pre).inbox ++ x) bodies [])
      (hn : mid.countP Event.isTurn ≤ bodies.length) :
      Interspersed es (pre ++ .receives (x ++ f ++ y) :: mid)

theorem step_receives_nil (c : Connection) : c.step (.receives []) = c := by
  rw [step, receive, List.append_nil]
  exact ite_self c

/-- **Any number of frames around ignored bodies leave no trace but in the log.** -/
theorem mute_run_of_interspersed {es fs : List Event} (h : Interspersed es fs) :
    (start.run fs).rest.mute = (start.run es).rest.mute := by
  induction h with
  | none => rfl
  | arrival h ih =>
    rw [run_append] at ih
    rw [run_append, run_cons, step_receives_nil, ih]
  | @heard pre mid post x f g y bodies h hd hx hf hn hg ih =>
    have hpre : (start.run pre).InOrder := inOrder_run inOrder_start pre
    rw [run_append] at ih hg
    rw [run_append, hpre.mute_insert hd hx hf hn y hg, ih]
  | @unread pre mid x f y bodies h hd hx hn ih =>
    have hpre : (start.run pre).InOrder := inOrder_run inOrder_start pre
    rw [run_append] at ih
    rw [run_append, hpre.rest_unread hd hx hn f y, ih]

/-- **What the peer's messages do, and what they do not.** As long as someone takes them, the
    notifications delivered are those in the bodies on which the reader has acted, in this order and each
    once: in the bodies that decode and have a method and no identifier, with the parameters in the body. A
    body decodes if it lists members with a name, or in their places, and each that is there has its type.
    If nobody takes them any more, nothing else changes.

    Two runs are alike, for the bridge and for the peer, if they differ only in that the reader acts on
    more bodies in the one, all of them ignored. So it is if the peer puts frames around such bodies into
    its stream, any number of them and anywhere between its frames, and the reader takes a turn for each.

    Behind something that is no frame, no byte has any effect: the reader acts on the frames before it and
    ends. -/
theorem ignored_leave_no_trace (es : List Event) :
    let c := start.run es
    (c.hasReceiver = true → c.notifications = (start.bodies es).filterMap notification?) ∧
    (start.bodies es <+: Frame.bodiesIn c.peerDone (start.arrivals es) ∧
      (c.reader ≠ .aborted → c.ear.nextBody? = none →
        start.bodies es = Frame.bodiesIn c.peerDone (start.arrivals es))) ∧
    (∀ body n, notification? body = some n ↔ ∃ m, Message.ofBody? body = some m ∧
      m.method = some n.method ∧ m.id = none ∧ n.params = m.params.getD .null) ∧
    (∀ body m, Message.ofBody? body = some m ↔ m.IsIn body) ∧
    (∀ fs, c.run (.dropsReceiver :: fs) =
      { c.run fs with hasReceiver := false, notifications := c.notifications }) ∧
    (∀ fs, Padded start.rest (start.acts es) (start.acts fs) → Alike (start.run fs) c) ∧
    (∀ fs, Interspersed es fs → Alike (start.run fs) c) ∧
    (Frame.Broken c.inbox → ∀ bs fs, (c.run (.receives bs :: fs)).rest = (c.run fs).rest) ∧
    ∀ bodies left err, c.reader = .running → Frame.Cut false c.inbox bodies left →
      Frame.read false left = .failed err →
      (c.run (List.replicate (bodies.length + 1) .reads)).reader = .ended := by
  intro c
  have h : c.InOrder := inOrder_run inOrder_start es
  refine ⟨notifications_run es, bodies_of_run es, fun _ _ => notification?_eq_some_iff,
    fun _ _ => Message.ofBody?_eq_some_iff, h.run_dropsReceiver, fun fs hp => alike_of_mute (mute_run_of_padded hp),
    fun fs hi => alike_of_mute (mute_run_of_interspersed hi),
    fun hb bs fs => h.rest_of_broken hb bs fs, ?_⟩
  intro bodies left err hr hcut hleft
  have hear := ear_run c (List.replicate (bodies.length + 1) .reads)
  exact (congrArg Ear.reader hear).trans (Ear.reader_of_failed hr hcut hleft)

/-- A frame around `?` comes before a notification and the response to the call that waits; the notification
    is delivered. -/
theorem ignored_leave_no_trace_question :
    let f := Frame.encode [0x3F]
    let y := Frame.encode (Json.arr [.null, .str "n", .int 1]).printBytes ++
      Frame.encode (Json.arr [.int 1]).printBytes
    let es : List Event := [.requests .shutdown, .receives ([] ++ y), .reads, .reads]
    let fs : List Event := [.requests .shutdown, .receives ([] ++ f ++ y), .reads, .reads, .reads]
    Interspersed es fs ∧ Alike (start.run fs) (start.run es) ∧ (start.run fs).pending.isEmpty = true ∧
      (start.run fs).notifications.map (fun n => (n.method, n.params.printBytes)) =
        [("n", (Json.int 1).printBytes)] := by
  intro f y es fs
  have hf : Frame.read false f = .frame [0x3F] [] := by decide +kernel
  have hbad : Message.ofBody? [0x3F] = none := by rfl
  have hfs : Interspersed es ([.requests .shutdown] ++
      .receives ([] ++ f ++ y) :: ([] ++ .reads :: [.reads, .reads])) := by
    refine .heard .none rfl (.none []) hf rfl ?_
    intro m hm
    cases hbad.symm.trans hm
  obtain ⟨hdelivered, -, -, -, -, -, hinsert, -⟩ := ignored_leave_no_trace es
  have halike : Alike (start.run fs) (start.run es) := hinsert fs hfs
  have hanswered : (start.run es).pending.isEmpty = true := by decide +kernel
  have hread : ((start.bodies es).filterMap notification?).map (fun n => (n.method, n.params.printBytes)) =
      [("n", (Json.int 1).printBytes)] := by
    decide +kernel
  refine ⟨hfs, halike, ?_, ?_⟩
  · rw [halike.pending]
    exact hanswered
  · rw [halike.notifications, hdelivered (by decide +kernel)]
    exact hread

end Connection

end EditorBridge.Rpc
