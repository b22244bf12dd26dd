import EditorBridge.Proofs.Rpc.Acts

/-!
# More bytes from the peer

Two reading sides that go through the same events, but have different bytes before them:

* behind something wrong (`Beyond`) -- whatever comes there, the acts are the same (`acts_of_beyond`);
* with one more frame in the stream (`Spread`) -- the acts are the same until the reader has acted on all
  frames before it; then it takes one more turn, acts on the body of that frame, and from there on the
  acts are the same again (**`acts_of_spread`**).
-/

namespace EditorBridge.Rpc

/-- Whether an event is a turn of the reader. -/
def Event.isTurn : Event → Bool
  | .reads => true
  | _ => false

namespace Ear

variable {a a' : Ear}

/-! ## 1. A reader that does not run -/

theorem act_of_not_running (hr : a'.reader = a.reader) (h : a.reader ≠ .running) (e : Event) :
    a'.act e = a.act e := by
  cases e with
  | reads =>
    have hf : a.found = .wait := if_neg h
    have hf' : a'.found = .wait := if_neg (hr ▸ h)
    rw [act, act, hf, hf']
  | _ => rfl

theorem reader_step_of_not_running (h : a.reader ≠ .running) (e : Event) :
    (a.step e).reader = a.reader := by
  cases e with
  | receives bs =>
    simp only [step]
    split
    · rfl
    · rfl
  | aborts => exact if_neg h
  | reads =>
    have hf : a.found = .wait := if_neg h
    rw [step, hf]
  | _ => rfl

theorem reader_of_not_running (h : a.reader ≠ .running) (es : List Event) :
    (es.foldl step a).reader = a.reader := by
  induction es generalizing a with
  | nil => rfl
  | cons e es ih =>
    have hstep := reader_step_of_not_running h e
    rw [List.foldl_cons, ih (by rw [hstep]; exact h), hstep]

theorem acts_of_not_running (hr : a'.reader = a.reader) (h : a.reader ≠ .running) (es : List Event) :
    a'.acts es = a.acts es := by
  induction es generalizing a a' with
  | nil => rfl
  | cons e es ih =>
    have hstep := reader_step_of_not_running h e
    have hstep' := reader_step_of_not_running (hr ▸ h) e
    rw [acts, acts, act_of_not_running hr h, ih (by rw [hstep, hstep', hr]) (by rw [hstep]; exact h)]

/-- An event that is no turn of the reader does the same to both and brings the same bytes. -/
theorem step_quiet (hr : a'.reader = a.reader) (hd : a'.peerDone = a.peerDone) {e : Event}
    (he : e.isTurn = false) :
    a'.act e = a.act e ∧ (a'.step e).reader = (a.step e).reader ∧
      (a'.step e).peerDone = (a.step e).peerDone ∧
      ∃ bs, (a.step e).inbox = a.inbox ++ bs ∧ (a'.step e).inbox = a'.inbox ++ bs := by
  have hnil : ∃ bs, a.inbox = a.inbox ++ bs ∧ a'.inbox = a'.inbox ++ bs :=
    ⟨[], (List.append_nil _).symm, (List.append_nil _).symm⟩
  cases e with
  | receives bs =>
    refine ⟨rfl, ?_⟩
    simp only [step, hr, hd]
    split
    · exact ⟨rfl, rfl, bs, rfl, rfl⟩
    · exact ⟨hr, hd, hnil⟩
  | hangsUp => exact ⟨rfl, hr, rfl, hnil⟩
  | aborts => exact ⟨rfl, by simp only [step, hr], hd, hnil⟩
  | reads => cases he
  | _ => exact ⟨rfl, hr, hd, hnil⟩

/-! ## 2. Behind something wrong -/

/-- Both have the same bytes before them up to something wrong. -/
structure Beyond (a a' : Ear) : Prop where
  reader : a'.reader = a.reader
  peerDone : a'.peerDone = a.peerDone
  inbox : ∃ s more more', Frame.Broken s ∧ a.inbox = s ++ more ∧ a'.inbox = s ++ more'

/-- Both find the same frame or the same fault. -/
theorem Beyond.step_reads (h : Beyond a a') (hrun : a.reader = .running) :
    a'.act .reads = a.act .reads ∧ Beyond (a.step .reads) (a'.step .reads) := by
  obtain ⟨hr, hd, s, more, more', ⟨bodies, left, err, hcut, hleft⟩, hi, hi'⟩ := h
  have hf : a.found = Frame.read a.peerDone (s ++ more) := hi ▸ if_pos hrun
  have hf' : a'.found = Frame.read a.peerDone (s ++ more') := hi' ▸ hd ▸ if_pos (hr.trans hrun)
  cases hcut with
  | none =>
    have hread := fun m => Frame.read_append_of_failed a.peerDone m hleft
    rw [act, act, Ear.step, Ear.step, hf, hf', hread, hread]
    exact ⟨rfl, rfl, hd, s, more, more', ⟨[], s, err, .none s, hleft⟩, hi, hi'⟩
  | @frame _ body rest _ bodies h hs =>
    have hread := fun m => Frame.read_append_of_frame a.peerDone m h
    rw [act, act, Ear.step, Ear.step, hf, hf', hread, hread]
    exact ⟨rfl, hr, hd, rest, more, more', ⟨bodies, left, err, hs, hleft⟩, rfl, rfl⟩

theorem Beyond.step (h : Beyond a a') (hrun : a.reader = .running) (e : Event) :
    a'.act e = a.act e ∧ Beyond (a.step e) (a'.step e) := by
  cases he : e.isTurn with
  | true =>
    cases e with
    | reads => exact h.step_reads hrun
    | _ => cases he
  | false =>
    obtain ⟨s, more, more', hs, hi, hi'⟩ := h.inbox
    obtain ⟨hact, hreader, hdone, bs, hb, hb'⟩ := step_quiet h.reader h.peerDone he
    refine ⟨hact, hreader, hdone, s, more ++ bs, more' ++ bs, hs, ?_, ?_⟩
    · rw [hb, hi, List.append_assoc]
    · rw [hb', hi', List.append_assoc]

/-- **What comes behind something wrong means nothing.** -/
theorem acts_of_beyond (h : Beyond a a') (es : List Event) : a'.acts es = a.acts es := by
  induction es generalizing a a' with
  | nil => rfl
  | cons e es ih =>
    by_cases hrun : a.reader = .running
    · obtain ⟨hact, hnext⟩ := h.step hrun e
      rw [acts, acts, hact, ih hnext]
    · exact acts_of_not_running h.reader hrun _

/-- Something wrong ends the reader, once it has acted on the frames before it. -/
theorem reader_of_failed (hrun : a.reader = .running) {bodies : List (List UInt8)} {left : List UInt8}
    {err : Frame.Error} (hcut : Frame.Cut false a.inbox bodies left)
    (hleft : Frame.read false left = .failed err) :
    ((List.replicate (bodies.length + 1) Event.reads).foldl step a).reader = .ended := by
  induction bodies generalizing a with
  | nil =>
    have hf : a.found = .failed err := by
      have hread := Frame.read_append_of_failed a.peerDone [] hleft
      cases hcut
      rw [List.append_nil] at hread
      exact (if_pos hrun).trans hread
    rw [List.length_nil, List.replicate_succ, List.foldl_cons, step, hf]
    rfl
  | cons body bodies ih =>
    generalize hi : a.inbox = s at hcut
    cases hcut with
    | @frame _ _ rest _ _ h hs =>
      have hread := Frame.read_append_of_frame a.peerDone [] h
      rw [List.append_nil, List.append_nil, ← hi] at hread
      have hf : a.found = .frame body rest := (if_pos hrun).trans hread
      rw [List.length_cons, List.replicate_succ, List.foldl_cons, step, hf]
      exact ih (a := { a with inbox := rest }) hrun hs

/-! ## 3. One more frame -/

/-- Behind the frames with these bodies, `a'` has the bytes `f` more than `a`. -/
structure Spread (f : List UInt8) (bodies : List (List UInt8)) (a a' : Ear) : Prop where
  reader : a'.reader = a.reader
  peerDone : a'.peerDone = a.peerDone
  inbox : ∃ x y, Frame.Cut false x bodies [] ∧ a.inbox = x ++ y ∧ a'.inbox = x ++ f ++ y

variable {f : List UInt8} {bodies : List (List UInt8)}

theorem Spread.step_quiet (h : Spread f bodies a a') {e : Event} (he : e.isTurn = false) :
    a'.act e = a.act e ∧ Spread f bodies (a.step e) (a'.step e) := by
  obtain ⟨x, y, hx, hi, hi'⟩ := h.inbox
  obtain ⟨hact, hreader, hdone, bs, hb, hb'⟩ := Ear.step_quiet h.reader h.peerDone he
  refine ⟨hact, hreader, hdone, x, y ++ bs, hx, ?_, ?_⟩
  · rw [hb, hi, List.append_assoc]
  · rw [hb', hi', List.append_assoc]

/-- Both find the first of the frames that come before. -/
theorem Spread.step_reads {body : List UInt8} (h : Spread f (body :: bodies) a a')
    (hrun : a.reader = .running) :
    a'.act .reads = a.act .reads ∧ Spread f bodies (a.step .reads) (a'.step .reads) := by
  obtain ⟨hr, hd, x, y, hx, hi, hi'⟩ := h
  have hf : a.found = Frame.read a.peerDone (x ++ y) := hi ▸ if_pos hrun
  have hf' : a'.found = Frame.read a.peerDone (x ++ (f ++ y)) :=
    List.append_assoc x f y ▸ hi' ▸ hd ▸ if_pos (hr.trans hrun)
  cases hx with
  | @frame _ _ rest _ _ h hs =>
    have hread := fun m => Frame.read_append_of_frame a.peerDone m h
    rw [act, act, Ear.step, Ear.step, hf, hf', hread, hread]
    exact ⟨rfl, hr, hd, rest, y, hs, rfl, (List.append_assoc rest f y).symm⟩

/-- Events with at most as many turns as there are frames before. -/
theorem Spread.run {es : List Event} (h : Spread f bodies a a')
    (hn : es.countP Event.isTurn ≤ bodies.length) :
    a'.acts es = a.acts es ∧ (es.foldl Ear.step a').reader = (es.foldl Ear.step a).reader ∧
      ((es.foldl Ear.step a).reader = .running →
        Spread f (bodies.drop (es.countP Event.isTurn)) (es.foldl Ear.step a)
          (es.foldl Ear.step a')) := by
  induction es generalizing a a' bodies with
  | nil => exact ⟨rfl, h.reader, fun _ => h⟩
  | cons e es ih =>
    by_cases hrun : a.reader = .running
    · have hstep : ∃ bodies', a'.act e = a.act e ∧ Spread f bodies' (a.step e) (a'.step e) ∧
          es.countP Event.isTurn ≤ bodies'.length ∧
          bodies.drop ((e :: es).countP Event.isTurn) = bodies'.drop (es.countP Event.isTurn) := by
        cases he : e.isTurn with
        | false =>
          have hcount : (e :: es).countP Event.isTurn = es.countP Event.isTurn :=
            List.countP_cons_of_neg (by rw [he]; exact Bool.false_ne_true)
          obtain ⟨hact, hnext⟩ := h.step_quiet he
          exact ⟨bodies, hact, hnext, hcount ▸ hn, by rw [hcount]⟩
        | true =>
          have hcount : (e :: es).countP Event.isTurn = es.countP Event.isTurn + 1 :=
            List.countP_cons_of_pos he
          rw [hcount] at hn ⊢
          cases e with
          | reads =>
            cases bodies with
            | nil => exact absurd hn (Nat.not_succ_le_zero _)
            | cons body bodies =>
              obtain ⟨hact, hnext⟩ := h.step_reads hrun
              exact ⟨bodies, hact, hnext, Nat.le_of_succ_le_succ hn, rfl⟩
          | _ => cases he
      obtain ⟨bodies', hact, hnext, hn', hdrop⟩ := hstep
      obtain ⟨hacts, hreader, hspread⟩ := ih hnext hn'
      refine ⟨?_, hreader, hdrop ▸ hspread⟩
      rw [acts, acts, hact, hacts]
    · have hr := reader_of_not_running hrun (e :: es)
      have hr' := reader_of_not_running (a := a') (h.reader ▸ hrun) (e :: es)
      refine ⟨acts_of_not_running h.reader hrun _, by rw [hr, hr', h.reader], fun hrun' => ?_⟩
      exact absurd (hr.symm.trans hrun') hrun

/-- **One more frame in the stream is one more act**, or none if the reader does not run. -/
theorem acts_of_spread {g : List UInt8} {mid : List Event} (h : Spread f bodies a a')
    (hf : Frame.read false f = .frame g []) (hn : mid.countP Event.isTurn = bodies.length)
    (post : List Event) :
    ∃ before after, a'.acts mid = before ∧ a.acts (mid ++ post) = before ++ after ∧
      (a'.acts (mid ++ .reads :: post) = before ++ .hears g :: after ∨
        a'.acts (mid ++ .reads :: post) = before ++ after) := by
  obtain ⟨hacts, hreader, hspread⟩ := h.run (Nat.le_of_eq hn)
  rw [hn, List.drop_length] at hspread
  refine ⟨_, _, rfl, by rw [acts_append, hacts], ?_⟩
  rw [acts_append, acts]
  by_cases hrun : (mid.foldl Ear.step a).reader = .running
  · obtain ⟨hr, hd, x, y, hx, hi, hi'⟩ := hspread hrun
    cases hx
    have hfound : (mid.foldl Ear.step a').found = .frame g y := by
      rw [found, if_pos (hr.trans hrun), hd, hi']
      exact Frame.read_append_of_frame _ y hf
    -- when the reader has acted on the frame, the bytes before it are those without the frame
    have hnext : (mid.foldl Ear.step a').step .reads = mid.foldl Ear.step a := by
      rw [Ear.step, hfound]
      revert hr hd hi
      generalize mid.foldl Ear.step a = b
      intro hr hd hi
      obtain ⟨⟩ := b
      cases hr
      cases hd
      cases hi
      rfl
    refine Or.inl ?_
    rw [act, hfound, hnext]
    rfl
  · have hfound : (mid.foldl Ear.step a').found = .wait := if_neg (hreader ▸ hrun)
    refine Or.inr ?_
    rw [act, Ear.step, hfound, acts_of_not_running hreader hrun]
    rfl

end Ear

end EditorBridge.Rpc
