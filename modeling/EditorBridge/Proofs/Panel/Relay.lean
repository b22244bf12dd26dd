import EditorBridge.Proofs.Panel.Moves

/-!
# What passes through the channel of a panel

The channel of a panel is a queue: whoever holds the other end puts events in, the relay takes them out.
A list of moves accounts for them as for any queue, as long as the relay runs: what has been sent is what has
been taken and what waits. A relay that has come to its own end has taken all messages before the first
`disposed`, or all there were in a channel that was closed; one that was stopped has taken some of them.

* `View.Passes`, `passes_step` -- all that one move does to the channel and the relay of a panel;
* `Carried` -- the account, and `carried_step` one move of it;
* **`taken_of_run`** -- so the messages that are taken are those before the first `disposed`, in order;
* **`taken_of_turns`** -- and as many turns of the relay as there are events waiting take every message that
  waits before the first `disposed`, whatever anybody else does.
-/

namespace EditorBridge.Panel

/-- The messages before the first `disposed`. -/
def messages : List Event → List Json
  | .message j :: es => j :: messages es
  | _ => []

theorem messages_append (js : List Json) (es : List Event) :
    messages (js.map .message ++ es) = js ++ messages es := by
  induction js with
  | nil => rfl
  | cons j js ih => rw [List.map_cons, List.cons_append, messages, ih, List.cons_append]

theorem messages_map (js : List Json) : messages (js.map .message) = js := by
  have h : messages (js.map .message ++ []) = js ++ [] := messages_append js []
  simpa only [List.append_nil] using h

theorem messages_prefix {es fs : List Event} (h : es <+: fs) : messages es <+: messages fs := by
  induction es generalizing fs with
  | nil => exact List.nil_prefix
  | cons e es ih =>
    obtain ⟨rest, rfl⟩ := h
    cases e with
    | message j => exact (List.prefix_cons_inj j).mpr (ih (List.prefix_append es rest))
    | disposed => exact List.nil_prefix

/-! ## 1. One move -/

/-- All that a move can do to the channel and the relay of a panel: with the events that it puts in, and
    the messages that it takes out. -/
inductive View.Passes (v : View) (isTurn : Bool) : List Event → List Json → View → Prop
  /-- Nothing passes. A turn of a relay that runs finds the channel empty. -/
  | rests {v' : View} (hchannel : v'.channel = v.channel) (hclosed : v.closed = true → v'.closed = true)
      (hrelay : v'.relay = v.relay ∨ v.relay = .running ∧ v'.relay = .aborted ∨
        v.relay = .leaving ∧ v'.relay = .finished)
      (hturn : isTurn = true → v.relay = .running → v.channel = []) : Passes v isTurn [] [] v'
  | sends {e : Event} (hclosed : v.closed = false) (hrelay : v.relay = .running ∨ v.relay = .leaving)
      (hturn : isTurn = false) : Passes v isTurn [e] [] { v with channel := v.channel ++ [e] }
  | takes {j : Json} {es : List Event} (hrelay : v.relay = .running) (hchannel : v.channel = .message j :: es) :
      Passes v isTurn [] [j] { v with channel := es }
  | leaves {es : List Event} (hrelay : v.relay = .running)
      (hchannel : v.channel = .disposed :: es ∨ v.channel = [] ∧ es = [] ∧ v.closed = true) :
      Passes v isTurn [] [] { v with channel := es, relay := .leaving }

namespace Bridge

/-- The events that a move puts into the channel of panel `n`. -/
def sentIn (n : Nat) (b : Bridge) : Move → List Event
  | .sends k e => if k = n ∧ b.accepts n then [e] else []
  | _ => []

/-- The messages that a move takes out of the channel of panel `n`. -/
def takenIn (n : Nat) (b : Bridge) : Move → List Json
  | .takes k => if k = n then ((b.take? n).bind Prod.snd).toList else []
  | _ => []

/-- The events that have been put into the channel of panel `n`. -/
def sent (n : Nat) (b : Bridge) : List Move → List Event
  | [] => []
  | m :: ms => b.sentIn n m ++ (b.step m).sent n ms

/-- The messages that have been taken out of the channel of panel `n`. -/
def taken (n : Nat) (b : Bridge) : List Move → List Json
  | [] => []
  | m :: ms => b.takenIn n m ++ (b.step m).taken n ms

variable {b : Bridge} {n : Nat} {v : View}

/-- A move through which nothing passes. -/
theorem View.Next.passes {m : Move} {v' : View} (h : v.Next n m v') (hsends : ∀ e, m ≠ .sends n e)
    (htakes : m ≠ .takes n) : v.Passes (m.isTurnOf n) [] [] v' := by
  have hturn : m.isTurnOf n = true → v.relay = .running → v.channel = [] := by
    intro ht
    cases m with
    | takes k => exact absurd (congrArg Move.takes (beq_iff_eq.mp ht)) htakes
    | _ => cases ht
  cases h with
  | kept visible => exact .rests rfl id (Or.inl rfl) hturn
  | sent e => exact absurd rfl (hsends e)
  | closed => exact .rests rfl (fun _ => rfl) (Or.inl rfl) hturn
  | message | disposed | ended => exact absurd rfl htakes
  | released hr => exact .rests rfl id (Or.inr (Or.inr ⟨hr, rfl⟩)) hturn
  | aborted hr => exact .rests rfl id (Or.inr (Or.inl ⟨hr, rfl⟩)) hturn

theorem passes_sends (hv : b.views[n]? = some v) (e : Event) :
    ∃ v', (b.step (.sends n e)).views[n]? = some v' ∧ v.Passes false (b.sentIn n (.sends n e)) [] v' := by
  show ∃ v', (b.send n e).views[n]? = some v' ∧ _
  rw [send, sentIn]
  by_cases ha : b.accepts n = true
  · rw [if_pos ha, if_pos ⟨rfl, ha⟩]
    refine ⟨_, (getElem?_update _ hv).trans (congrArg some (if_pos rfl)), ?_⟩
    rw [accepts, hv] at ha
    simp only [Bool.and_eq_true, Bool.not_eq_true', Bool.or_eq_true, beq_iff_eq] at ha
    exact .sends ha.1 ha.2 rfl
  · rw [if_neg ha, if_neg fun h => ha h.2]
    exact ⟨v, hv, .rests rfl id (Or.inl rfl) fun h => absurd h Bool.false_ne_true⟩

theorem passes_takes (hv : b.views[n]? = some v) :
    ∃ v', (b.step (.takes n)).views[n]? = some v' ∧ v.Passes true [] (b.takenIn n (.takes n)) v' := by
  show ∃ v', (((b.take? n).map Prod.fst).getD b).views[n]? = some v' ∧ _
  rw [takenIn, if_pos rfl]
  have hupdate : ∀ f : View → View, (b.update n f).views[n]? = some (f v) :=
    fun f => (getElem?_update f hv).trans (congrArg some (if_pos rfl))
  cases ht : b.take? n with
  | none =>
    refine ⟨v, hv, .rests rfl id (Or.inl rfl) fun _ hr => ?_⟩
    rcases take?_none hv ht with hno | ⟨hempty, -⟩
    · exact absurd hr hno
    · exact hempty
  | some r =>
    rw [take?, hv] at ht
    obtain ⟨visible, channel, closed, relay⟩ := v
    cases relay with
    | running =>
      cases channel with
      | nil =>
        cases closed with
        | false => cases ht
        | true =>
          cases ht
          exact ⟨_, hupdate _, .leaves rfl (Or.inr ⟨rfl, rfl, rfl⟩)⟩
      | cons e es =>
        cases e with
        | message j =>
          cases ht
          exact ⟨_, hupdate _, .takes rfl rfl⟩
        | disposed =>
          cases ht
          exact ⟨_, hupdate _, .leaves rfl (Or.inl rfl)⟩
    | leaving | finished | aborted => cases ht

/-- **All that a move does to the channel of a panel.** -/
theorem passes_step (hv : b.views[n]? = some v) (m : Move) :
    ∃ v', (b.step m).views[n]? = some v' ∧ v.Passes (m.isTurnOf n) (b.sentIn n m) (b.takenIn n m) v' := by
  have hother : (∀ e, m ≠ .sends n e) → m ≠ .takes n → b.sentIn n m = [] → b.takenIn n m = [] →
      ∃ v', (b.step m).views[n]? = some v' ∧ v.Passes (m.isTurnOf n) (b.sentIn n m) (b.takenIn n m) v' := by
    intro hsends htakes hsent htaken
    obtain ⟨v', hv', hnext⟩ := next_step hv m
    rw [hsent, htaken]
    exact ⟨v', hv', View.Next.passes hnext hsends htakes⟩
  cases m with
  | sends k e =>
    by_cases hk : k = n
    · subst hk
      exact passes_sends hv e
    · exact hother (fun e' h => hk (Move.sends.inj h).1) (fun h => nomatch h) (if_neg fun h => hk h.1) rfl
  | takes k =>
    by_cases hk : k = n
    · subst hk
      have hturn : (Move.takes k).isTurnOf k = true := beq_self_eq_true k
      rw [hturn]
      exact passes_takes hv
    · exact hother (fun e' h => nomatch h) (fun h => hk (Move.takes.inj h)) rfl (if_neg hk)
  | _ => exact hother (fun e' h => nomatch h) (fun h => nomatch h) rfl rfl

end Bridge

/-! ## 2. The account of a panel -/

/-- What has been sent to a panel and what its relay has taken, by what the relay is doing. -/
inductive View.Carried (v : View) : List Event → List Json → Prop
  | running {js : List Json} (hr : v.relay = .running) : Carried v (js.map .message ++ v.channel) js
  | disposed {js : List Json} {es : List Event} (hr : v.relay = .leaving ∨ v.relay = .finished) :
      Carried v (js.map .message ++ .disposed :: es) js
  | closed {js : List Json} (hr : v.relay = .leaving ∨ v.relay = .finished) (hc : v.closed = true) :
      Carried v (js.map .message) js
  | aborted {js : List Json} {es : List Event} (hr : v.relay = .aborted) : Carried v (js.map .message ++ es) js

namespace View

variable {v v' : View} {isTurn : Bool} {es fs : List Event} {js ks : List Json}

/-- A relay that does not change in a move through which nothing passes. -/
theorem Carried.rests (h : v.Carried es js) (hchannel : v'.channel = v.channel)
    (hclosed : v.closed = true → v'.closed = true)
    (hrelay : v'.relay = v.relay ∨ v.relay = .running ∧ v'.relay = .aborted ∨
      v.relay = .leaving ∧ v'.relay = .finished) : v'.Carried es js := by
  have hended : v.relay = .leaving ∨ v.relay = .finished → v'.relay = .leaving ∨ v'.relay = .finished := by
    intro hr
    rcases hrelay with hsame | ⟨hrun, -⟩ | ⟨-, hfin⟩
    · rwa [hsame]
    · rw [hrun] at hr
      rcases hr with hr | hr <;> cases hr
    · exact Or.inr hfin
  cases h with
  | running hr =>
    rcases hrelay with hsame | ⟨-, habort⟩ | ⟨hleave, -⟩
    · rw [← hchannel]
      exact .running (hsame.trans hr)
    · exact .aborted habort
    · cases hr.symm.trans hleave
  | disposed hr => exact .disposed (hended hr)
  | closed hr hc => exact .closed (hended hr) (hclosed hc)
  | aborted hr =>
    rcases hrelay with hsame | ⟨hrun, -⟩ | ⟨hleave, -⟩
    · exact .aborted (hsame.trans hr)
    · cases hr.symm.trans hrun
    · cases hr.symm.trans hleave

/-- **What one move adds to the account.** -/
theorem carried_step (h : v.Carried es js) (hpass : v.Passes isTurn fs ks v') :
    v'.Carried (es ++ fs) (js ++ ks) := by
  cases hpass with
  | rests hchannel hclosed hrelay =>
    rw [List.append_nil, List.append_nil]
    exact h.rests hchannel hclosed hrelay
  | @sends e hopen hrelay =>
    rw [List.append_nil]
    cases h with
    | running hr =>
      rw [List.append_assoc]
      exact .running hr
    | disposed hr =>
      rw [List.append_assoc]
      exact .disposed hr
    | closed hr hc => cases hopen.symm.trans hc
    | aborted hr => rw [hr] at hrelay; rcases hrelay with hr' | hr' <;> cases hr'
  | @takes j rest hrelay hchannel =>
    rw [List.append_nil]
    cases h with
    | running hr =>
      have hsplit : js.map .message ++ v.channel = (js ++ [j]).map .message ++ rest := by
        rw [hchannel, List.map_append, List.append_assoc]
        rfl
      rw [hsplit]
      exact .running (v := { v with channel := rest }) hr
    | disposed hr | closed hr => rw [hrelay] at hr; rcases hr with hr | hr <;> cases hr
    | aborted hr => cases hrelay.symm.trans hr
  | @leaves rest hrelay hchannel =>
    rw [List.append_nil, List.append_nil]
    cases h with
    | running hr =>
      rcases hchannel with hchannel | ⟨hchannel, -, hclosed⟩
      · rw [hchannel]
        exact .disposed (Or.inl rfl)
      · rw [hchannel, List.append_nil]
        exact .closed (Or.inl rfl) hclosed
    | disposed hr | closed hr => rw [hrelay] at hr; rcases hr with hr | hr <;> cases hr
    | aborted hr => cases hrelay.symm.trans hr

/-- What has been taken are messages before the first `disposed`: all of them, once the relay has ended. -/
theorem Carried.taken (h : v.Carried es js) :
    js <+: messages es ∧ (v.relay = .running → es = js.map .message ++ v.channel) ∧
      (v.relay = .leaving ∨ v.relay = .finished → js = messages es) := by
  cases h with
  | running hr =>
    refine ⟨messages_append js _ ▸ List.prefix_append .., fun _ => rfl, fun hend => ?_⟩
    rw [hr] at hend
    rcases hend with hend | hend <;> cases hend
  | @disposed _ rest hr =>
    have hall : messages (js.map .message ++ .disposed :: rest) = js := by
      rw [messages_append]
      exact List.append_nil js
    refine ⟨hall.symm ▸ List.prefix_rfl, fun hrun => ?_, fun _ => hall.symm⟩
    rw [hrun] at hr
    rcases hr with hr | hr <;> cases hr
  | closed hr =>
    refine ⟨(messages_map js).symm ▸ List.prefix_rfl, fun hrun => ?_, fun _ => (messages_map js).symm⟩
    rw [hrun] at hr
    rcases hr with hr | hr <;> cases hr
  | aborted hr =>
    refine ⟨messages_append js _ ▸ List.prefix_append .., fun hrun => ?_, fun hend => ?_⟩
    · cases hr.symm.trans hrun
    · rw [hr] at hend
      rcases hend with hend | hend <;> cases hend

end View

namespace Bridge

variable {b : Bridge} {n : Nat}

/-- The account of a panel, or of one that does not exist yet. -/
def Accounts (n : Nat) (b : Bridge) (es : List Event) (js : List Json) : Prop :=
  match b.views[n]? with
  | some v => v.Carried es js
  | none => es = [] ∧ js = []

theorem accounts_empty (n : Nat) (title html : String) : (empty title html).Accounts n [] [] := ⟨rfl, rfl⟩

theorem accounts_step {es : List Event} {js : List Json} (h : b.Accounts n es js) (m : Move) :
    (b.step m).Accounts n (es ++ b.sentIn n m) (js ++ b.takenIn n m) := by
  unfold Accounts at h
  split at h
  · rename_i v hv
    obtain ⟨v', hv', hpass⟩ := passes_step hv m
    rw [Accounts, hv']
    exact View.carried_step h hpass
  · rename_i hv
    obtain ⟨rfl, rfl⟩ := h
    have hsent : b.sentIn n m = [] := by
      have hno : ¬ b.accepts n = true := by
        rw [accepts, hv]
        exact Bool.false_ne_true
      cases m with
      | sends k e => exact if_neg fun h => hno h.2
      | _ => rfl
    have htaken : b.takenIn n m = [] := by
      cases m with
      | takes k =>
        rw [takenIn, take?, hv]
        exact ite_self _
      | _ => rfl
    rw [hsent, htaken, List.append_nil, List.append_nil, Accounts]
    rcases current_step b m with ⟨-, -, -, hviews⟩ | ⟨-, hlen, -⟩
    · have hle : b.views.length ≤ n := List.getElem?_eq_none_iff.mp hv
      rw [hviews, List.getElem?_append_right hle]
      cases n - b.views.length with
      | zero =>
        have hnew : View.Carried ⟨true, [], false, .running⟩ (([] : List Json).map .message ++ []) [] :=
          .running rfl
        exact hnew
      | succ k => exact ⟨rfl, rfl⟩
    · have hnone : (b.step m).views[n]? = none := by
        rw [List.getElem?_eq_none_iff] at hv ⊢
        omega
      rw [hnone]
      exact ⟨rfl, rfl⟩

/-- **What has been taken from a panel is accounted for.** -/
theorem accounts_run {es : List Event} {js : List Json} (h : b.Accounts n es js) (ms : List Move) :
    (b.run ms).Accounts n (es ++ b.sent n ms) (js ++ b.taken n ms) := by
  induction ms generalizing b es js with
  | nil =>
    rw [sent, taken, List.append_nil, List.append_nil]
    exact h
  | cons m ms ih =>
    rw [run_cons, sent, taken, ← List.append_assoc, ← List.append_assoc]
    exact ih (accounts_step h m)

/-! ## 3. Turns of a relay -/

/-- The turns of the relay of panel `n` among some moves. -/
def turns (n : Nat) (ms : List Move) : Nat := ms.countP (Move.isTurnOf n)

/-- A relay that runs at the end of some moves has run all the time. -/
theorem running_of_run {v : View} (hv : b.views[n]? = some v) {ms : List Move}
    (hr : (b.run ms).relay? n = some .running) : v.relay = .running := by
  induction ms generalizing b v with
  | nil => exact Option.some.inj ((relay?_of_view hv).symm.trans hr)
  | cons m ms ih =>
    obtain ⟨v', hv', hpass⟩ := passes_step hv m
    have hr' : v'.relay = .running := ih hv' hr
    generalize b.sentIn n m = put, b.takenIn n m = now at hpass
    cases hpass with
    | rests _ _ hrelay =>
      rcases hrelay with hsame | ⟨-, habort⟩ | ⟨-, hfin⟩
      · exact hsame.symm.trans hr'
      · cases hr'.symm.trans habort
      · cases hr'.symm.trans hfin
    | sends => exact hr'
    | takes hrelay => exact hrelay
    | leaves hrelay => exact hrelay

/-- A relay that runs at the end has taken an event in each turn, until there was none. -/
theorem le_length_taken {v : View} (hv : b.views[n]? = some v) {ms : List Move}
    (hr : (b.run ms).relay? n = some .running) :
    min (turns n ms) v.channel.length ≤ (b.taken n ms).length := by
  induction ms generalizing b v with
  | nil => simp [turns]
  | cons m ms ih =>
    have hrun : v.relay = .running := running_of_run hv hr
    obtain ⟨v', hv', hpass⟩ := passes_step hv m
    have hrest : min (turns n ms) v'.channel.length ≤ ((b.step m).taken n ms).length := ih hv' hr
    have hturns : turns n (m :: ms) = turns n ms + if m.isTurnOf n then 1 else 0 := List.countP_cons ..
    have hbound : turns n (m :: ms) ≤ turns n ms + 1 := by
      rw [hturns]
      split <;> omega
    have htaken : (b.taken n (m :: ms)).length =
        (b.takenIn n m).length + ((b.step m).taken n ms).length := List.length_append
    rw [htaken]
    generalize b.sentIn n m = put, b.takenIn n m = now at hpass ⊢
    cases hpass with
    | rests hchannel _ _ hturn =>
      by_cases ht : m.isTurnOf n = true
      · have hempty : v.channel.length = 0 := List.length_eq_zero_iff.mpr (hturn ht hrun)
        omega
      · rw [if_neg ht] at hturns
        have hlen : v'.channel.length = v.channel.length := congrArg List.length hchannel
        omega
    | sends _ _ hturn =>
      rw [hturn] at hturns
      simp only [Bool.false_eq_true, if_false] at hturns
      simp only [List.length_append, List.length_cons, List.length_nil] at hrest ⊢
      omega
    | takes _ hchannel =>
      have hlen := congrArg List.length hchannel
      simp only [List.length_cons, List.length_nil] at hlen hrest ⊢
      omega
    | leaves =>
      have hleave := running_of_run hv' hr
      cases hleave

/-- **Messages are taken in order, each once, and none behind a `disposed`.** After any moves, what the
    relay of a panel has taken begins the list of the messages that were sent before the first `disposed`;
    what is missing waits in the channel as long as the relay runs, and nothing is missing when it has come
    to its own end. -/
theorem taken_of_run (title html : String) (n : Nat) (ms : List Move) {v : View}
    (hv : ((empty title html).run ms).views[n]? = some v) :
    let es := (empty title html).sent n ms
    let js := (empty title html).taken n ms
    js <+: messages es ∧ (v.relay = .running → es = js.map .message ++ v.channel) ∧
      (v.relay = .leaving ∨ v.relay = .finished → js = messages es) := by
  intro es js
  have h := accounts_run (accounts_empty n title html) ms
  rw [Accounts, hv] at h
  exact View.Carried.taken h

theorem exists_view_run {v : View} (hv : b.views[n]? = some v) (ms : List Move) :
    ∃ v', (b.run ms).views[n]? = some v' := by
  induction ms generalizing b v with
  | nil => exact ⟨v, hv⟩
  | cons m ms ih =>
    obtain ⟨v', hv', -⟩ := next_step hv m
    exact ih hv'

theorem sent_append (n : Nat) (b : Bridge) (ms ns : List Move) :
    b.sent n (ms ++ ns) = b.sent n ms ++ (b.run ms).sent n ns := by
  induction ms generalizing b with
  | nil => rfl
  | cons m ms ih => rw [List.cons_append, sent, ih, sent, run_cons, List.append_assoc]

theorem taken_append (n : Nat) (b : Bridge) (ms ns : List Move) :
    b.taken n (ms ++ ns) = b.taken n ms ++ (b.run ms).taken n ns := by
  induction ms generalizing b with
  | nil => rfl
  | cons m ms ih => rw [List.cons_append, taken, ih, taken, run_cons, List.append_assoc]

/-- **What waits is taken.** Unless its relay is stopped, as many turns of the relay of a panel as there are
    events in the channel take all messages that were sent before the first `disposed`, whatever happens
    in between. -/
theorem taken_of_turns (title html : String) (n : Nat) (ms ns : List Move) {v : View}
    (hv : ((empty title html).run ms).views[n]? = some v)
    (hstays : ((empty title html).run (ms ++ ns)).relay? n ≠ some .aborted)
    (hturns : v.channel.length ≤ turns n ns) :
    messages ((empty title html).sent n ms) <+: (empty title html).taken n (ms ++ ns) := by
  have hsent := sent_append n (empty title html) ms ns
  have htaken := taken_append n (empty title html) ms ns
  obtain ⟨v', hv'⟩ := exists_view_run hv ns
  rw [← run_append] at hv'
  obtain ⟨-, hrunning, -⟩ := taken_of_run title html n ms hv
  obtain ⟨-, hrunning', hended'⟩ := taken_of_run title html n (ms ++ ns) hv'
  have hmore : (empty title html).sent n ms <+: (empty title html).sent n (ms ++ ns) :=
    hsent ▸ List.prefix_append ..
  rw [relay?_of_view hv'] at hstays
  cases hr : v'.relay with
  | aborted => exact absurd (congrArg some hr) hstays
  | leaving => exact hended' (Or.inl hr) ▸ messages_prefix hmore
  | finished => exact hended' (Or.inr hr) ▸ messages_prefix hmore
  | running =>
    have hfinal : (((empty title html).run ms).run ns).relay? n = some .running := by
      rw [← run_append, relay?_of_view hv', hr]
    have hcount := le_length_taken hv hfinal
    have hall := hrunning (running_of_run hv hfinal)
    rw [hrunning' hr] at hmore
    -- all that had been sent is among what has been taken by now
    have hlen : ((empty title html).sent n ms).length ≤
        (((empty title html).taken n (ms ++ ns)).map Event.message).length := by
      rw [hall, htaken]
      simp only [List.length_append, List.length_map]
      omega
    have hall' := List.prefix_of_prefix_length_le hmore (List.prefix_append ..) hlen
    have hmessages := messages_prefix hall'
    rwa [messages_map] at hmessages

end Bridge

end EditorBridge.Panel
