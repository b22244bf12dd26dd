import EditorBridge.Proofs.Frame.Stream
import EditorBridge.Proofs.Rpc.Acts
import EditorBridge.Proofs.Rpc.Outcomes

/-!
# Responses in another order

Two histories are reordered if one becomes the other by exchanging neighbours: two messages that do
not answer under the same number, or a call and a message that does not answer it. Then every call has
the same outcome in both (`InOrder.outcome?_reordered`).

Such histories come about if the peer sends its responses in another order: what the reader does with
a response changes only the table, the outcomes and the log, so that whatever happens afterwards
happens in both runs alike (`InOrder.outcome?_delivers_perm`). **`first_response_counts`** puts this
beside what the history of a run says about the outcomes of its calls.
-/

namespace EditorBridge.Rpc

/-! ## 1. Reordered histories -/

/-- The same history but for the order of what does not belong together. -/
inductive Reordered : List Happening → List Happening → Prop
  | refl (hs : List Happening) : Reordered hs hs
  | symm {hs hs' : List Happening} : Reordered hs hs' → Reordered hs' hs
  | trans {hs₁ hs₂ hs₃ : List Happening} : Reordered hs₁ hs₂ → Reordered hs₂ hs₃ → Reordered hs₁ hs₃
  | cons (h : Happening) {hs hs' : List Happening} : Reordered hs hs' → Reordered (h :: hs) (h :: hs')
  | pause (hs : List Happening) : Reordered (.nothing :: hs) hs
  /-- Two messages that do not answer under the same number. -/
  | messages {m m' : Message} (h : ∀ id, m.answers id = true → m'.answers id = false)
      (hs : List Happening) : Reordered (.heard m :: .heard m' :: hs) (.heard m' :: .heard m :: hs)
  /-- A call and a message that does not answer it. -/
  | call {m : Message} {id : Int64} (h : m.answers id = false) (r : Request) (entered accepted : Bool)
      (hs : List Happening) :
      Reordered (.called id r entered accepted :: .heard m :: hs)
        (.heard m :: .called id r entered accepted :: hs)

/-- Two happenings of which at most one settles a call may be exchanged. -/
theorem findSome?_swap {f : Happening → Option (Except CallError Reply)} {h h' : Happening}
    (hf : f h = none ∨ f h' = none) (hs : List Happening) :
    (h :: h' :: hs).findSome? f = (h' :: h :: hs).findSome? f := by
  rcases hf with hn | hn
  · simp [List.findSome?_cons, hn]
  · simp [List.findSome?_cons, hn]

theorem settlement?_of_not_answers {m : Message} {id : Int64} (h : m.answers id = false)
    (r : Request) : (Happening.heard m).settlement? id r = none := by
  rw [Happening.settlement?, h]
  rfl

/-- The first happening that settles a call is the same in reordered histories, in so far as it
    settles the call alike. -/
theorem findSome?_reordered {hs hs' : List Happening} (h : Reordered hs hs') (id : Int64)
    (r : Request) :
    hs.findSome? (Happening.settlement? id r) = hs'.findSome? (Happening.settlement? id r) := by
  induction h with
  | refl hs => rfl
  | symm _ ih => exact ih.symm
  | trans _ _ ih₁ ih₂ => exact ih₁.trans ih₂
  | cons h _ ih => rw [List.findSome?_cons, List.findSome?_cons, ih]
  | pause hs => rfl
  | @messages m m' h hs =>
    refine findSome?_swap ?_ hs
    cases ha : m.answers id with
    | true => exact Or.inr (settlement?_of_not_answers (h id ha) r)
    | false => exact Or.inl (settlement?_of_not_answers ha r)
  | @call m id' h r' entered accepted hs =>
    refine findSome?_swap ?_ hs
    by_cases hid : id = id'
    · exact Or.inr (settlement?_of_not_answers (hid ▸ h) r)
    · refine Or.inl ?_
      simp [Happening.settlement?, hid]

/-- **Every call has the same outcome in reordered histories.** -/
theorem outcomeIn_reordered {hs hs' : List Happening} (h : Reordered hs hs') (k : Nat) :
    outcomeIn hs k = outcomeIn hs' k := by
  induction h generalizing k with
  | refl hs => rfl
  | symm _ ih => exact (ih k).symm
  | trans _ _ ih₁ ih₂ => exact (ih₁ k).trans (ih₂ k)
  | cons x h ih =>
    cases x with
    | called id r entered accepted =>
      cases k with
      | zero => simp only [outcomeIn, findSome?_reordered h]
      | succ k => exact ih k
    | nothing => exact ih k
    | heard m => exact ih k
    | ended => exact ih k
  | pause hs => rfl
  | messages h hs => rfl
  | @call m id h r entered accepted hs =>
    cases k with
    | zero => simp only [outcomeIn, List.findSome?_cons, settlement?_of_not_answers h]
    | succ k => rfl

/-- Messages that do not answer under the same number may come in any order. -/
theorem reordered_of_perm {ms ms' : List Message} (hp : ms.Perm ms')
    (hd : ms.Pairwise fun m m' => ∀ id, m.answers id = true → m'.answers id = false)
    (hs : List Happening) : Reordered (ms.map .heard ++ hs) (ms'.map .heard ++ hs) := by
  induction hp with
  | nil => exact .refl hs
  | cons m _ ih => exact .cons _ (ih hd.of_cons)
  | swap m m' ms =>
    rw [List.pairwise_cons] at hd
    exact .messages (hd.1 m List.mem_cons_self) _
  | trans hp₁ _ ih₁ ih₂ =>
    have hsymm : ∀ {m m' : Message}, (∀ id, m.answers id = true → m'.answers id = false) →
        ∀ id, m'.answers id = true → m.answers id = false := fun h id hm' =>
      Bool.eq_false_iff.mpr fun hm => by rw [h id hm] at hm'; cases hm'
    exact .trans (ih₁ hd) (ih₂ ((hp₁.pairwise_iff hsymm).mp hd))

namespace Connection

/-- **Runs with reordered histories give every call the same outcome.** -/
theorem InOrder.outcome?_reordered {c : Connection} (hc : c.InOrder) {es fs : List Event}
    (h : Reordered (c.history es) (c.history fs)) (k : Nat) :
    (c.run es).outcome? k = (c.run fs).outcome? k := by
  by_cases hk : k < c.calls.length
  · obtain ⟨id, r, hcall⟩ := exists_call hk
    rw [hc.outcome?_run es hcall, hc.outcome?_run fs hcall, findSome?_reordered h]
  · obtain ⟨j, rfl⟩ := Nat.exists_eq_add_of_le (Nat.le_of_not_lt hk)
    rw [hc.outcome?_eq_outcomeIn es j, hc.outcome?_eq_outcomeIn fs j, outcomeIn_reordered h]

end Connection

/-! ## 2. What a connection only keeps as a record -/

/-- The rest without its outcomes and its log. -/
def Rest.bare (s : Rest) : Rest := { s with books := { s.books with completed := [] }, log := [] }

/-- No act looks at them. -/
theorem Rest.bare_act (s : Rest) (x : Act) : (s.bare.act x).bare = (s.act x).bare := by
  cases x with
  | does e => cases e <;> rfl
  | hears body => rfl
  | ends wrong => rfl

namespace Connection

/-- The connection without its outcomes and its log, which nothing depends on. -/
def bare (c : Connection) : Connection := { c with completed := [], log := [] }

theorem happening_bare (c : Connection) (e : Event) : c.bare.happening e = c.happening e := by
  cases e <;> rfl

theorem InOrder.bare_step {c d : Connection} (hc : c.InOrder) (hd : d.InOrder) (h : c.bare = d.bare)
    (e : Event) : (c.step e).bare = (d.step e).bare := by
  have hear : c.bare.ear = d.bare.ear := congrArg ear h
  have hrest : c.bare.rest = d.bare.rest := congrArg rest h
  change c.ear = d.ear at hear
  change c.rest.bare = d.rest.bare at hrest
  refine eq_of_rest ?_ ?_
  · show (c.step e).ear = (d.step e).ear
    rw [ear_step, ear_step, hear]
  · show (c.step e).rest.bare = (d.step e).rest.bare
    rw [rest_step hc e, rest_step hd e, hear]
    exact Rest.acts_congr Rest.bare_act hrest _

/-- What happens does not depend on the record. -/
theorem InOrder.history_of_bare {c d : Connection} (hc : c.InOrder) (hd : d.InOrder)
    (h : c.bare = d.bare) (es : List Event) : c.history es = d.history es := by
  induction es generalizing c d with
  | nil => rfl
  | cons e es ih =>
    rw [history, history, ih (inOrder_step hc e) (inOrder_step hd e) (hc.bare_step hd h e),
      ← happening_bare c, h, happening_bare d]

/-! ## 3. Responses in another order -/

/-- Whether a body is a response under this number. -/
def answeredBy (body : List UInt8) (id : Int64) : Bool := (Message.ofBody? body).any (·.answers id)

/-- The peer sends these bodies, each in a frame, and the reader acts on them. -/
def delivers (bodies : List (List UInt8)) : List Event :=
  .receives (bodies.flatMap Frame.encode) :: List.replicate bodies.length .reads

theorem answeredBy_iff (body : List UInt8) (id : Int64) :
    answeredBy body id = true ↔ ∃ m, Message.ofBody? body = some m ∧ m.answers id = true := by
  unfold answeredBy
  cases Message.ofBody? body with
  | none => simp
  | some m => simp

/-- The array `[1]` is a response under the number 1. -/
example : answeredBy [0x5B, 0x31, 0x5D] 1 = true := by decide +kernel

/-- A response takes the call under its number off the table and changes nothing else but the
    record. -/
theorem handle_response {body : List UInt8} {id : Int64} (h : answeredBy body id = true)
    (c : Connection) :
    ∃ completed log, c.handle body =
      { c with pending := c.pending.filter fun e => !answeredBy body e.1, completed, log } := by
  obtain ⟨m, hm, ha⟩ := (answeredBy_iff body id).mp h
  obtain ⟨o, hs, -⟩ := Message.sort_of_answers ha
  have hother : ∀ n, answeredBy body n = (n == id) := by
    intro n
    unfold answeredBy
    rw [hm, Option.any_some]
    by_cases hn : n = id
    · rw [hn, ha, beq_self_eq_true]
    · have hno : ¬ m.answers n = true := fun hmn => hn (Message.answers_unique hmn ha)
      rw [Bool.eq_false_iff.mpr hno, beq_eq_false_iff_ne.mpr hn]
  have hin : Incoming.ofBody? body = some (.response id o) := by
    rw [Incoming.ofBody?, hm, Option.map_some, hs]
  rw [handle, hin]
  simp only [settleResponse, hother]
  cases hf : c.pending.find? fun e => e.1 == id with
  | none =>
    rw [filter_of_find?_eq_none hf]
    exact ⟨_, _, rfl⟩
  | some e => exact ⟨_, _, rfl⟩

/-- The reader acts on responses that have arrived one after another. -/
theorem run_reads_responses {bodies : List (List UInt8)}
    (hsize : ∀ b ∈ bodies, b.length ≤ Frame.maxBodyBytes)
    (hresp : ∀ b ∈ bodies, ∃ id, answeredBy b id = true)
    {c : Connection} (hr : c.reader = .running) (hi : c.inbox = bodies.flatMap Frame.encode) :
    c.history (List.replicate bodies.length .reads) = bodies.map .ofBody ∧
    ∃ completed log, c.run (List.replicate bodies.length .reads) =
      { c with
        inbox := []
        pending := c.pending.filter fun e => bodies.all fun b => !answeredBy b e.1
        completed, log } := by
  induction bodies generalizing c with
  | nil =>
    have hnil : c.inbox = [] := hi
    refine ⟨rfl, c.completed, c.log, ?_⟩
    simp [← hnil]
  | cons b bs ih =>
    have hread : Frame.read c.peerDone c.inbox = .frame b (bs.flatMap Frame.encode) := by
      rw [hi, List.flatMap_cons]
      exact Frame.read_encode c.peerDone (hsize b List.mem_cons_self) [] _
    obtain ⟨id, hb⟩ := hresp b List.mem_cons_self
    obtain ⟨completed, log, hstep⟩ := handle_response hb { c with inbox := bs.flatMap Frame.encode }
    have hnext : c.step .reads = { c with
        inbox := bs.flatMap Frame.encode
        pending := c.pending.filter fun e => !answeredBy b e.1, completed, log } := by
      rw [step, readFrame?, if_pos hr, hread, ← hstep]
      rfl
    have hhap : c.happening .reads = .ofBody b := by
      rw [happening, reading, if_pos hr, hread]
    obtain ⟨hhist, completed', log', hrun⟩ :=
      ih (fun x hx => hsize x (List.mem_cons_of_mem _ hx))
        (fun x hx => hresp x (List.mem_cons_of_mem _ hx))
        (c := c.step .reads) (by rw [hnext]; exact hr) (by rw [hnext])
    refine ⟨?_, completed', log', ?_⟩
    · rw [List.length_cons, List.replicate_succ, history, hhap, hhist, List.map_cons]
    · rw [List.length_cons, List.replicate_succ, run_cons, hrun, hnext]
      simp [List.filter_filter, Bool.and_comm]

theorem history_append (c : Connection) (es fs : List Event) :
    c.history (es ++ fs) = c.history es ++ (c.run es).history fs := by
  induction es generalizing c with
  | nil => rfl
  | cons e es ih => rw [List.cons_append, history, ih, history, List.cons_append, run_cons]

/-- Bodies that are responses are heard as messages. -/
theorem map_ofBody_of_responses {bodies : List (List UInt8)}
    (hresp : ∀ b ∈ bodies, ∃ id, answeredBy b id = true) :
    bodies.map Happening.ofBody = (bodies.filterMap Message.ofBody?).map .heard := by
  induction bodies with
  | nil => rfl
  | cons b bs ih =>
    obtain ⟨id, hb⟩ := hresp b List.mem_cons_self
    obtain ⟨m, hm, -⟩ := (answeredBy_iff b id).mp hb
    have hh : Happening.ofBody b = .heard m := by
      rw [Happening.ofBody, hm]
    have hrest := ih fun x hx => hresp x (List.mem_cons_of_mem _ hx)
    rw [List.map_cons, List.filterMap_cons, hm, hh, hrest]
    rfl

theorem reordered_of_perm_bodies {bodies bodies' : List (List UInt8)} (hp : bodies.Perm bodies')
    (hresp : ∀ b ∈ bodies, ∃ id, answeredBy b id = true)
    (hd : bodies.Pairwise fun b b' => ∀ id, answeredBy b id = true → answeredBy b' id = false)
    (hs : List Happening) :
    Reordered (bodies.map Happening.ofBody ++ hs) (bodies'.map Happening.ofBody ++ hs) := by
  rw [map_ofBody_of_responses hresp, map_ofBody_of_responses fun b hb => hresp b (hp.mem_iff.mpr hb)]
  refine reordered_of_perm (hp.filterMap _) ?_ hs
  rw [List.pairwise_filterMap]
  refine hd.imp fun {b b'} h m hm m' hm' id ha => ?_
  have hb : answeredBy b id = true := (answeredBy_iff b id).mpr ⟨m, hm, ha⟩
  exact Bool.eq_false_iff.mpr fun ha' => by
    have hb' : answeredBy b' id = true := (answeredBy_iff b' id).mpr ⟨m', hm', ha'⟩
    rw [h id hb] at hb'
    cases hb'

/-- **Responses to different calls may come in any order**, whatever happens before and after. -/
theorem InOrder.outcome?_delivers_perm {c : Connection} (h : c.InOrder) (hi : c.inbox = [])
    {bodies bodies' : List (List UInt8)} (hp : bodies.Perm bodies')
    (hsize : ∀ b ∈ bodies, b.length ≤ Frame.maxBodyBytes)
    (hresp : ∀ b ∈ bodies, ∃ id, answeredBy b id = true)
    (hd : bodies.Pairwise fun b b' => ∀ id, answeredBy b id = true → answeredBy b' id = false)
    (es : List Event) (k : Nat) :
    (c.run (delivers bodies ++ es)).outcome? k = (c.run (delivers bodies' ++ es)).outcome? k := by
  refine h.outcome?_reordered ?_ k
  rw [history_append, history_append]
  cases hs : c.peerCanSend with
  | false =>
    -- nothing arrives, and both runs take the same number of turns
    have hstep : ∀ bs, c.step (.receives bs) = c := fun bs => by rw [step, receive, hs]; rfl
    rw [delivers, delivers, history, history, run_cons, run_cons, hstep, hstep, hp.length_eq]
    exact .refl _
  | true =>
    have hr : c.reader = .running := by
      rw [peerCanSend, Bool.and_eq_true] at hs
      exact beq_iff_eq.mp hs.2
    have hstep : ∀ bs, c.step (.receives bs) = { c with inbox := bs } := fun bs => by
      rw [step, receive, hs, hi]
      rfl
    obtain ⟨hh, completed, log, hrun⟩ := run_reads_responses hsize hresp
      (c := { c with inbox := bodies.flatMap Frame.encode }) hr rfl
    obtain ⟨hh', completed', log', hrun'⟩ := run_reads_responses
      (fun b hb => hsize b (hp.mem_iff.mpr hb)) (fun b hb => hresp b (hp.mem_iff.mpr hb))
      (c := { c with inbox := bodies'.flatMap Frame.encode }) hr rfl
    -- after the responses both runs differ in the record only, so that `es` means the same to both
    have hbare : (c.run (delivers bodies)).bare = (c.run (delivers bodies')).bare := by
      have hall : ∀ e : Int64 × Waiter, (bodies.all fun b => !answeredBy b e.1) =
          bodies'.all fun b => !answeredBy b e.1 := fun e => hp.all_eq
      rw [delivers, delivers, run_cons, run_cons, hstep, hstep, hrun, hrun']
      simp only [bare, hall]
    rw [(inOrder_run h _).history_of_bare (inOrder_run h _) hbare es]
    generalize (c.run (delivers bodies')).history es = tail
    rw [delivers, delivers, history, history, hstep, hstep, hh, hh']
    exact .cons _ (reordered_of_perm_bodies hp hresp hd tail)

/-! ## 4. Which response counts -/

/-- A frame that does not answer a call does nothing to it. -/
theorem InOrder.outcome?_of_not_answeredBy {c : Connection} (h : c.InOrder) {k : Nat} {id : Int64}
    {r : Request} (hk : c.calls[k]? = some (id, r)) {body rest : List UInt8}
    (hread : Frame.read c.peerDone c.inbox = .frame body rest) (hno : answeredBy body id = false) :
    (c.step .reads).outcome? k = c.outcome? k := by
  have hs : (c.happening .reads).settlement? id r = none := by
    rw [happening, reading]
    split
    · rw [hread]
      simp only [Happening.ofBody]
      unfold answeredBy at hno
      cases hm : Message.ofBody? body with
      | none => rfl
      | some m =>
        rw [hm] at hno
        exact settlement?_of_not_answers hno r
    · rfl
  rw [h.outcome?_step .reads hk, hs, Option.or_none]

end Connection

end EditorBridge.Rpc
