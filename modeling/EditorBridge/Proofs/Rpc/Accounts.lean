import Mathlib.Algebra.Group.Nat.Defs
import Mathlib.Data.List.Perm.Basic
import Mathlib.Data.List.Nodup
import EditorBridge.Proofs.Rpc.Arrivals
import EditorBridge.Proofs.Rpc.History

/-!
# The accounts of the calls

`Books.InOrder` is what holds of the books at any time:

* the numbers are given in the order of the calls, beginning with 1;
* an entry of the table belongs to the call at its place and stands under the number of that call;
* no number stands twice in the table;
* every call that has been made either waits in the table or has completed, and not twice.

Every event keeps the books in order (`inOrder_step`), since it changes them by `Books.note` only.
-/

namespace EditorBridge.Rpc

/-- What holds of the books. -/
structure Books.InOrder (b : Books) : Prop where
  next : b.nextId = Int64.ofNat (b.calls.length + 1)
  numbers : b.calls.map Prod.fst = (List.range b.calls.length).map fun k => Int64.ofNat (k + 1)
  own : ∀ e ∈ b.pending, b.calls[e.2.call]? = some (e.1, e.2.request)
  keys : (b.pending.map Prod.fst).Nodup
  once : (b.pending.map (·.2.call) ++ b.completed.map Prod.fst).Perm (List.range b.calls.length)

/-! ## 1. What is written down keeps the books in order -/

namespace Happening

/-- A call takes the next number. -/
def Fits (h : Happening) (b : Books) : Prop := ∀ e ∈ h.made, e.1 = b.nextId

theorem made_cases (h : Happening) : h.made = [] ∨ ∃ e, h.made = [e] := by
  cases h with
  | nothing => exact Or.inl rfl
  | called id r entered accepted => exact Or.inr ⟨(id, r), rfl⟩
  | heard m => exact Or.inl rfl
  | ended => exact Or.inl rfl

/-- A call that is made gets one entry or completes. -/
theorem entries_append_refusals (h : Happening) (k : Nat) :
    (h.entries k).map (·.2.call) ++ (h.refusals k).map Prod.fst = h.made.map fun _ => k := by
  cases h with
  | nothing => rfl
  | called id r entered accepted => cases entered <;> cases accepted <;> rfl
  | heard m => rfl
  | ended => rfl

/-- A new entry belongs to the call that is made, and every older entry under its number is settled. -/
theorem of_mem_entries {h : Happening} {k : Nat} {e : Int64 × Waiter} (he : e ∈ h.entries k) :
    e.2.call = k ∧ h.made = [(e.1, e.2.request)] ∧
      ∀ r, h.settlement? e.1 r = some (.error .closed) := by
  cases h with
  | nothing => exact absurd he List.not_mem_nil
  | heard m => exact absurd he List.not_mem_nil
  | ended => exact absurd he List.not_mem_nil
  | called id r entered accepted =>
    cases entered with
    | false => exact absurd he List.not_mem_nil
    | true =>
      cases accepted with
      | false => exact absurd he List.not_mem_nil
      | true =>
        rw [List.mem_singleton.mp he]
        exact ⟨rfl, rfl, fun _ => by simp [settlement?]⟩

end Happening

namespace Books

variable {b : Books} {h : Happening}

theorem length_calls_note : (b.note h).calls.length = b.calls.length + h.made.length :=
  List.length_append

/-- A call that waits goes on to wait or is settled. -/
theorem waiting_append_settled (b : Books) (h : Happening) :
    ((b.waiting h).map (·.2.call) ++ (b.settled h).map Prod.fst).Perm (b.pending.map (·.2.call)) := by
  unfold waiting settled
  induction b.pending with
  | nil => exact List.Perm.nil
  | cons e es ih =>
    cases hs : h.settlement? e.1 e.2.request with
    | none =>
      simp only [List.filter_cons, List.filterMap_cons, hs, Option.isNone_none, if_true,
        Option.map_none, List.map_cons, List.cons_append]
      exact ih.cons _
    | some o =>
      simp only [List.filter_cons, List.filterMap_cons, hs, Option.isNone_some, Bool.false_eq_true,
        if_false, Option.map_some, List.map_cons]
      exact List.perm_middle.trans (ih.cons _)

theorem note_once (hb : b.InOrder) :
    ((b.note h).pending.map (·.2.call) ++ (b.note h).completed.map Prod.fst).Perm
      (List.range (b.note h).calls.length) := by
  have hrange : List.range (b.note h).calls.length =
      List.range b.calls.length ++ h.made.map fun _ => b.calls.length := by
    rw [length_calls_note]
    rcases h.made_cases with hm | ⟨e, hm⟩
    · simp [hm]
    · simp [hm, List.range_succ]
  rw [hrange, ← h.entries_append_refusals]
  -- what was there before is waiting, settled or had completed; what is new is an entry or a refusal
  have hold := (waiting_append_settled b h).append_right (b.completed.map Prod.fst) |>.trans hb.once
  refine List.Perm.trans ?_ (hold.append_right _)
  rw [List.perm_iff_count]
  intro a
  simp only [note, List.map_append, List.count_append]
  omega

theorem note_numbers (hb : b.InOrder) (hf : h.Fits b) :
    (b.note h).calls.map Prod.fst =
      (List.range (b.note h).calls.length).map fun k => Int64.ofNat (k + 1) := by
  rw [length_calls_note]
  unfold note
  rw [List.map_append, hb.numbers]
  rcases h.made_cases with hm | ⟨e, hm⟩
  · simp [hm]
  · have he : e.1 = Int64.ofNat (b.calls.length + 1) := by
      rw [hf e (by simp [hm]), hb.next]
    simp [hm, he, List.range_succ]

theorem note_own (hb : b.InOrder) :
    ∀ e ∈ (b.note h).pending, (b.note h).calls[e.2.call]? = some (e.1, e.2.request) := by
  intro e he
  rcases List.mem_append.mp he with he | he
  · have hown := hb.own e (List.mem_filter.mp he).1
    have hlt : e.2.call < b.calls.length := (List.getElem?_eq_some_iff.mp hown).choose
    exact (List.getElem?_append_left hlt).trans hown
  · obtain ⟨hcall, hmade, -⟩ := Happening.of_mem_entries he
    rw [note, hmade, hcall]
    simp

theorem note_keys (hb : b.InOrder) : ((b.note h).pending.map Prod.fst).Nodup := by
  unfold note
  rw [List.map_append]
  refine List.Nodup.append ?_ ?_ ?_
  · exact hb.keys.sublist (List.filter_sublist.map _)
  · cases h with
    | nothing => exact List.nodup_nil
    | heard m => exact List.nodup_nil
    | ended => exact List.nodup_nil
    | called id r entered accepted => cases entered <;> cases accepted <;> simp [Happening.entries]
  · intro id hold hnew
    obtain ⟨e, he, rfl⟩ := List.mem_map.mp hold
    obtain ⟨e', he', heq⟩ := List.mem_map.mp hnew
    obtain ⟨-, -, hs⟩ := Happening.of_mem_entries he'
    have hwait := (List.mem_filter.mp he).2
    rw [← heq, hs] at hwait
    cases hwait

/-- **What is written down keeps the books in order.** -/
theorem InOrder.note (hb : b.InOrder) (hf : h.Fits b) : (b.note h).InOrder where
  next := by
    rw [length_calls_note, Books.note, hb.next]
    simp only [← Int64.ofNat_add]
    congr 1
    omega
  numbers := note_numbers hb hf
  own := note_own hb
  keys := note_keys hb
  once := note_once hb

end Books

/-! ## 2. The reader and the table -/

namespace Connection

theorem ofBody_ne_ended (body : List UInt8) : Happening.ofBody body ≠ .ended := by
  unfold Happening.ofBody
  split
  · exact fun e => nomatch e
  · exact fun e => nomatch e

/-- The reader ends exactly if its turn says so. -/
theorem reader_reads (c : Connection) :
    (c.ear.step .reads).reader = .ended ↔ c.reader = .ended ∨ c.reading = .ended := by
  by_cases hr : c.reader = .running
  · have hf : c.ear.found = Frame.read c.peerDone c.inbox := if_pos hr
    rw [Ear.step, hf, reading, if_pos hr]
    cases Frame.read c.peerDone c.inbox with
    | frame body rest => simp [ear, hr, ofBody_ne_ended]
    | wait => simp [ear, hr]
    | finished => simp
    | failed e => simp
  · have hf : c.ear.found = .wait := if_neg hr
    rw [Ear.step, hf, reading, if_neg hr]
    simp [ear]

theorem reader_step (c : Connection) (e : Event) :
    (c.step e).reader = .ended ↔ c.reader = .ended ∨ c.happening e = .ended := by
  have hear : (c.step e).reader = (c.ear.step e).reader := congrArg Ear.reader (ear_step c e)
  rw [hear]
  cases e with
  | receives bs =>
    simp only [Ear.step]
    split
    · simp [ear, happening]
    · simp [ear, happening]
  | aborts => cases hr : c.reader <;> simp [Ear.step, ear, happening, hr]
  | reads => exact reader_reads c
  | _ => simp [Ear.step, ear, happening]

/-- Once the reader has ended it enters nothing. -/
theorem entries_of_ended {c : Connection} (hr : c.reader = .ended) (e : Event) (k : Nat) :
    (c.happening e).entries k = [] := by
  cases e with
  | requests r => simp [happening, hr, Happening.entries]
  | reads => simp [happening, reading, hr, Happening.entries]
  | _ => rfl

/-- What holds of a connection at any time. -/
structure InOrder (c : Connection) : Prop where
  books : c.books.InOrder
  closed : c.reader = .ended → c.pending = []

theorem inOrder_start : start.InOrder where
  books :=
    { next := rfl
      numbers := rfl
      own := fun _ he => absurd he List.not_mem_nil
      keys := List.nodup_nil
      once := List.Perm.nil }
  closed := fun _ => rfl

theorem made_reading (c : Connection) : c.reading.made = [] := by
  unfold reading Happening.ofBody
  split
  · split
    · split
      · rfl
      · rfl
    · rfl
    · rfl
    · rfl
  · rfl

/-- Only a request makes a call. -/
theorem happening_cases (c : Connection) (e : Event) :
    (∃ r, e = .requests r) ∨ (c.happening e).made = [] := by
  cases e with
  | requests r => exact Or.inl ⟨r, rfl⟩
  | reads => exact Or.inr (made_reading c)
  | _ => exact Or.inr rfl

theorem happening_fits (c : Connection) (e : Event) : (c.happening e).Fits c.books := by
  intro x hx
  rcases happening_cases c e with ⟨r, rfl⟩ | hm
  · rw [List.mem_singleton.mp hx]
    rfl
  · rw [hm] at hx
    exact absurd hx List.not_mem_nil

theorem inOrder_step {c : Connection} (h : c.InOrder) (e : Event) : (c.step e).InOrder := by
  have hb := books_step h.books.keys e
  refine ⟨hb ▸ h.books.note (happening_fits c e), fun hr => ?_⟩
  have hp : (c.step e).pending = (c.books.note (c.happening e)).pending := congrArg Books.pending hb
  rw [hp, Books.note]
  rcases (reader_step c e).mp hr with hc | hc
  · simp [Books.waiting, books, h.closed hc, entries_of_ended hc]
  · simp [Books.waiting, hc, Happening.settlement?, Happening.entries]

/-- **Every run keeps a connection in order.** -/
theorem inOrder_run {c : Connection} (h : c.InOrder) (es : List Event) : (c.run es).InOrder :=
  run_induction (P := InOrder) (fun _ e hc => inOrder_step hc e) h es

/-! ## 3. Outcomes -/

theorem InOrder.nodup_places {c : Connection} (h : c.InOrder) :
    (c.pending.map (·.2.call) ++ c.completed.map Prod.fst).Nodup :=
  h.books.once.nodup_iff.mpr List.nodup_range

theorem InOrder.outcome?_eq_some_iff {c : Connection} (h : c.InOrder) (k : Nat)
    (o : Except CallError Reply) : c.outcome? k = some o ↔ (k, o) ∈ c.completed := by
  have hnd : (c.completed.map Prod.fst).Nodup := h.nodup_places.of_append_right
  unfold outcome?
  constructor
  · intro ho
    obtain ⟨e, hf, rfl⟩ := Option.map_eq_some_iff.mp ho
    have hb := List.find?_some hf
    rw [← beq_iff_eq.mp hb]
    exact List.mem_of_find?_eq_some hf
  · intro hm
    cases hf : c.completed.find? fun e => e.1 == k with
    | none => exact absurd (beq_iff_eq.mpr rfl) (List.find?_eq_none.mp hf _ hm)
    | some e =>
      have hb := List.find?_some hf
      have heq : e = (k, o) :=
        List.inj_on_of_nodup_map hnd (List.mem_of_find?_eq_some hf) hm (beq_iff_eq.mp hb)
      rw [heq]
      rfl

theorem outcome?_eq_none_iff_not_mem (c : Connection) (k : Nat) :
    c.outcome? k = none ↔ k ∉ c.completed.map Prod.fst := by
  unfold outcome?
  rw [Option.map_eq_none_iff, List.find?_eq_none]
  constructor
  · intro h hm
    obtain ⟨e, he, hk⟩ := List.mem_map.mp hm
    exact h e he (beq_iff_eq.mpr hk)
  · intro h e he hk
    exact h (List.mem_map.mpr ⟨e, he, beq_iff_eq.mp hk⟩)

/-- A call that has been made has not completed exactly if it is in the table. -/
theorem InOrder.outcome?_eq_none_iff {c : Connection} (h : c.InOrder) {k : Nat}
    (hk : k < c.calls.length) : c.outcome? k = none ↔ ∃ e ∈ c.pending, e.2.call = k := by
  rw [outcome?_eq_none_iff_not_mem]
  constructor
  · intro hno
    rcases List.mem_append.mp (h.books.once.mem_iff.mpr (List.mem_range.mpr hk)) with hm | hm
    · exact List.mem_map.mp hm
    · exact absurd hm hno
  · rintro ⟨e, he, rfl⟩ hm
    exact (List.nodup_append'.mp h.nodup_places).2.2 (List.mem_map_of_mem he) hm

theorem mem_settled_iff (b : Books) (h : Happening) (k : Nat) (o : Except CallError Reply) :
    (k, o) ∈ b.settled h ↔
      ∃ e ∈ b.pending, e.2.call = k ∧ h.settlement? e.1 e.2.request = some o := by
  unfold Books.settled
  rw [List.mem_filterMap]
  constructor
  · rintro ⟨e, he, hs⟩
    obtain ⟨o', ho, heq⟩ := Option.map_eq_some_iff.mp hs
    cases heq
    exact ⟨e, he, rfl, ho⟩
  · rintro ⟨e, he, rfl, hs⟩
    exact ⟨e, he, by rw [hs]; rfl⟩

theorem eq_of_mem_refusals {h : Happening} {j : Nat} {x : Nat × Except CallError Reply}
    (hx : x ∈ h.refusals j) : x = (j, .error .closed) := by
  cases h with
  | nothing => exact absurd hx List.not_mem_nil
  | heard m => exact absurd hx List.not_mem_nil
  | ended => exact absurd hx List.not_mem_nil
  | called id r entered accepted =>
    cases entered with
    | false => exact List.mem_singleton.mp hx
    | true =>
      cases accepted with
      | false => exact List.mem_singleton.mp hx
      | true => exact absurd hx List.not_mem_nil

theorem exists_call {c : Connection} {k : Nat} (hk : k < c.calls.length) :
    ∃ id r, c.calls[k]? = some (id, r) := ⟨_, _, List.getElem?_eq_getElem hk⟩

theorem InOrder.calls_step {c : Connection} (h : c.InOrder) (e : Event) :
    (c.step e).calls = c.calls ++ (c.happening e).made :=
  congrArg Books.calls (books_step h.books.keys e)

theorem InOrder.mem_completed_step {c : Connection} (h : c.InOrder) (e : Event) {k : Nat}
    (hk : k < c.calls.length) (o : Except CallError Reply) :
    (k, o) ∈ (c.step e).completed ↔
      (k, o) ∈ c.completed ∨ (k, o) ∈ c.books.settled (c.happening e) := by
  have hc : (c.step e).completed = c.completed ++ c.books.settled (c.happening e) ++
      (c.happening e).refusals c.calls.length :=
    congrArg Books.completed (books_step h.books.keys e)
  have hno : (k, o) ∉ (c.happening e).refusals c.calls.length := fun hm => by
    have heq : k = c.calls.length := congrArg Prod.fst (eq_of_mem_refusals hm)
    omega
  rw [hc, List.mem_append, List.mem_append, or_iff_left hno]

/-- **What an event makes of a call.** A call that has completed keeps its outcome; one that waits is
    settled as the event says, or waits on. -/
theorem InOrder.outcome?_step {c : Connection} (h : c.InOrder) (e : Event) {k : Nat} {id : Int64}
    {r : Request} (hk : c.calls[k]? = some (id, r)) :
    (c.step e).outcome? k = (c.outcome? k).or ((c.happening e).settlement? id r) := by
  have hlt : k < c.calls.length := (List.getElem?_eq_some_iff.mp hk).choose
  refine Option.ext fun o => ?_
  rw [(inOrder_step h e).outcome?_eq_some_iff, h.mem_completed_step e hlt, mem_settled_iff,
    ← h.outcome?_eq_some_iff]
  cases ho : c.outcome? k with
  | some o' =>
    have hno : ¬ ∃ x ∈ c.books.pending, x.2.call = k ∧
        (c.happening e).settlement? x.1 x.2.request = some o := by
      rintro ⟨x, hx, hcall, -⟩
      rw [(h.outcome?_eq_none_iff hlt).mpr ⟨x, hx, hcall⟩] at ho
      cases ho
    rw [or_iff_left hno]
    rfl
  | none =>
    -- the call has an entry, and every entry of it bears its number and its request
    rw [or_iff_right (fun e => nomatch e), Option.none_or]
    obtain ⟨x, hx, hcall⟩ := (h.outcome?_eq_none_iff hlt).mp ho
    have hown : ∀ y ∈ c.books.pending, y.2.call = k → y.1 = id ∧ y.2.request = r := by
      intro y hy hyk
      have hy' := h.books.own y hy
      rw [hyk] at hy'
      have heq : (y.1, y.2.request) = (id, r) := Option.some.inj (hy'.symm.trans hk)
      exact ⟨congrArg Prod.fst heq, congrArg Prod.snd heq⟩
    constructor
    · rintro ⟨y, hy, hyk, hs⟩
      obtain ⟨h1, h2⟩ := hown y hy hyk
      rw [← h1, ← h2]
      exact hs
    · intro hs
      obtain ⟨h1, h2⟩ := hown x hx hcall
      exact ⟨x, hx, hcall, by rw [h1, h2]; exact hs⟩

/-! ## 4. The accounts of a run -/

theorem InOrder.eq_number {c : Connection} (h : c.InOrder) {k : Nat} {id : Int64} {r : Request}
    (hk : c.calls[k]? = some (id, r)) : id = Int64.ofNat (k + 1) := by
  have hlt : k < c.calls.length := (List.getElem?_eq_some_iff.mp hk).choose
  have hm : (c.calls.map Prod.fst)[k]? = some id := by
    rw [List.getElem?_map, hk]
    rfl
  have hn : (c.calls.map Prod.fst)[k]? = some (Int64.ofNat (k + 1)) := by
    have hnum : c.calls.map Prod.fst = (List.range c.calls.length).map fun k => Int64.ofNat (k + 1) :=
      h.books.numbers
    rw [hnum, List.getElem?_map, List.getElem?_range hlt]
    rfl
  exact Option.some.inj (hm.symm.trans hn)

/-- As long as the numbers do not wrap, they are 1, 2, 3, ... in the order of the calls. -/
theorem InOrder.toInt_numbers {c : Connection} (h : c.InOrder) (hlt : c.calls.length < 2 ^ 63) :
    (c.calls.map fun e => e.1.toInt) =
      (List.range c.calls.length).map fun k : Nat => (k : Int) + 1 := by
  have hn : (c.calls.map fun e => e.1.toInt) = (c.calls.map Prod.fst).map Int64.toInt := by
    rw [List.map_map]
    rfl
  have hnum : c.calls.map Prod.fst = (List.range c.calls.length).map fun k => Int64.ofNat (k + 1) :=
    h.books.numbers
  rw [hn, hnum, List.map_map]
  refine List.map_congr_left fun k hk => ?_
  have hk' := List.mem_range.mp hk
  exact Int64.toInt_ofNat_of_lt (by omega)

theorem InOrder.nodup_numbers {c : Connection} (h : c.InOrder) (hlt : c.calls.length < 2 ^ 63) :
    (c.calls.map Prod.fst).Nodup := by
  have hn : ((c.calls.map Prod.fst).map Int64.toInt).Nodup := by
    rw [List.map_map]
    refine (h.toInt_numbers hlt).symm ▸ List.nodup_range.map fun a b hab => ?_
    omega
  exact hn.of_map _

/-- **The table holds exactly the numbers of the calls that wait.** -/
theorem InOrder.mem_keys_iff {c : Connection} (h : c.InOrder) (id : Int64) :
    id ∈ c.pending.map Prod.fst ↔ ∃ k r, c.calls[k]? = some (id, r) ∧ c.outcome? k = none := by
  constructor
  · intro hm
    obtain ⟨e, he, rfl⟩ := List.mem_map.mp hm
    have hown := h.books.own e he
    have hlt : e.2.call < c.calls.length := (List.getElem?_eq_some_iff.mp hown).choose
    exact ⟨e.2.call, e.2.request, hown, (h.outcome?_eq_none_iff hlt).mpr ⟨e, he, rfl⟩⟩
  · rintro ⟨k, r, hk, ho⟩
    have hlt : k < c.calls.length := (List.getElem?_eq_some_iff.mp hk).choose
    obtain ⟨e, he, rfl⟩ := (h.outcome?_eq_none_iff hlt).mp ho
    have heq := (h.books.own e he).symm.trans hk
    cases heq
    exact List.mem_map_of_mem he

/-- As long as the numbers do not wrap, the next one is not in the table. -/
theorem InOrder.nextId_not_mem_keys {c : Connection} (h : c.InOrder) (hlt : c.calls.length < 2 ^ 63) :
    c.nextId ∉ c.pending.map Prod.fst := by
  intro hm
  obtain ⟨k, r, hk, -⟩ := (h.mem_keys_iff _).mp hm
  have hk' : k < c.calls.length := (List.getElem?_eq_some_iff.mp hk).choose
  have hnext : c.nextId = Int64.ofNat (c.calls.length + 1) := h.books.next
  have heq : Int64.ofNat (c.calls.length + 1) = Int64.ofNat (k + 1) :=
    hnext.symm.trans (h.eq_number hk)
  -- numbers may be negative from here on, but 64 bits still tell them apart
  have hbits := congrArg (fun n => n.toBitVec.toNat) heq
  simp only [Int64.toBitVec_ofNat', BitVec.toNat_ofNat] at hbits
  omega

/-- A request made when the reader has ended completes at once. -/
theorem InOrder.outcome?_request_of_ended {c : Connection} (h : c.InOrder) (hr : c.reader = .ended)
    (r : Request) : (c.request r).2.outcome? c.calls.length = some (.error .closed) := by
  have ho := (inOrder_step h (.requests r)).outcome?_eq_some_iff c.calls.length (.error .closed)
  refine ho.mpr ?_
  rw [step, request_of_ended hr]
  exact List.mem_append_right _ List.mem_cons_self

/-- A request whose frame is not accepted completes at once. -/
theorem InOrder.outcome?_request_of_refused {c : Connection} (h : c.InOrder) (hr : c.reader ≠ .ended)
    (ha : c.accepts = false) (r : Request) :
    (c.request r).2.outcome? c.calls.length = some (.error .closed) := by
  have ho := (inOrder_step h (.requests r)).outcome?_eq_some_iff c.calls.length (.error .closed)
  refine ho.mpr ?_
  rw [step, request_of_refused hr ha]
  exact List.mem_append_right _ List.mem_cons_self

/-- A request whose frame is accepted waits. -/
theorem InOrder.outcome?_request_of_accepted {c : Connection} (h : c.InOrder) (hr : c.reader ≠ .ended)
    (ha : c.accepts = true) (r : Request) : (c.request r).2.outcome? c.calls.length = none := by
  have hlt : c.calls.length < (c.step (.requests r)).calls.length := by
    rw [h.calls_step, List.length_append]
    exact Nat.lt_succ_self _
  refine ((inOrder_step h (.requests r)).outcome?_eq_none_iff hlt).mpr ?_
  rw [step, request_of_accepted hr ha]
  exact ⟨_, List.mem_append_right _ List.mem_cons_self, rfl⟩

theorem InOrder.outcome?_request {c : Connection} (h : c.InOrder) (r : Request) :
    (c.request r).2.outcome? c.calls.length =
      if c.reader != .ended && c.accepts then none else some (.error .closed) := by
  by_cases hr : c.reader = .ended
  · rw [h.outcome?_request_of_ended hr, hr]
    rfl
  · have hb : (c.reader != .ended) = true := bne_iff_ne.mpr hr
    cases ha : c.accepts with
    | true => rw [h.outcome?_request_of_accepted hr ha, hb]; rfl
    | false => rw [h.outcome?_request_of_refused hr ha, hb]; rfl

/-- A refused request leaves the table as it was. -/
theorem InOrder.pending_request_of_refused {c : Connection} (h : c.InOrder)
    (hlt : c.calls.length < 2 ^ 63) (hr : c.reader ≠ .ended) (ha : c.accepts = false) (r : Request) :
    (c.request r).2.pending = c.pending := by
  rw [request_of_refused hr ha]
  refine List.filter_eq_self.mpr fun e he => ?_
  have hne : e.1 ≠ c.nextId := fun heq =>
    h.nextId_not_mem_keys hlt (heq ▸ List.mem_map_of_mem he)
  simp [hne]

/-- When the reader ends by itself, every call that waits completes as closed. -/
theorem InOrder.outcome?_of_reading_ended {c : Connection} (h : c.InOrder) (hr : c.reading = .ended)
    {k : Nat} (hk : k < c.calls.length) (ho : c.outcome? k = none) :
    (c.step .reads).outcome? k = some (.error .closed) := by
  obtain ⟨id, r, hcall⟩ := exists_call hk
  rw [h.outcome?_step .reads hcall, ho, happening, hr]
  rfl

theorem reader_run_of_ended {c : Connection} (hr : c.reader = .ended) (es : List Event) :
    (c.run es).reader = .ended :=
  run_induction (P := fun c => c.reader = .ended)
    (fun c e hc => (reader_step c e).mpr (Or.inl hc)) hr es

/-- **The accounts of a run.** In a run with fewer than 2^63 requests their numbers are 1, 2, 3, ... in
    the order of the calls; every call either waits in the table or has completed, once; and the table
    holds exactly the numbers of the calls that wait, each once.

    When the reader ends by itself, every waiting call completes as closed. Whatever happens from then
    on, no call waits, and every further request completes at once as closed and puts nothing into the
    queue. A request that is refused because the writer is gone completes at once as well and leaves
    the table as it was. -/
theorem accounts_of_run (es : List Event) (hlt : (start.run es).calls.length < 2 ^ 63) :
    let c := start.run es
    ((c.calls.map fun e => e.1.toInt) =
      (List.range c.calls.length).map fun k : Nat => (k : Int) + 1) ∧
    (c.calls.map Prod.fst).Nodup ∧
    (c.pending.map (·.2.call) ++ c.completed.map Prod.fst).Perm (List.range c.calls.length) ∧
    (c.pending.map Prod.fst).Nodup ∧
    (∀ id, id ∈ c.pending.map Prod.fst ↔ ∃ k r, c.calls[k]? = some (id, r) ∧ c.outcome? k = none) ∧
    (c.reader = .running →
      (Frame.read c.peerDone c.inbox = .finished ∨
        ∃ e, Frame.read c.peerDone c.inbox = .failed e) →
      (c.step .reads).reader = .ended ∧
      ∀ k < c.calls.length, c.outcome? k = none →
        (c.step .reads).outcome? k = some (.error .closed)) ∧
    (c.reader = .ended → ∀ fs,
      (∀ k < (c.run fs).calls.length, (c.run fs).outcome? k ≠ none) ∧
      ∀ r, ((c.run fs).request r).2.outcome? ((c.run fs).request r).1 = some (.error .closed) ∧
        ((c.run fs).request r).2.queue = (c.run fs).queue ∧
        ((c.run fs).request r).2.accepted = (c.run fs).accepted ∧
        ((c.run fs).request r).2.wire = (c.run fs).wire) ∧
    (c.reader ≠ .ended → c.accepts = false → ∀ r,
      (c.request r).2.outcome? (c.request r).1 = some (.error .closed) ∧
      (c.request r).2.pending = c.pending ∧ c.nextId ∉ (c.request r).2.pending.map Prod.fst) := by
  intro c
  have h : c.InOrder := inOrder_run inOrder_start es
  refine ⟨h.toInt_numbers hlt, h.nodup_numbers hlt, h.books.once, h.books.keys, h.mem_keys_iff,
    ?_, ?_, ?_⟩
  · intro hr hread
    have hend : c.reading = .ended := by
      unfold reading
      rw [if_pos hr]
      rcases hread with hf | ⟨e, hf⟩
      · rw [hf]
      · rw [hf]
    exact ⟨(reader_step c .reads).mpr (Or.inr hend),
      fun k hk ho => h.outcome?_of_reading_ended hend hk ho⟩
  · intro hr fs
    have hd : (c.run fs).InOrder := inOrder_run h fs
    have hrd : (c.run fs).reader = .ended := reader_run_of_ended hr fs
    refine ⟨fun k hk ho => ?_, fun r => ⟨?_, ?_, ?_, ?_⟩⟩
    · obtain ⟨e, he, -⟩ := (hd.outcome?_eq_none_iff hk).mp ho
      rw [hd.closed hrd] at he
      exact absurd he List.not_mem_nil
    · rw [request_fst]
      exact hd.outcome?_request_of_ended hrd r
    · rw [request_of_ended hrd]
    · rw [request_of_ended hrd]
    · rw [request_of_ended hrd]
  · intro hr ha r
    have hp := h.pending_request_of_refused hlt hr ha r
    refine ⟨?_, hp, hp ▸ h.nextId_not_mem_keys hlt⟩
    rw [request_fst]
    exact h.outcome?_request_of_refused hr ha r

/-- Two calls wait when the peer hangs up; a call is made after the reader has ended; a request is
    refused after the writer has failed. -/
theorem accounts_of_run_closed :
    let c := start.run [.requests .shutdown, .requests .shutdown, .hangsUp]
    let d := start.run [.requests .shutdown, .hangsUp, .reads]
    let e := start.run [.notifies "exit" none, .deafens, .writes]
    c.calls.length < 2 ^ 63 ∧ (c.step .reads).outcome? 1 = some (.error .closed) ∧
    d.calls.length < 2 ^ 63 ∧
    (d.request .shutdown).2.outcome? (d.request .shutdown).1 = some (.error .closed) ∧
    e.calls.length < 2 ^ 63 ∧ (e.request .shutdown).2.pending = e.pending := by
  intro c d e
  have hc : c.calls.length < 2 ^ 63 := by decide
  have hd : d.calls.length < 2 ^ 63 := by decide
  have he : e.calls.length < 2 ^ 63 := by decide
  obtain ⟨-, -, -, -, -, hend, -⟩ :=
    accounts_of_run [.requests .shutdown, .requests .shutdown, .hangsUp] hc
  obtain ⟨-, -, -, -, -, -, hafter, -⟩ := accounts_of_run [.requests .shutdown, .hangsUp, .reads] hd
  obtain ⟨-, -, -, -, -, -, -, hrefused⟩ :=
    accounts_of_run [.notifies "exit" none, .deafens, .writes] he
  exact ⟨hc, (hend rfl (Or.inl rfl)).2 1 (by decide) rfl, hd, ((hafter rfl []).2 .shutdown).1, he,
    (hrefused (by decide) rfl .shutdown).2.1⟩

end Connection

end EditorBridge.Rpc
