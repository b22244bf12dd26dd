import Mathlib.Data.List.Basic
import EditorBridge.Proofs.Rpc.Run

/-!
# What happens to the calls

Of all that happens to a connection only three things matter to its calls: a request is made, the
reader acts on a message, the reader ends. `happening` says which of them an event is, and `settlement?`
what each means for a call that waits.

The books of a connection are the parts of it in which its calls are written down. **`books_step`**
says all that an event can do to them, in terms of what happens: a waiting call is taken off the table
exactly if it is settled, and a call that is made is entered into the table or completes at once.
-/

namespace EditorBridge.Rpc

/-! ## 1. Responses -/

namespace Message

/-- Whether a message is a response under this number. -/
def answers (m : Message) (id : Int64) : Bool := m.method == none && m.id == some (.number id)

/-- What a response means for a request: an error wins over a result, and a missing result is null. -/
def outcomeFor (m : Message) (r : Request) : Except CallError Reply :=
  match m.error with
  | some e => .error (.server r.method e)
  | none =>
    match r.readReply (m.result.getD .null) with
    | .ok reply => .ok reply
    | .error cause => .error (.malformed r.method cause)

theorem answers_iff (m : Message) (id : Int64) :
    m.answers id = true ↔ m.method = none ∧ m.id = some (.number id) := by
  simp [answers]

/-- A message answers under at most one number. -/
theorem answers_unique {m : Message} {id id' : Int64} (h : m.answers id = true)
    (h' : m.answers id' = true) : id = id' := by
  have e := ((answers_iff m id).mp h).2.symm.trans ((answers_iff m id').mp h').2
  cases e
  rfl

theorem outcomeFor_ne_closed (m : Message) (r : Request) : m.outcomeFor r ≠ .error .closed := by
  unfold outcomeFor
  split
  · exact fun e => nomatch e
  · split
    · exact fun e => nomatch e
    · exact fun e => nomatch e

/-- A message that answers is sorted as the response that it is. -/
theorem sort_of_answers {m : Message} {id : Int64} (h : m.answers id = true) :
    ∃ o, m.sort = .response id o ∧ ∀ r : Request, r.outcome o = m.outcomeFor r := by
  obtain ⟨hm, hi⟩ := (answers_iff m id).mp h
  unfold sort outcomeFor
  rw [hm, hi]
  cases m.error with
  | some e => exact ⟨_, rfl, fun _ => rfl⟩
  | none => exact ⟨_, rfl, fun _ => rfl⟩

/-- Only a message that answers is sorted as a response. -/
theorem answers_of_sort {m : Message} {id : Int64} {o : Except ResponseError Json}
    (h : m.sort = .response id o) : m.answers id = true := by
  rw [answers_iff]
  unfold sort at h
  split at h
  · cases h
  · cases h
  · rename_i n hm hi
    split at h
    · cases h; exact ⟨hm, hi⟩
    · cases h; exact ⟨hm, hi⟩
  · cases h

end Message

/-! ## 2. What happens -/

/-- What matters to the calls. -/
inductive Happening where
  | nothing
  /-- A request is made under this number; `entered` tells whether the reader lets it into the table,
      `accepted` whether its frame is accepted. -/
  | called (id : Int64) (r : Request) (entered accepted : Bool)
  /-- The reader acts on a message. -/
  | heard (m : Message)
  /-- The reader ends. -/
  | ended

namespace Happening

/-- The reader acts on the body of a frame. -/
def ofBody (body : List UInt8) : Happening :=
  match Message.ofBody? body with
  | some m => .heard m
  | none => .nothing

/-- What becomes of a call that waits under this number; nothing if it waits on. -/
def settlement? (id : Int64) (r : Request) : Happening → Option (Except CallError Reply)
  | nothing => none
  | called id' _ entered _ => if entered && id == id' then some (.error .closed) else none
  | heard m => if m.answers id then some (m.outcomeFor r) else none
  | ended => some (.error .closed)

/-- The calls that are made. -/
def made : Happening → List (Int64 × Request)
  | called id r _ _ => [(id, r)]
  | _ => []

/-- The new entries of the table, if `call` is the next place for a call. -/
def entries (call : Nat) : Happening → List (Int64 × Waiter)
  | called id r true true => [(id, ⟨call, r⟩)]
  | _ => []

/-- The calls that complete as they are made. -/
def refusals (call : Nat) : Happening → List (Nat × Except CallError Reply)
  | called _ _ true true => []
  | called _ _ _ _ => [(call, .error .closed)]
  | _ => []

end Happening

/-! ## 3. The books -/

/-- What a connection has written down about its calls. -/
structure Books where
  nextId : Int64
  calls : List (Int64 × Request)
  pending : List (Int64 × Waiter)
  completed : List (Nat × Except CallError Reply)

namespace Books

/-- The calls that wait on. -/
def waiting (b : Books) (h : Happening) : List (Int64 × Waiter) :=
  b.pending.filter fun e => (h.settlement? e.1 e.2.request).isNone

/-- The calls that are settled. -/
def settled (b : Books) (h : Happening) : List (Nat × Except CallError Reply) :=
  b.pending.filterMap fun e => (h.settlement? e.1 e.2.request).map fun o => (e.2.call, o)

/-- What happens is written down. -/
def note (b : Books) (h : Happening) : Books :=
  { nextId := b.nextId + Int64.ofNat h.made.length
    calls := b.calls ++ h.made
    pending := b.waiting h ++ h.entries b.calls.length
    completed := b.completed ++ b.settled h ++ h.refusals b.calls.length }

/-- A happening that settles the entries whose numbers satisfy `p`. -/
theorem note_eq {b : Books} {h : Happening} {p : Int64 → Bool} {f : Waiter → Except CallError Reply}
    (hs : ∀ e ∈ b.pending, h.settlement? e.1 e.2.request = if p e.1 then some (f e.2) else none) :
    b.note h =
      { nextId := b.nextId + Int64.ofNat h.made.length
        calls := b.calls ++ h.made
        pending := (b.pending.filter fun e => !p e.1) ++ h.entries b.calls.length
        completed :=
          b.completed ++ ((b.pending.filter fun e => p e.1).map fun e => (e.2.call, f e.2)) ++
            h.refusals b.calls.length } := by
  have hw : b.waiting h = b.pending.filter fun e => !p e.1 := by
    refine List.filter_congr fun e he => ?_
    rw [hs e he]
    cases p e.1 <;> rfl
  have hd : b.settled h = (b.pending.filter fun e => p e.1).map fun e => (e.2.call, f e.2) := by
    rw [settled, ← List.filterMap_eq_map, List.filterMap_filter]
    refine List.filterMap_congr fun e he => ?_
    rw [hs e he]
    cases p e.1 <;> rfl
  rw [note, hw, hd]

/-- What settles nothing and is no call leaves the books as they are. -/
theorem note_of_settles_nothing {b : Books} {h : Happening} (hm : h.made = [])
    (he : ∀ k, h.entries k = []) (hr : ∀ k, h.refusals k = [])
    (hs : ∀ e ∈ b.pending, h.settlement? e.1 e.2.request = none) : b.note h = b := by
  rw [note_eq (p := fun _ => false) (f := fun _ => .error .closed) hs, hm, he, hr]
  simp

@[simp] theorem note_nothing (b : Books) : b.note .nothing = b :=
  note_of_settles_nothing rfl (fun _ => rfl) (fun _ => rfl) fun _ _ => rfl

end Books

/-! ## 4. What each operation writes down -/

namespace Connection

/-- The books of a connection. -/
def books (c : Connection) : Books := ⟨c.nextId, c.calls, c.pending, c.completed⟩

theorem books_submit (c : Connection) (m : Outgoing) : (c.submit m).books = c.books := by
  unfold submit
  split
  · rfl
  · rfl

theorem books_notify (c : Connection) (method : String) (params : Option Json) :
    (c.notify method params).2.books = c.books := by
  unfold notify
  split
  · exact books_submit c _
  · rfl

theorem books_receive (c : Connection) (bs : List UInt8) : (c.receive bs).books = c.books := by
  unfold receive
  split
  · rfl
  · rfl

theorem books_deliver (c : Connection) (n : Notification) : (c.deliver n).books = c.books := by
  unfold deliver
  split
  · rfl
  · rfl

theorem books_writeFrame (c : Connection) : (c.writeFrame?.getD c).books = c.books := by
  unfold writeFrame?
  split
  · split
    · rfl
    · rfl
  · rfl

theorem request_fst (c : Connection) (r : Request) : (c.request r).1 = c.calls.length := by
  unfold request
  simp only
  split
  · rfl
  · split
    · rfl
    · rfl

/-- A request when the reader has ended. -/
theorem request_of_ended {c : Connection} (hr : c.reader = .ended) (r : Request) :
    (c.request r).2 =
      { c with
        nextId := c.nextId + 1
        calls := c.calls ++ [(c.nextId, r)]
        completed := c.completed ++ [(c.calls.length, .error .closed)] } := by
  simp [request, takeId, register, hr, complete]

/-- A request whose frame is accepted. -/
theorem request_of_accepted {c : Connection} (hr : c.reader ≠ .ended) (ha : c.accepts = true)
    (r : Request) :
    (c.request r).2 =
      { c with
        nextId := c.nextId + 1
        calls := c.calls ++ [(c.nextId, r)]
        pending := (c.close (· == c.nextId)).pending ++ [(c.nextId, ⟨c.calls.length, r⟩)]
        completed := (c.close (· == c.nextId)).completed
        queue := c.queue ++ [.request c.nextId r.method r.params]
        accepted := c.accepted ++ [.request c.nextId r.method r.params] } := by
  have hw : (c.writer == .running) = true := ha
  simp [request, takeId, register, hr, accepts, submit, close, hw]

/-- A request whose frame is not accepted: its entry is taken out of the table again. -/
theorem request_of_refused {c : Connection} (hr : c.reader ≠ .ended) (ha : c.accepts = false)
    (r : Request) :
    (c.request r).2 =
      { c with
        nextId := c.nextId + 1
        calls := c.calls ++ [(c.nextId, r)]
        pending := (c.close (· == c.nextId)).pending
        completed := (c.close (· == c.nextId)).completed ++ [(c.calls.length, .error .closed)] } := by
  have hw : (c.writer == .running) = false := ha
  simp [request, takeId, register, hr, accepts, unregister, complete, close, hw, bne]

/-- The entry of a request that was refused is taken out again; an older call under the same number
    has given way in any case. -/
theorem books_request (c : Connection) (r : Request) :
    (c.request r).2.books =
      c.books.note (.called c.nextId r (c.reader != .ended) c.accepts) := by
  by_cases hr : c.reader = .ended
  · have hs : ∀ e ∈ c.books.pending,
        (Happening.called c.nextId r (c.reader != .ended) c.accepts).settlement? e.1 e.2.request =
          if false then some (.error .closed) else none := by
      intro e _
      simp [Happening.settlement?, hr]
    rw [Books.note_eq (p := fun _ => false) (f := fun _ => .error .closed) hs, request_of_ended hr,
      hr]
    simp [books, Happening.made, Happening.entries, Happening.refusals]
  · have hb : (c.reader != .ended) = true := bne_iff_ne.mpr hr
    have hs : ∀ e ∈ c.books.pending,
        (Happening.called c.nextId r (c.reader != .ended) c.accepts).settlement? e.1 e.2.request =
          if e.1 == c.nextId then some (.error .closed) else none := by
      intro e _
      simp [Happening.settlement?, hb]
    rw [Books.note_eq (p := fun id => id == c.nextId) (f := fun _ => .error .closed) hs, hb]
    cases ha : c.accepts with
    | true =>
      rw [request_of_accepted hr ha]
      simp [books, close, Happening.made, Happening.entries, Happening.refusals]
    | false =>
      rw [request_of_refused hr ha]
      simp [books, close, Happening.made, Happening.entries, Happening.refusals]

/-- Among entries with different keys at most one has a given key. -/
theorem filter_of_nodup_keys {es : List (Int64 × Waiter)} (h : (es.map Prod.fst).Nodup) (id : Int64) :
    (es.filter fun e => e.1 == id) = (es.find? fun e => e.1 == id).toList := by
  induction es with
  | nil => rfl
  | cons e es ih =>
    rw [List.map_cons, List.nodup_cons] at h
    by_cases he : e.1 = id
    · have hrest : (es.filter fun e => e.1 == id) = [] := by
        refine List.filter_eq_nil_iff.mpr fun x hx hxe => h.1 ?_
        rw [he, ← beq_iff_eq.mp hxe]
        exact List.mem_map_of_mem hx
      simp [he, hrest]
    · simp [he, ih h.2]

theorem filter_of_find?_eq_none {es : List (Int64 × Waiter)} {id : Int64}
    (h : (es.find? fun e => e.1 == id) = none) : (es.filter fun e => !(e.1 == id)) = es := by
  refine List.filter_eq_self.mpr fun e he => ?_
  rw [Bool.not_eq_true']
  exact Bool.eq_false_iff.mpr (List.find?_eq_none.mp h e he)

theorem books_settleResponse {c : Connection} (hk : (c.pending.map Prod.fst).Nodup) {m : Message}
    {id : Int64} (h : m.answers id = true) {o : Except ResponseError Json}
    (ho : ∀ r : Request, r.outcome o = m.outcomeFor r) :
    (c.settleResponse id o).books = c.books.note (.heard m) := by
  have hs : ∀ e ∈ c.books.pending, (Happening.heard m).settlement? e.1 e.2.request =
      if e.1 == id then some (m.outcomeFor e.2.request) else none := by
    intro e _
    by_cases he : e.1 = id
    · simp [Happening.settlement?, he, h]
    · have hm : ¬ m.answers e.1 = true := fun hm => he (Message.answers_unique hm h)
      simp [Happening.settlement?, he, hm]
  have hf : c.books.pending.filter (fun e => e.1 == id) =
      (c.pending.find? fun e => e.1 == id).toList := filter_of_nodup_keys hk id
  rw [Books.note_eq (p := fun n => n == id) (f := fun w => m.outcomeFor w.request) hs, hf]
  unfold settleResponse
  cases hfind : c.pending.find? fun e => e.1 == id with
  | none =>
    simp [books, warn, Happening.made, Happening.entries, Happening.refusals,
      filter_of_find?_eq_none hfind]
  | some e =>
    simp [books, unregister, complete, Happening.made, Happening.entries, Happening.refusals, ho, bne]

theorem books_handle {c : Connection} (hk : (c.pending.map Prod.fst).Nodup) (body : List UInt8) :
    (c.handle body).books = c.books.note (.ofBody body) := by
  unfold handle Incoming.ofBody? Happening.ofBody
  cases Message.ofBody? body with
  | none => exact (Books.note_nothing _).symm
  | some m =>
    have hno : (∀ id, m.answers id = false) → c.books.note (.heard m) = c.books := fun hn =>
      Books.note_of_settles_nothing rfl (fun _ => rfl) (fun _ => rfl) fun e _ => by
        simp [Happening.settlement?, hn]
    simp only [Option.map_some]
    -- a message that answers nothing settles nothing, whatever it is sorted as
    have hsort : (∃ id, m.answers id = true) ∨ ∀ id, m.answers id = false := by
      by_cases h : ∃ id, m.answers id = true
      · exact Or.inl h
      · exact Or.inr fun id => Bool.eq_false_iff.mpr fun hm => h ⟨id, hm⟩
    rcases hsort with ⟨id, h⟩ | hn
    · obtain ⟨o, hs, ho⟩ := Message.sort_of_answers h
      rw [hs]
      exact books_settleResponse hk h ho
    · rw [hno hn]
      cases hs : m.sort with
      | request method id params => exact books_submit c _
      | notification method params => exact books_deliver c _
      | response id o => exact absurd ((hn id).symm.trans (Message.answers_of_sort hs)) Bool.false_ne_true
      | stray => rfl

theorem books_endReader (c : Connection) : c.endReader.books = c.books.note .ended := by
  have hs : ∀ e ∈ c.books.pending, Happening.ended.settlement? e.1 e.2.request =
      if true then some (.error .closed) else none := fun _ _ => rfl
  rw [Books.note_eq (p := fun _ => true) (f := fun _ => .error .closed) hs]
  simp [endReader, failPending, close, books, Happening.made, Happening.entries, Happening.refusals]

/-! ## 5. What an event writes down -/

/-- What a turn of the reader means to the calls. -/
def reading (c : Connection) : Happening :=
  if c.reader = .running then
    match Frame.read c.peerDone c.inbox with
    | .frame body _ => .ofBody body
    | .wait => .nothing
    | .finished => .ended
    | .failed _ => .ended
  else .nothing

/-- What an event means to the calls. -/
def happening (c : Connection) : Event → Happening
  | .requests r => .called c.nextId r (c.reader != .ended) c.accepts
  | .reads => c.reading
  | _ => .nothing

theorem books_of_quiet {c c' : Connection} (h : c'.books = c.books) :
    c'.books = c.books.note .nothing :=
  h.trans (Books.note_nothing _).symm

theorem books_readFrame {c : Connection} (hk : (c.pending.map Prod.fst).Nodup) :
    (c.readFrame?.getD c).books = c.books.note c.reading := by
  unfold reading readFrame?
  split
  · cases Frame.read c.peerDone c.inbox with
    | frame body rest => exact books_handle (c := { c with inbox := rest }) hk body
    | wait => exact books_of_quiet rfl
    | finished => exact books_endReader c
    | failed e => exact books_endReader (c.warn _)
  · exact books_of_quiet rfl

/-- **All that an event does to the books.** -/
theorem books_step {c : Connection} (hk : (c.pending.map Prod.fst).Nodup) (e : Event) :
    (c.step e).books = c.books.note (c.happening e) := by
  cases e with
  | notifies method params => exact books_of_quiet (books_notify c method params)
  | requests r => exact books_request c r
  | receives bs => exact books_of_quiet (books_receive c bs)
  | hangsUp => exact books_of_quiet rfl
  | deafens => exact books_of_quiet rfl
  | dropsReceiver => exact books_of_quiet rfl
  | aborts => exact books_of_quiet rfl
  | reads => exact books_readFrame hk
  | writes => exact books_of_quiet (books_writeFrame c)

/-- What happens to the calls in a run. -/
def history (c : Connection) : List Event → List Happening
  | [] => []
  | e :: es => c.happening e :: (c.step e).history es

end Connection

end EditorBridge.Rpc
