import Mathlib.Algebra.Group.Nat.Defs
import Mathlib.Data.List.Perm.Basic
import Mathlib.Data.List.Nodup
import EditorBridge.Proofs.Rpc.Accounts
import EditorBridge.Rpc.Interleaving

/-!
# Calls that overlap the end of the reader

The steps of any number of calls and those of the reader come in any order. Two things hold after any of
them:

* `Numbered` -- the numbers taken are the first ones, each once;
* `Sound` -- the calls that have entered the table are those that stand in it and those of which is written
  down what became of them, each once; and once the reader has cleared the table, nothing stands in it.

What a step can do is said once (`Next`): it makes a call, gives it a number, enters it into the table, or
at most takes entries out of the table (`Connection.Settles`).

**`no_call_is_lost`** -- so no entry is answered twice, and after the reader's clear no call waits.
-/

namespace EditorBridge.Rpc

/-! ## 1. Entries of the table -/

namespace Connection

variable {c c' : Connection}

/-- The calls that stand in the table or have stood there, by their places. -/
def entered (c : Connection) : List Nat := c.pending.map (·.2.call) ++ c.completed.map Prod.fst

/-- At most, entries are taken out of the table, and what becomes of their calls is written down. -/
structure Settles (c c' : Connection) : Prop where
  entered : c'.entered.Perm c.entered
  pending : c'.pending.Sublist c.pending
  nextId : c'.nextId = c.nextId
  reader : c.reader = .ended → c'.reader = .ended

theorem settles_of_books (h : c'.books = c.books) (hr : c.reader = .ended → c'.reader = .ended) :
    Settles c c' := by
  have hp : c'.pending = c.pending := congrArg Books.pending h
  have hc : c'.completed = c.completed := congrArg Books.completed h
  refine ⟨?_, ?_, congrArg Books.nextId h, hr⟩
  · rw [entered, hp, hc, entered]
  · rw [hp]

/-- What completes as closed is taken out of the table. -/
theorem settles_close (c : Connection) (p : Int64 → Bool) : Settles c (c.close p) := by
  refine ⟨?_, List.filter_sublist, rfl, id⟩
  have hsplit := (List.filter_append_perm (fun e => p e.1) c.pending).map (·.2.call)
  rw [List.map_append] at hsplit
  have hclosed : (((c.pending.filter fun e => p e.1).map fun e =>
      (e.2.call, (Except.error CallError.closed : Except CallError Reply))).map Prod.fst) =
      (c.pending.filter fun e => p e.1).map (·.2.call) := by
    rw [List.map_map]
    rfl
  rw [List.perm_iff_count] at hsplit ⊢
  intro n
  have hn := hsplit n
  simp only [entered, close, List.map_append, List.count_append, hclosed] at hn ⊢
  omega

/-- So is the entry that a response answers. -/
theorem settles_handle (hk : (c.pending.map Prod.fst).Nodup) (body : List UInt8) :
    Settles c (c.handle body) := by
  have hbooks := books_handle hk body
  have hnew : ∀ k, (Happening.ofBody body).made = [] ∧ (Happening.ofBody body).entries k = [] ∧
      (Happening.ofBody body).refusals k = [] := by
    intro k
    unfold Happening.ofBody
    split
    · exact ⟨rfl, rfl, rfl⟩
    · exact ⟨rfl, rfl, rfl⟩
  obtain ⟨hmade, hentries, hrefusals⟩ := hnew c.calls.length
  have hp : (c.handle body).pending = c.books.waiting (.ofBody body) := by
    refine (congrArg Books.pending hbooks).trans ?_
    rw [Books.note]
    exact (congrArg _ hentries).trans (List.append_nil _)
  have hc : (c.handle body).completed = c.completed ++ c.books.settled (.ofBody body) := by
    refine (congrArg Books.completed hbooks).trans ?_
    rw [Books.note]
    exact (congrArg _ hrefusals).trans (List.append_nil _)
  have hid : (c.handle body).nextId = c.nextId := by
    refine (congrArg Books.nextId hbooks).trans ?_
    rw [Books.note, hmade]
    exact Int64.add_zero _
  refine ⟨?_, ?_, hid, fun hr => ?_⟩
  · have hsplit := Books.waiting_append_settled c.books (.ofBody body)
    rw [entered, hp, hc, entered]
    rw [List.perm_iff_count] at hsplit ⊢
    intro n
    have hn := hsplit n
    simp only [List.map_append, List.count_append, books] at hn ⊢
    omega
  · rw [hp]
    exact List.filter_sublist
  · exact (congrArg Ear.reader (ear_handle c body)).trans hr

end Connection

/-! ## 2. What a step can do -/

/-- Whether a call at this stage has entered the table; nothing where the stage does not tell. -/
def CallStage.hasEntered? : CallStage → Option Bool
  | begun | numbered _ => some false
  | entered _ | refused _ | waiting _ => some true
  | closed _ => none

namespace Interleaving

open Connection (Settles settles_of_books settles_close settles_handle)

/-- The stage of a call. -/
def stage? (s : Interleaving) (n : Nat) : Option CallStage := s.calls[n]?.map (·.stage)

/-- The number of a call, once it has one. -/
def number? (s : Interleaving) (n : Nat) : Option Int64 := (s.stage? n).bind CallStage.id?

/-- The numbers that calls have taken. -/
def numbers (s : Interleaving) : List Int64 := s.calls.filterMap (·.stage.id?)

/-- The call that enters the table in a step. -/
def entering? (s : Interleaving) : Event → Option Nat
  | .enters n => if s.connection.reader = .ended then none else some n
  | _ => none

/-- The calls that enter the table in a sequence of steps. -/
def entrances (s : Interleaving) : List Event → List Nat
  | [] => []
  | e :: es =>
    match s.step? e with
    | some s' => (s.entering? e).toList ++ s'.entrances es
    | none => []

/-- The next step of a call, unless it waits or has returned. -/
def turn? (s : Interleaving) (n : Nat) : Option Event :=
  (s.stage? n).bind fun stage =>
    match stage with
    | .begun => some (.takesNumber n)
    | .numbered _ => some (.enters n)
    | .entered _ => some (.submits n)
    | .refused _ => some (.withdraws n)
    | .waiting _ | .closed _ => none

/-- All that a step can do. -/
inductive Next (s : Interleaving) : Event → Interleaving → Prop
  | begins (r : Request) : Next s (.begins r) { s with calls := s.calls ++ [⟨r, .begun⟩] }
  | numbered {n : Nat} (hn : s.stage? n = some .begun) :
      Next s (.takesNumber n) (s.moveTo n (.numbered s.connection.nextId) s.connection.takeId.2)
  | entered {n : Nat} {id : Int64} (r : Request) (hn : s.stage? n = some (.numbered id))
      (hr : s.connection.reader ≠ .ended) :
      Next s (.enters n) (s.moveTo n (.entered id)
        { s.connection.close (· == id) with
          pending := (s.connection.close (· == id)).pending ++ [(id, ⟨n, r⟩)] })
  /-- Another stage of a call: its number stays, and it has entered the table if it had before. -/
  | moved {e : Event} {n : Nat} {before after : CallStage} {c : Connection} (hn : s.stage? n = some before)
      (hid : after.id? = before.id?)
      (hstage : after.hasEntered? = none ∨ after.hasEntered? = before.hasEntered?)
      (he : s.entering? e = none) (hnow : e ≠ .clears) (hc : s.connection.Settles c) :
      Next s e (s.moveTo n after c)
  | kept {e : Event} {c : Connection} {cleared : Bool} (he : s.entering? e = none) (hc : s.connection.Settles c)
      (hclear : cleared = true → s.cleared = true ∨ c.reader = .ended ∧ c.pending = [])
      (hnow : e = .clears → cleared = true) (hkept : s.cleared = true → cleared = true) :
      Next s e { s with connection := c, cleared }

variable {s s' : Interleaving} {e : Event}

theorem stage?_of_call {n : Nat} {call : Call} (hn : s.calls[n]? = some call) :
    s.stage? n = some call.stage := by
  rw [stage?, hn, Option.map_some]

theorem exists_call_of_stage {n : Nat} {stage : CallStage} (hn : s.stage? n = some stage) :
    ∃ call, s.calls[n]? = some call ∧ call.stage = stage := Option.map_eq_some_iff.mp hn

/-- A step of one call, taken apart. -/
theorem callStep?_eq_some {n : Nat} {k : Call → Option (CallStage × Connection)}
    (h : s.callStep? n k = some s') :
    ∃ call stage c, s.calls[n]? = some call ∧ k call = some (stage, c) ∧ s' = s.moveTo n stage c := by
  obtain ⟨call, hn, hk⟩ := Option.bind_eq_some_iff.mp h
  obtain ⟨⟨stage, c⟩, hcall, rfl⟩ := Option.map_eq_some_iff.mp hk
  exact ⟨call, stage, c, hn, hcall, rfl⟩

theorem next_enters {n : Nat} (h : s.step? (.enters n) = some s') : s.Next (.enters n) s' := by
  obtain ⟨call, stage, c, hn, hcall, rfl⟩ := callStep?_eq_some h
  have hstage := stage?_of_call hn
  split at hcall
  · rename_i number hnumber
    rw [hnumber] at hstage
    by_cases hr : s.connection.reader = .ended
    · rw [Connection.register, if_pos hr] at hcall
      cases hcall
      exact .moved hstage rfl (Or.inl rfl) (if_pos hr) (fun he => by cases he) (settles_of_books rfl id)
    · rw [Connection.register, if_neg hr] at hcall
      cases hcall
      exact .entered call.request hstage hr
  · cases hcall

theorem next_submits {n : Nat} (h : s.step? (.submits n) = some s') : s.Next (.submits n) s' := by
  obtain ⟨call, stage, c, hn, hcall, rfl⟩ := callStep?_eq_some h
  have hstage := stage?_of_call hn
  split at hcall
  · rename_i number hnumber
    rw [hnumber] at hstage
    split at hcall
    · cases hcall
      refine .moved hstage rfl (Or.inr rfl) rfl (fun he => by cases he)
        (settles_of_books (Connection.books_submit _ _) ?_)
      exact fun hr => (congrArg Ear.reader (Connection.ear_submit _ _)).trans hr
    · cases hcall
      exact .moved hstage rfl (Or.inr rfl) rfl (fun he => by cases he) (settles_of_books rfl id)
  · cases hcall

theorem next_withdraws {n : Nat} (h : s.step? (.withdraws n) = some s') : s.Next (.withdraws n) s' := by
  obtain ⟨call, stage, c, hn, hcall, rfl⟩ := callStep?_eq_some h
  have hstage := stage?_of_call hn
  split at hcall
  · rename_i number hnumber
    rw [hnumber] at hstage
    cases hcall
    exact .moved hstage rfl (Or.inl rfl) rfl (fun he => by cases he) (settles_close _ _)
  · cases hcall

/-- **All that a step can do**, if no number stands twice in the table. -/
theorem next_of_step? (hk : (s.connection.pending.map Prod.fst).Nodup) (h : s.step? e = some s') :
    s.Next e s' := by
  cases e with
  | begins r =>
    cases h
    exact .begins r
  | takesNumber n =>
    obtain ⟨call, stage, c, hn, hcall, rfl⟩ := callStep?_eq_some h
    split at hcall
    · rename_i hbegun
      cases hcall
      exact .numbered (hbegun ▸ stage?_of_call hn)
    · cases hcall
  | enters n => exact next_enters h
  | submits n => exact next_submits h
  | withdraws n => exact next_withdraws h
  | reads body =>
    rw [step?] at h
    split at h
    · cases h
      exact .kept rfl (settles_handle hk body) Or.inl (fun he => by cases he) id
    · cases h
  | announcesEnd =>
    rw [step?] at h
    split at h
    · cases h
      exact .kept rfl (settles_of_books rfl fun _ => rfl) Or.inl (fun he => by cases he) id
    · cases h
  | clears =>
    rw [step?] at h
    split at h
    · rename_i hr
      cases h
      refine .kept rfl (settles_close _ _) (fun _ => Or.inr ⟨hr.1, ?_⟩) (fun _ => rfl) fun _ => rfl
      simp [Connection.failPending, Connection.close]
    · cases h
  | writes =>
    obtain ⟨c, hc, rfl⟩ := Option.map_eq_some_iff.mp h
    have hbooks := Connection.books_writeFrame s.connection
    have hear := Connection.ear_writeFrame s.connection
    rw [hc] at hbooks hear
    exact .kept rfl (settles_of_books hbooks fun hr => (congrArg Ear.reader hear).trans hr) Or.inl
      (fun he => by cases he) id
  | deafens =>
    cases h
    exact .kept rfl (settles_of_books rfl id) Or.inl (fun he => by cases he) id

/-! ## 3. Stages -/

theorem stage?_moveTo {n : Nat} {stage : CallStage} {c : Connection} (m : Nat) :
    (s.moveTo n stage c).stage? m = if n = m then (s.stage? m).map fun _ => stage else s.stage? m := by
  rw [stage?, moveTo, List.getElem?_modify, stage?]
  split
  · cases s.calls[m]? <;> rfl
  · cases s.calls[m]? <;> rfl

/-- A new call is the last. -/
theorem stage?_begins (r : Request) (m : Nat) :
    ({ s with calls := s.calls ++ [⟨r, .begun⟩] } : Interleaving).stage? m =
      if m = s.calls.length then some .begun else s.stage? m := by
  rw [stage?, stage?]
  by_cases hm : m = s.calls.length
  · rw [if_pos hm, hm, List.getElem?_concat_length]
    rfl
  · rw [if_neg hm]
    by_cases hlt : m < s.calls.length
    · rw [List.getElem?_append_left hlt]
    · rw [List.getElem?_eq_none (by simp; omega), List.getElem?_eq_none (by omega)]

theorem lt_of_stage {n : Nat} {stage : CallStage} (hn : s.stage? n = some stage) :
    n < s.calls.length := by
  obtain ⟨call, hcall, -⟩ := exists_call_of_stage hn
  exact (List.getElem?_eq_some_iff.mp hcall).choose

/-! ## 4. Numbers -/

/-- The numbers taken are the first ones, each once, and the next one follows them. -/
structure Numbered (s : Interleaving) : Prop where
  nextId : s.connection.nextId = Int64.ofNat (s.numbers.length + 1)
  taken : s.numbers.Perm ((List.range s.numbers.length).map fun k => Int64.ofNat (k + 1))

/-- Calls before and after a call that changes. -/
theorem numbers_moveTo {n : Nat} {before : CallStage} (hn : s.stage? n = some before)
    (after : CallStage) (c : Connection) :
    ∃ xs ys, s.numbers = xs ++ before.id?.toList ++ ys ∧
      (s.moveTo n after c).numbers = xs ++ after.id?.toList ++ ys := by
  obtain ⟨call, hcall, rfl⟩ := exists_call_of_stage hn
  obtain ⟨hlt, rfl⟩ := List.getElem?_eq_some_iff.mp hcall
  refine ⟨(s.calls.take n).filterMap (·.stage.id?), (s.calls.drop (n + 1)).filterMap (·.stage.id?),
    ?_, ?_⟩
  · have hsplit : s.calls.take n ++ s.calls[n] :: s.calls.drop (n + 1) = s.calls := by
      rw [List.getElem_cons_drop, List.take_append_drop]
    have hnumbers := congrArg (List.filterMap (·.stage.id?)) hsplit
    rw [List.filterMap_append, List.filterMap_cons] at hnumbers
    rw [numbers, ← hnumbers, List.append_assoc]
    cases s.calls[n].stage.id? <;> rfl
  · rw [numbers, moveTo, List.modify_eq_take_cons_drop hlt, List.filterMap_append,
      List.filterMap_cons, List.append_assoc]
    cases after.id? <;> rfl

theorem Numbered.next (h : s.Numbered) (hnext : s.Next e s') : s'.Numbered := by
  cases hnext with
  | begins r =>
    have hnumbers : ({ s with calls := s.calls ++ [⟨r, .begun⟩] } : Interleaving).numbers = s.numbers := by
      rw [numbers, List.filterMap_append]
      exact List.append_nil _
    exact ⟨hnumbers ▸ h.nextId, hnumbers ▸ h.taken⟩
  | @numbered n hn =>
    obtain ⟨xs, ys, hbefore, hafter⟩ := numbers_moveTo hn (.numbered s.connection.nextId)
      s.connection.takeId.2
    have hbefore' : s.numbers = xs ++ ys := hbefore.trans (by rw [List.append_assoc]; rfl)
    have hperm : (s.moveTo n (.numbered s.connection.nextId) s.connection.takeId.2).numbers.Perm
        (s.numbers ++ [s.connection.nextId]) := by
      rw [hafter, hbefore', List.append_assoc, List.append_assoc]
      exact List.Perm.append_left _ List.perm_append_comm
    have hlen := hperm.length_eq
    rw [List.length_append, List.length_singleton] at hlen
    refine ⟨?_, ?_⟩
    · rw [hlen]
      show s.connection.nextId + 1 = _
      rw [h.nextId]
      exact (Int64.ofNat_add _ 1).symm
    · rw [hlen, List.range_succ, List.map_append]
      exact hperm.trans (h.taken.append (by rw [h.nextId]; exact .refl _))
  | @entered n id r hn hr =>
    obtain ⟨xs, ys, hbefore, hafter⟩ := numbers_moveTo hn (.entered id)
      { s.connection.close (· == id) with
        pending := (s.connection.close (· == id)).pending ++ [(id, ⟨n, r⟩)] }
    have hsame := hafter.trans hbefore.symm
    exact ⟨hsame ▸ h.nextId, hsame ▸ h.taken⟩
  | @moved e n before after c hn hid hstage he hnow hc =>
    obtain ⟨xs, ys, hbefore, hafter⟩ := numbers_moveTo hn after c
    rw [hid] at hafter
    have hsame := hafter.trans hbefore.symm
    refine ⟨?_, hsame ▸ h.taken⟩
    rw [hsame]
    exact hc.nextId.trans h.nextId
  | kept he hc => exact ⟨hc.nextId.trans h.nextId, h.taken⟩

/-- Two calls with one number: then there are more calls than numbers. -/
theorem Numbered.lt_of_number?_eq (h : s.Numbered) {n m : Nat} {id : Int64}
    (hn : s.number? n = some id) (hm : s.number? m = some id) (hne : n ≠ m) :
    2 ^ 64 < s.calls.length := by
  refine Nat.lt_of_not_le fun hle => ?_
  have hlen : s.numbers.length ≤ s.calls.length := List.length_filterMap_le ..
  have hnodup : s.numbers.Nodup := by
    refine h.taken.nodup_iff.mpr (List.Nodup.map_on (fun a ha b hb hab => ?_) List.nodup_range)
    have ha' := List.mem_range.mp ha
    have hb' := List.mem_range.mp hb
    have hbits := congrArg (fun n => n.toBitVec.toNat) hab
    simp only [Int64.toBitVec_ofNat', BitVec.toNat_ofNat] at hbits
    omega
  obtain ⟨stage, hstage, hid⟩ := Option.bind_eq_some_iff.mp hn
  obtain ⟨call, hcall, rfl⟩ := exists_call_of_stage hstage
  obtain ⟨stage', hstage', hid'⟩ := Option.bind_eq_some_iff.mp hm
  obtain ⟨call', hcall', rfl⟩ := exists_call_of_stage hstage'
  obtain ⟨hlt, rfl⟩ := List.getElem?_eq_some_iff.mp hcall
  obtain ⟨hlt', rfl⟩ := List.getElem?_eq_some_iff.mp hcall'
  rw [numbers, List.Nodup, List.pairwise_filterMap, List.pairwise_iff_getElem] at hnodup
  rcases Nat.lt_or_gt_of_ne hne with hlt'' | hlt''
  · exact hnodup n m hlt hlt' hlt'' id hid id hid' rfl
  · exact hnodup m n hlt' hlt hlt'' id hid' id hid rfl

/-! ## 5. Entries -/

/-- What holds of the table when the calls `ns` have entered it. -/
structure Sound (s : Interleaving) (ns : List Nat) : Prop where
  entered : s.connection.entered.Perm ns
  once : ns.Nodup
  keys : (s.connection.pending.map Prod.fst).Nodup
  stages : ∀ n stage b, s.stage? n = some stage → stage.hasEntered? = some b → (n ∈ ns ↔ b = true)
  known : ∀ n ∈ ns, n < s.calls.length
  cleared : s.cleared = true → s.connection.reader = .ended ∧ s.connection.pending = []

variable {ns : List Nat}

theorem sound_start : start.Sound [] where
  entered := .refl _
  once := List.nodup_nil
  keys := List.nodup_nil
  stages := fun _ _ _ h => (nomatch h)
  known := fun _ h => (nomatch h)
  cleared := (nomatch ·)

/-- The call that enters gets the only entry under its number. -/
theorem Sound.entering (h : s.Sound ns) {n : Nat} {id : Int64} (r : Request)
    (hn : s.stage? n = some (.numbered id)) (hr : s.connection.reader ≠ .ended) :
    (s.moveTo n (.entered id) { s.connection.close (· == id) with
      pending := (s.connection.close (· == id)).pending ++ [(id, ⟨n, r⟩)] }).Sound (ns ++ [n]) := by
  have hnew : n ∉ ns := fun hmem => (nomatch (h.stages n _ _ hn rfl).mp hmem)
  refine ⟨?_, ?_, ?_, ?_, ?_, fun hcleared => absurd (h.cleared hcleared).1 hr⟩
  · have hclosed := (settles_close s.connection (· == id)).entered.trans h.entered
    rw [List.perm_iff_count] at hclosed ⊢
    intro a
    have ha := hclosed a
    simp only [moveTo, Connection.entered, List.map_append, List.map_cons, List.map_nil,
      List.count_append] at ha ⊢
    omega
  · exact h.once.append (List.nodup_singleton n) (List.disjoint_singleton.mpr hnew)
  · show (((s.connection.close (· == id)).pending ++ [(id, Waiter.mk n r)]).map Prod.fst).Nodup
    rw [List.map_append, List.nodup_append']
    refine ⟨h.keys.sublist (List.filter_sublist.map _), List.nodup_singleton id, ?_⟩
    intro id' hold hnew'
    rw [List.mem_singleton.mp hnew'] at hold
    obtain ⟨x, hx, hxid⟩ := List.mem_map.mp hold
    have hne := (List.mem_filter.mp hx).2
    rw [hxid] at hne
    simp at hne
  · intro m stage b hm hb
    rw [stage?_moveTo] at hm
    rw [List.mem_append, List.mem_singleton]
    by_cases hmn : n = m
    · subst hmn
      rw [if_pos rfl, hn] at hm
      cases hm
      cases hb
      exact iff_of_true (Or.inr rfl) rfl
    · rw [if_neg hmn] at hm
      rw [h.stages m stage b hm hb, or_iff_left (Ne.symm hmn)]
  · intro m hm
    rw [moveTo, List.length_modify]
    rcases List.mem_append.mp hm with hm | hm
    · exact h.known m hm
    · rw [List.mem_singleton.mp hm]
      exact lt_of_stage hn

theorem Sound.next (h : s.Sound ns) (hnext : s.Next e s') :
    s'.Sound (ns ++ (s.entering? e).toList) := by
  cases hnext with
  | begins r =>
    show Sound _ (ns ++ [])
    rw [List.append_nil]
    refine ⟨h.entered, h.once, h.keys, fun n stage b hn hb => ?_, fun n hn => ?_, h.cleared⟩
    · rw [stage?_begins] at hn
      split at hn
      · rename_i hlast
        cases hn
        cases hb
        exact iff_of_false (fun hmem => absurd (h.known n hmem) (by omega)) Bool.false_ne_true
      · exact h.stages n stage b hn hb
    · rw [List.length_append]
      exact Nat.lt_succ_of_lt (h.known n hn)
  | @numbered n hn =>
    show Sound _ (ns ++ [])
    rw [List.append_nil]
    refine ⟨h.entered, h.once, h.keys, fun m stage b hm hb => ?_, fun m hm => ?_, h.cleared⟩
    · rw [stage?_moveTo] at hm
      split at hm
      · rename_i hmn
        subst hmn
        rw [hn] at hm
        cases hm
        cases hb
        exact h.stages n .begun false hn rfl
      · exact h.stages m stage b hm hb
    · rw [moveTo, List.length_modify]
      exact h.known m hm
  | @entered n id r hn hr =>
    rw [entering?, if_neg hr]
    exact h.entering r hn hr
  | @moved e n before after c hn hid hstage he hnow hc =>
    rw [he, Option.toList_none, List.append_nil]
    refine ⟨hc.entered.trans h.entered, h.once, h.keys.sublist (hc.pending.map _),
      fun m stage b hm hb => ?_, fun m hm => ?_, fun hcleared => ?_⟩
    · rw [stage?_moveTo] at hm
      split at hm
      · rename_i hmn
        subst hmn
        rw [hn] at hm
        cases hm
        rcases hstage with hnone | hsame
        · cases hnone.symm.trans hb
        · exact h.stages n before b hn (hsame ▸ hb)
      · exact h.stages m stage b hm hb
    · rw [moveTo, List.length_modify]
      exact h.known m hm
    · obtain ⟨hr, hp⟩ := h.cleared hcleared
      exact ⟨hc.reader hr, List.sublist_nil.mp (hp ▸ hc.pending)⟩
  | kept he hc hclear =>
    rw [he, Option.toList_none, List.append_nil]
    refine ⟨hc.entered.trans h.entered, h.once, h.keys.sublist (hc.pending.map _), h.stages, h.known,
      fun hcleared => ?_⟩
    rcases hclear hcleared with hbefore | hnow
    · obtain ⟨hr, hp⟩ := h.cleared hbefore
      exact ⟨hc.reader hr, List.sublist_nil.mp (hp ▸ hc.pending)⟩
    · exact hnow

/-! ## 6. Every interleaving -/

/-- **What holds after any steps.** -/
theorem sound_run {es : List Event} (h : s.Sound ns) (hnum : s.Numbered) (hrun : s.run? es = some s') :
    s'.Sound (ns ++ s.entrances es) ∧ s'.Numbered ∧
      (s.cleared = true ∨ .clears ∈ es → s'.cleared = true) := by
  induction es generalizing s ns with
  | nil =>
    cases hrun
    rw [entrances, List.append_nil]
    exact ⟨h, hnum, fun hc => hc.elim id (nomatch ·)⟩
  | cons e es ih =>
    obtain ⟨t, ht, hrest⟩ := Option.bind_eq_some_iff.mp hrun
    have hnext := next_of_step? h.keys ht
    obtain ⟨hsound, hnumbered, hcleared⟩ := ih (h.next hnext) (hnum.next hnext) hrest
    rw [List.append_assoc] at hsound
    rw [entrances, ht]
    refine ⟨hsound, hnumbered, fun hc => hcleared ?_⟩
    rcases hc with hbefore | hmem
    · left
      cases hnext with
      | begins | numbered | entered | moved => exact hbefore
      | kept he hc hclear hnow hkept => exact hkept hbefore
    · rcases List.mem_cons.mp hmem with rfl | hmem
      · left
        cases hnext with
        | moved hn hid hstage he hnow hc => exact absurd rfl hnow
        | kept he hc hclear hnow hkept => exact hnow rfl
      · exact Or.inr hmem

/-- A call that neither waits nor has returned can take its next step. -/
theorem exists_step_of_turn {n : Nat} {e : Event} (h : s.turn? n = some e) : ∃ t, s.step? e = some t := by
  obtain ⟨stage, hstage, hturn⟩ := Option.bind_eq_some_iff.mp h
  obtain ⟨call, hcall, rfl⟩ := exists_call_of_stage hstage
  have hstep : ∀ k : Call → Option (CallStage × Connection), (k call).isSome →
      ∃ t, s.callStep? n k = some t := by
    intro k hk
    obtain ⟨x, hx⟩ := Option.isSome_iff_exists.mp hk
    exact ⟨s.moveTo n x.1 x.2, by rw [callStep?, hcall, Option.bind_some, hx]; rfl⟩
  split at hturn <;> cases hturn
  · exact hstep _ (by simp [*])
  · refine hstep _ ?_
    simp only [*]
    split <;> rfl
  · refine hstep _ ?_
    simp only [*]
    split <;> rfl
  · exact hstep _ (by simp [*])

theorem Sound.outcome?_isSome (h : s.Sound ns) (hp : s.connection.pending = []) (n : Nat) :
    n ∈ ns ↔ ∃ o, s.connection.outcome? n = some o := by
  have hmem : n ∈ s.connection.completed.map Prod.fst ↔ n ∈ ns := by
    rw [← h.entered.mem_iff, Connection.entered, hp]
    rfl
  rw [← hmem, ← Option.isSome_iff_exists, ← Option.ne_none_iff_isSome, Ne,
    Connection.outcome?_eq_none_iff_not_mem, not_not]

/-- A call that has not entered the table returns at most that the connection is closed. -/
theorem Sound.result?_of_not_mem (h : s.Sound ns) {n : Nat} (hn : n ∉ ns) {r : Except CallError Reply}
    (hr : s.result? n = some r) : r = .error .closed := by
  obtain ⟨call, hcall, hresult⟩ := Option.bind_eq_some_iff.mp hr
  have hstage := stage?_of_call hcall
  split at hresult
  · cases hresult
    rfl
  · rename_i id hid
    rw [hid] at hstage
    exact absurd ((h.stages n _ _ hstage rfl).mpr rfl) hn
  · cases hresult

/-- Once the table has been cleared, every call has returned or can go on. -/
theorem Sound.result?_or_turn (h : s.Sound ns) (hp : s.connection.pending = []) {n : Nat}
    (hn : n < s.calls.length) :
    (∃ r, s.result? n = some r) ∨ ∃ e t, s.turn? n = some e ∧ s.step? e = some t := by
  have hcall : s.calls[n]? = some s.calls[n] := List.getElem?_eq_getElem hn
  have hstage := stage?_of_call hcall
  cases hturn : s.turn? n with
  | some e =>
    obtain ⟨t, ht⟩ := exists_step_of_turn hturn
    exact Or.inr ⟨e, t, rfl, ht⟩
  | none =>
    left
    rw [result?, hcall, Option.bind_some]
    rw [turn?, hstage, Option.bind_some] at hturn
    cases hc : s.calls[n].stage with
    | begun | numbered | entered | refused => simp [hc] at hturn
    | waiting id =>
      rw [hc] at hstage
      exact (h.outcome?_isSome hp n).mp ((h.stages n _ _ hstage rfl).mpr rfl)
    | closed id => exact ⟨_, rfl⟩

/-- **No call is lost when the reader ends.** After any steps of any number of calls, of the reader and of
    the writer: no two calls have the same number, unless more calls are made than there are numbers of 64
    bits; and an entry of the table is taken out of it at most once.

    Once the reader has cleared the table, nothing stands in it, then and for ever. Exactly the calls that
    ever entered it have an outcome written down, which each of them returns if it waits; every other call
    returns, if anything, that the connection is closed; and a call that has not returned can take its
    next step. -/
theorem no_call_is_lost (es : List Event) (s : Interleaving) (h : start.run? es = some s) :
    (∀ n m id, n ≠ m → s.number? n = some id → s.number? m = some id → 2 ^ 64 < s.calls.length) ∧
    (s.connection.pending.map (·.2.call) ++ s.connection.completed.map Prod.fst).Nodup ∧
    (.clears ∈ es →
      (∀ fs t, s.run? fs = some t → t.connection.pending = []) ∧
      (∀ n, n ∈ start.entrances es ↔ ∃ o, s.connection.outcome? n = some o) ∧
      (∀ n id, s.stage? n = some (.waiting id) → ∃ o, s.result? n = some o) ∧
      (∀ n r, n ∉ start.entrances es → s.result? n = some r → r = .error .closed) ∧
      ∀ n < s.calls.length,
        (∃ r, s.result? n = some r) ∨ ∃ e t, s.turn? n = some e ∧ s.step? e = some t) := by
  obtain ⟨hsound, hnumbered, hcleared⟩ := sound_run sound_start ⟨rfl, .refl _⟩ h
  rw [List.nil_append] at hsound
  refine ⟨fun n m id hne hn hm => hnumbered.lt_of_number?_eq hn hm hne,
    hsound.entered.nodup_iff.mpr hsound.once, fun hclears => ?_⟩
  have hc : s.cleared = true := hcleared (Or.inr hclears)
  have hp : s.connection.pending = [] := (hsound.cleared hc).2
  refine ⟨fun fs t ht => ?_, hsound.outcome?_isSome hp, fun n id hn => ?_,
    fun n r hn hr => hsound.result?_of_not_mem hn hr, fun n hn => hsound.result?_or_turn hp hn⟩
  · obtain ⟨hlater, -, hstill⟩ := sound_run hsound hnumbered ht
    exact (hlater.cleared (hstill (Or.inl hc))).2
  · obtain ⟨call, hcall, hwaits⟩ := exists_call_of_stage hn
    rw [result?, hcall, Option.bind_some, hwaits]
    exact (hsound.outcome?_isSome hp n).mp ((hsound.stages n _ _ hn rfl).mpr rfl)

/-- Two calls overlap the end of the reader: the one that began first takes the second number and enters
    the table before the end is announced; the other one comes too late. -/
theorem no_call_is_lost_overlapping :
    let es : List Event := [.begins .shutdown, .begins .shutdown, .takesNumber 1, .takesNumber 0, .enters 0,
      .announcesEnd, .enters 1, .submits 0, .clears]
    ∃ s, start.run? es = some s ∧ s.connection.pending = [] ∧ (∃ o, s.result? 0 = some o) ∧
      ∀ r, s.result? 1 = some r → r = .error .closed := by
  intro es
  obtain ⟨-, -, hclears⟩ := no_call_is_lost es _ rfl
  obtain ⟨hempty, -, hwaits, hlate, -⟩ := hclears (by simp [es])
  exact ⟨_, rfl, hempty [] _ rfl, hwaits 0 2 rfl, fun r hr => hlate 1 r (by decide) hr⟩

end Interleaving

end EditorBridge.Rpc
