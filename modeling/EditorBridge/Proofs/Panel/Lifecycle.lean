import EditorBridge.Proofs.Panel.Moves

/-!
# The life of a panel

Two things hold of a bridge after any moves (`Sound`): the current panel is the one created last, and its
relay has neither finished nor been stopped. `Sound` says nothing of a panel that has been closed and whose
relay has not yet found that out: such a panel may be current. What ends this is that a relay only has so
much to take before it finds the end (`View.Doomed`), and that no move adds to it.

* `sound_step`, `sound_run` -- the invariant;
* `created_run`, `not_current_run` -- panels have consecutive numbers, and none becomes current again;
* `View.Doomed.next`, `doomed_run` -- the relay of a closed panel leaves after so many turns;
* **`lifecycle`** -- what follows for every interleaving.
-/

namespace EditorBridge.Panel

namespace Bridge

variable {b : Bridge}

/-! ## 1. The current panel -/

/-- What is true of the current panel. -/
structure Sound (b : Bridge) : Prop where
  latest : ∀ n, b.current = some n → n + 1 = b.views.length
  live : ∀ n, b.current = some n → b.relay? n = some .running ∨ b.relay? n = some .leaving

theorem sound_empty (title html : String) : (empty title html).Sound :=
  ⟨fun _ h => (nomatch h), fun _ h => (nomatch h)⟩

/-- The current panel, where it stays current, is not one that a relay has just left or that has just been
    stopped. -/
theorem live_step {n : Nat} {m : Move} (hc : b.current = some n) (hc' : (b.step m).current = some n)
    (hlive : b.relay? n = some .running ∨ b.relay? n = some .leaving) :
    (b.step m).relay? n = some .running ∨ (b.step m).relay? n = some .leaving := by
  obtain ⟨v, hv⟩ : ∃ v, b.views[n]? = some v := by
    rw [relay?] at hlive
    cases hv : b.views[n]? with
    | none => simp [hv] at hlive
    | some v => exact ⟨v, rfl⟩
  obtain ⟨v', hv', hnext⟩ := next_step hv m
  rw [relay?_of_view hv] at hlive
  rw [relay?_of_view hv']
  cases hnext with
  | kept | sent | closed | message => exact hlive
  | disposed | ended => exact Or.inr rfl
  | released hr =>
    have hgone : (b.release n).current = none :=
      (current_release b n).trans (if_pos ⟨hc, (relay?_of_view hv).trans (congrArg some hr)⟩)
    cases hgone.symm.trans hc'
  | aborted => cases (current_shutdown b).symm.trans hc'

theorem sound_step (h : b.Sound) (m : Move) : (b.step m).Sound := by
  obtain ⟨-, -, hc, hviews⟩ | ⟨-, hlen, hsame | ⟨-, hnone⟩⟩ := current_step b m
  · refine ⟨fun n hn => ?_, fun n hn => Or.inl ?_⟩
    · cases hc.symm.trans hn
      rw [hviews, List.length_append, List.length_singleton]
    · cases hc.symm.trans hn
      rw [relay?, hviews, List.getElem?_concat_length]
      rfl
  · refine ⟨fun n hn => ?_, fun n hn => ?_⟩
    · rw [hlen]
      exact h.latest n (hsame ▸ hn)
    · exact live_step (hsame ▸ hn) hn (h.live n (hsame ▸ hn))
  · constructor
    · intro n hn
      cases hnone.symm.trans hn
    · intro n hn
      cases hnone.symm.trans hn

theorem sound_run (h : b.Sound) (ms : List Move) : (b.run ms).Sound := by
  induction ms generalizing b with
  | nil => exact h
  | cons m ms ih => exact ih (sound_step h m)

/-- A panel whose relay has finished or been stopped is not current. -/
theorem Sound.not_current {n : Nat} (h : b.Sound)
    (hr : b.relay? n = some .finished ∨ b.relay? n = some .aborted) : b.current ≠ some n := by
  intro hc
  obtain hlive | hlive := h.live n hc <;> rw [hlive] at hr <;> exact (nomatch hr)

/-- The panels created have consecutive numbers, after those of the panels that were there. -/
theorem created_run (b : Bridge) (ms : List Move) :
    List.range b.views.length ++ b.created ms = List.range (b.run ms).views.length := by
  induction ms generalizing b with
  | nil => exact List.append_nil _
  | cons m ms ih =>
    rw [created, run_cons, ← ih (b.step m), ← List.append_assoc]
    obtain ⟨hm, -, -, hviews⟩ | ⟨hm, hlen, -⟩ := current_step b m
    · rw [hm, hviews, List.length_append, List.length_singleton, List.range_succ]
      rfl
    · rw [hm, hlen, Option.toList_none, List.append_nil]

/-- A panel that is there and not current will never be. -/
theorem not_current_run {n : Nat} (hn : n < b.views.length) (hc : b.current ≠ some n) (ms : List Move) :
    (b.run ms).current ≠ some n := by
  induction ms generalizing b with
  | nil => exact hc
  | cons m ms ih =>
    refine ih (Nat.lt_of_lt_of_le hn (length_le_step b m)) ?_
    obtain ⟨-, -, hnew, -⟩ | ⟨-, -, hsame | ⟨-, hnone⟩⟩ := current_step b m
    · rw [hnew]
      exact fun h => Nat.ne_of_gt hn (Option.some.inj h)
    · rwa [hsame]
    · rw [hnone]
      exact fun h => (nomatch h)

end Bridge

/-! ## 2. A closed panel -/

/-- The relay of the panel leaves within `k` turns: it runs no more, or what ends it is among the next `k`
    things that it finds. -/
def View.Doomed (k : Nat) (v : View) : Prop :=
  v.relay ≠ .running ∨ (∃ i < k, v.channel[i]? = some .disposed) ∨ v.closed = true ∧ v.channel.length < k

theorem View.Doomed.relay_ne {v : View} (h : v.Doomed 0) : v.relay ≠ .running := by
  obtain hr | ⟨i, hi, -⟩ | ⟨-, hlen⟩ := h
  · exact hr
  · exact absurd hi (Nat.not_lt_zero i)
  · exact absurd hlen (Nat.not_lt_zero _)

/-- A turn of its relay brings the end of a closed panel nearer, and no other move puts it off. -/
theorem View.Doomed.next {n k : Nat} {v v' : View} {m : Move} (h : v.Doomed k) (hnext : v.Next n m v') :
    v'.Doomed (k - if m.isTurnOf n then 1 else 0) := by
  cases hnext with
  | kept visible hturn =>
    split
    · obtain hr | ⟨hc, hclosed⟩ := hturn ‹_›
      · exact Or.inl hr
      · -- a running relay that finds nothing has not been told to end
        obtain hr | ⟨i, -, hi⟩ | ⟨hclosed', -⟩ := h
        · exact Or.inl hr
        · rw [hc] at hi
          exact (nomatch hi)
        · exact (nomatch hclosed.symm.trans hclosed')
    · exact h
  | sent e hopen =>
    obtain hr | ⟨i, hi, hd⟩ | ⟨hclosed, -⟩ := h
    · exact Or.inl hr
    · have hlt : i < v.channel.length := (List.getElem?_eq_some_iff.mp hd).choose
      exact Or.inr (Or.inl ⟨i, hi, (List.getElem?_append_left hlt).trans hd⟩)
    · exact (nomatch hopen.symm.trans hclosed)
  | closed =>
    obtain hr | hd | ⟨-, hlen⟩ := h
    · exact Or.inl hr
    · exact Or.inr (Or.inl hd)
    · exact Or.inr (Or.inr ⟨rfl, hlen⟩)
  | message hr hc =>
    rw [if_pos (show Move.isTurnOf n (.takes n) = true from beq_self_eq_true n)]
    obtain hr' | ⟨i, hi, hd⟩ | ⟨hclosed, hlen⟩ := h
    · exact absurd hr hr'
    · rw [hc] at hd
      cases i with
      | zero => exact (nomatch hd)
      | succ i => exact Or.inr (Or.inl ⟨i, by omega, hd⟩)
    · rw [hc, List.length_cons] at hlen
      exact Or.inr (Or.inr ⟨hclosed, by dsimp only; omega⟩)
  | disposed | ended | released | aborted => exact Or.inl (nomatch ·)

namespace Bridge

variable {b : Bridge} {n : Nat}

theorem doomed_run {k : Nat} {v : View} (hv : b.views[n]? = some v) (h : v.Doomed k) (ms : List Move) :
    ∃ v', (b.run ms).views[n]? = some v' ∧ v'.Doomed (k - ms.countP (Move.isTurnOf n)) := by
  induction ms generalizing b v k with
  | nil => exact ⟨v, hv, h⟩
  | cons m ms ih =>
    obtain ⟨w, hw, hnext⟩ := next_step hv m
    obtain ⟨v', hv', hd⟩ := ih hw (h.next hnext)
    refine ⟨v', hv', ?_⟩
    rwa [List.countP_cons, Nat.add_comm, ← Nat.sub_sub]

/-- Closing a panel, by the user or by dropping its host's end of the channel, dooms it. -/
theorem doomed_of_closing {v : View} {m : Move} (hv : b.views[n]? = some v)
    (hm : m = .sends n .disposed ∨ m = .closes n) :
    ∃ v', (b.step m).views[n]? = some v' ∧ v'.Doomed (v.channel.length + 1) := by
  obtain rfl | rfl := hm
  · show ∃ v', (b.send n .disposed).views[n]? = some v' ∧ _
    rw [send]
    split
    · refine ⟨_, getElem?_update _ hv, Or.inr (Or.inl ⟨v.channel.length, Nat.lt_succ_self _, ?_⟩)⟩
      rw [if_pos rfl]
      exact List.getElem?_concat_length
    · rename_i haccepts
      refine ⟨v, hv, ?_⟩
      rw [accepts, hv] at haccepts
      by_cases hr : v.relay = .running
      · refine Or.inr (Or.inr ⟨?_, Nat.lt_succ_self _⟩)
        cases hclosed : v.closed with
        | true => rfl
        | false => simp [hr, hclosed] at haccepts
      · exact Or.inl hr
  · refine ⟨_, getElem?_update _ hv, Or.inr (Or.inr ?_)⟩
    rw [if_pos rfl]
    exact ⟨rfl, Nat.lt_succ_self _⟩

/-- A panel that its relay has left is not current once the relay has said so. -/
theorem Sound.not_current_release {v : View} (h : b.Sound) (hv : b.views[n]? = some v)
    (hr : v.relay ≠ .running) : (b.release n).current ≠ some n := by
  rw [current_release]
  split
  · exact (nomatch ·)
  · rename_i hstill
    intro hc
    obtain hlive | hlive := h.live n hc
    · exact hr (Option.some.inj ((relay?_of_view hv).symm.trans hlive))
    · exact hstill ⟨hc, hlive⟩

/-- A closed panel whose relay gets its turns and then releases it is not current from then on. -/
theorem Sound.not_current_of_closing {m : Move} (h : b.Sound) (hn : n < b.views.length)
    (hm : m = .sends n .disposed ∨ m = .closes n) {ms : List Move}
    (hturns : b.waiting n < ms.countP (Move.isTurnOf n)) (ms' : List Move) :
    ((b.step m).run (ms ++ .releases n :: ms')).current ≠ some n := by
  have hv : b.views[n]? = some b.views[n] := List.getElem?_eq_getElem hn
  rw [waiting, hv, Option.map_some, Option.getD_some] at hturns
  obtain ⟨w, hw, hdoomed⟩ := doomed_of_closing hv hm
  obtain ⟨v, hv', hleft⟩ := doomed_run hw hdoomed ms
  rw [Nat.sub_eq_zero_of_le hturns] at hleft
  rw [run_append, run_cons]
  refine not_current_run ?_ ?_ ms'
  · exact Nat.lt_of_lt_of_le (lt_of_view hv') (length_le_step _ _)
  · exact (sound_run (sound_step h m) ms).not_current_release hv' hleft.relay_ne

/-! ## 3. Every interleaving -/

theorem documents_run (b : Bridge) (ms : List Move) :
    (b.run ms).title = b.title ∧ (b.run ms).html = b.html := by
  induction ms generalizing b with
  | nil => exact ⟨rfl, rfl⟩
  | cons m ms ih =>
    obtain ⟨htitle, hhtml⟩ := documents_step b m
    exact ⟨(ih (b.step m)).1.trans htitle, (ih (b.step m)).2.trans hhtml⟩

/-- After any moves by anybody:
    the panels created so far have increasing numbers, and the current one is the last of them;
    when output has to be shown, a panel is created exactly if none is current, and otherwise the current one
    is used, brought to the front exactly if it is hidden;
    the release of a panel, by a relay that has left it, forgets that panel and touches no other;
    a panel whose relay has finished or been stopped is not current, and one that is closed will not be, from
    the time when its relay has found the end of the channel and released it. -/
theorem lifecycle (title html : String) (ms : List Move) :
    let b := (empty title html).run ms
    ((empty title html).created ms).Pairwise (· < ·) ∧
    (∀ n, b.current = some n → ((empty title html).created ms).getLast? = some n) ∧
    (∀ m, (∃ n, b.created? m = some n) ↔ m = .ensures ∧ b.current = none) ∧
    (b.current = none → ∃ n, n ∉ (empty title html).created ms ∧
      b.ensure.2 = (n, [.createPanel n title html, .reveal n]) ∧ b.ensure.1.current = some n) ∧
    (∀ n, b.current = some n → ∃ v, b.views[n]? = some v ∧
      b.ensure.2 = (n, if v.visible then [] else [.reveal n]) ∧ b.ensure.1.current = some n) ∧
    (∀ n, (b.release n).current =
        (if b.current = some n ∧ b.relay? n = some .leaving then none else b.current) ∧
      ∀ k, k ≠ n → (b.release n).views[k]? = b.views[k]?) ∧
    (∀ n, b.relay? n = some .finished ∨ b.relay? n = some .aborted → b.current ≠ some n) ∧
    (∀ n < b.views.length, ∀ m, m = .sends n .disposed ∨ m = .closes n →
      ∀ ms₁, b.waiting n < ms₁.countP (Move.isTurnOf n) →
      ∀ ms₂, ((b.step m).run (ms₁ ++ .releases n :: ms₂)).current ≠ some n) := by
  intro b
  have h : b.Sound := sound_run (sound_empty title html) ms
  have hcreated : (empty title html).created ms = List.range b.views.length :=
    created_run (empty title html) ms
  obtain ⟨htitle, hhtml⟩ : b.title = title ∧ b.html = html := documents_run (empty title html) ms
  rw [hcreated]
  refine ⟨List.pairwise_lt_range, fun n hn => ?_, exists_created?_iff b, fun hc => ?_, fun n hc => ?_,
    fun n => ⟨current_release b n, fun k hk => getElem?_release_of_ne hk⟩, fun n hr => h.not_current hr,
    fun n hn m hm ms₁ hturns ms₂ => h.not_current_of_closing hn hm hturns ms₂⟩
  · rw [← h.latest n hn, List.getLast?_range]
    rfl
  · obtain ⟨hensure, hcurrent⟩ := ensure_of_none hc
    rw [htitle, hhtml] at hensure
    exact ⟨_, List.not_mem_range_self, hensure, hcurrent⟩
  · have hlt : n < b.views.length := h.latest n hc ▸ Nat.lt_succ_self n
    have hv : b.views[n]? = some b.views[n] := List.getElem?_eq_getElem hlt
    exact ⟨_, hv, ensure_of_some hc hv⟩

/-- A panel closed right after its creation: while its relay has not found out, output goes to it; then the
    panel is forgotten, and the next output creates another. -/
theorem lifecycle_closed_at_once :
    let b := (empty "Alloy" "").run [.ensures]
    let c := (b.step (.sends 0 .disposed)).run ([.ensures, .takes 0] ++ [.releases 0])
    b.current = some 0 ∧ b.waiting 0 < [Move.ensures, .takes 0].countP (Move.isTurnOf 0) ∧
      c.current ≠ some 0 ∧ (c.step .ensures).current = some 1 := by
  intro b c
  have hturns : b.waiting 0 < [Move.ensures, .takes 0].countP (Move.isTurnOf 0) := by decide
  obtain ⟨-, -, -, -, -, -, -, hclosed⟩ := lifecycle "Alloy" "" [.ensures]
  exact ⟨rfl, hturns, hclosed 0 (by decide) _ (Or.inl rfl) _ hturns [], rfl⟩

end Bridge

end EditorBridge.Panel
