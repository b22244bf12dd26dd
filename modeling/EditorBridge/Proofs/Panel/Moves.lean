import EditorBridge.Panel.Bridge

/-!
# Moves of a bridge

Whatever the session, the user, the relays and the end of the session do, and in whatever order, is a list
of moves. What one move can do is said here once:

* `View.Next`, `next_step` -- to one panel;
* `created?_ensures`, `current_step` -- to which panel is current and how many there are;
* `release_eq`, `ensure_of_none`, `ensure_of_some` -- in `release` and `ensure`, in all.
-/

namespace EditorBridge.Panel

/-- One step of anybody. -/
inductive Move where
  /-- Output has to be shown. -/
  | ensures
  /-- An event enters the channel of a panel. -/
  | sends (n : Nat) (e : Event)
  /-- Nothing more will enter the channel of a panel. -/
  | closes (n : Nat)
  /-- A turn of the relay of a panel. -/
  | takes (n : Nat)
  /-- The relay of a panel, at its end, makes the bridge forget the panel. -/
  | releases (n : Nat)
  | shutsDown
  | setsVisible (n : Nat) (visible : Bool)

/-- Whether this is a turn of the relay of panel `n`. -/
def Move.isTurnOf (n : Nat) : Move → Bool
  | .takes k => k == n
  | _ => false

namespace Bridge

/-- One move. -/
def step (b : Bridge) : Move → Bridge
  | .ensures => b.ensure.1
  | .sends n e => b.send n e
  | .closes n => b.close n
  | .takes n => ((b.take? n).map Prod.fst).getD b
  | .releases n => b.release n
  | .shutsDown => b.shutdown
  | .setsVisible n visible => b.setVisible n visible

/-- A sequence of moves. -/
def run (b : Bridge) (ms : List Move) : Bridge := ms.foldl step b

/-- The panel that the host creates in a move. -/
def created? (b : Bridge) : Move → Option Nat
  | .ensures => b.ensure.2.2.findSome? fun e => match e with
    | .createPanel n _ _ => some n
    | _ => none
  | _ => none

/-- The panels that the host creates in a sequence of moves. -/
def created (b : Bridge) : List Move → List Nat
  | [] => []
  | m :: ms => (b.created? m).toList ++ (b.step m).created ms

/-- What the relay of a panel is doing. -/
def relay? (b : Bridge) (n : Nat) : Option Relay := b.views[n]?.map (·.relay)

/-- The events in the channel of a panel. -/
def waiting (b : Bridge) (n : Nat) : Nat := (b.views[n]?.map (·.channel.length)).getD 0

@[simp] theorem run_cons (b : Bridge) (m : Move) (ms : List Move) :
    b.run (m :: ms) = (b.step m).run ms := rfl

theorem run_append (b : Bridge) (ms ns : List Move) : b.run (ms ++ ns) = (b.run ms).run ns :=
  List.foldl_append

end Bridge

/-! ## 1. One panel -/

/-- All that a move can do to panel `n`. -/
inductive View.Next (n : Nat) (v : View) : Move → View → Prop
  /-- At most it is hidden or shown; if this is a turn of its relay, the relay finds nothing to do. -/
  | kept {m : Move} (visible : Bool)
      (h : m.isTurnOf n = true → v.relay ≠ .running ∨ v.channel = [] ∧ v.closed = false) :
      Next n v m { v with visible }
  | sent (e : Event) (h : v.closed = false) : Next n v (.sends n e) { v with channel := v.channel ++ [e] }
  | closed : Next n v (.closes n) { v with closed := true }
  | message {j : Json} {es : List Event} (hr : v.relay = .running) (hc : v.channel = .message j :: es) :
      Next n v (.takes n) { v with channel := es }
  | disposed {es : List Event} (hr : v.relay = .running) (hc : v.channel = .disposed :: es) :
      Next n v (.takes n) { v with channel := es, relay := .leaving }
  | ended (hr : v.relay = .running) (hc : v.channel = []) (h : v.closed = true) :
      Next n v (.takes n) { v with relay := .leaving }
  | released (hr : v.relay = .leaving) : Next n v (.releases n) { v with relay := .finished }
  | aborted (hr : v.relay = .running) : Next n v .shutsDown { v with relay := .aborted }

/-- A move that is no turn of the relay may leave the panel as it is. -/
theorem View.Next.same {n : Nat} {m : Move} (v : View) (h : m.isTurnOf n = false) : v.Next n m v :=
  .kept v.visible fun hturn => (nomatch h.symm.trans hturn)

namespace Bridge

variable {b : Bridge}

theorem lt_of_view {n : Nat} {v : View} (hv : b.views[n]? = some v) : n < b.views.length :=
  (List.getElem?_eq_some_iff.mp hv).choose

theorem relay?_of_view {n : Nat} {v : View} (hv : b.views[n]? = some v) : b.relay? n = some v.relay := by
  rw [relay?, hv, Option.map_some]

theorem getElem?_update {n k : Nat} {v : View} (f : View → View) (hv : b.views[n]? = some v) :
    (b.update k f).views[n]? = some (if k = n then f v else v) := by
  rw [update, List.getElem?_modify, hv]
  split <;> rfl

@[simp] theorem length_update (k : Nat) (f : View → View) :
    (b.update k f).views.length = b.views.length :=
  List.length_modify ..

/-- A move that changes panel `k` does this to panel `n`. -/
theorem next_update {n k : Nat} {v : View} {f : View → View} {m : Move} (hv : b.views[n]? = some v)
    (hf : k = n → v.Next n m (f v)) (hturn : k ≠ n → m.isTurnOf n = false) :
    ∃ v', (b.update k f).views[n]? = some v' ∧ v.Next n m v' := by
  refine ⟨_, getElem?_update f hv, ?_⟩
  split
  · exact hf ‹k = n›
  · exact .same v (hturn ‹¬ k = n›)

/-- A turn in which a relay moves changes its own panel only. -/
theorem take?_some {k : Nat} {b' : Bridge} {j : Option Json} (h : b.take? k = some (b', j)) :
    ∃ f, b' = b.update k f ∧ ∀ v, b.views[k]? = some v → v.Next k (.takes k) (f v) := by
  rw [take?] at h
  split at h
  · exact (nomatch h)
  · rename_i v hv
    split at h
    · rename_i hr hc
      cases h
      exact ⟨_, rfl, fun w hw => by cases hv.symm.trans hw; exact .message hr hc⟩
    · rename_i hr hc
      cases h
      exact ⟨_, rfl, fun w hw => by cases hv.symm.trans hw; exact .disposed hr hc⟩
    · rename_i hr hc
      split at h
      · rename_i hclosed
        cases h
        exact ⟨_, rfl, fun w hw => by cases hv.symm.trans hw; exact .ended hr hc hclosed⟩
      · exact (nomatch h)
    · exact (nomatch h)

/-- A relay that cannot move has ended, or waits for what is still to come. -/
theorem take?_none {k : Nat} {v : View} (hv : b.views[k]? = some v) (h : b.take? k = none) :
    v.relay ≠ .running ∨ v.channel = [] ∧ v.closed = false := by
  rw [take?, hv] at h
  obtain ⟨visible, channel, closed, relay⟩ := v
  cases relay with
  | running =>
    cases channel with
    | nil =>
      cases closed with
      | false => exact Or.inr ⟨rfl, rfl⟩
      | true => exact (nomatch h)
    | cons e es => cases e <;> exact (nomatch h)
  | leaving | finished | aborted => exact Or.inl (nomatch ·)

/-- A turn changes at most the panel of the relay. -/
theorem step_takes (k : Nat) :
    (b.step (.takes k) = b ∧ b.take? k = none) ∨
      ∃ f, b.step (.takes k) = b.update k f ∧ ∀ v, b.views[k]? = some v → v.Next k (.takes k) (f v) := by
  show (((b.take? k).map Prod.fst).getD b = b ∧ _) ∨ ∃ f, ((b.take? k).map Prod.fst).getD b = _ ∧ _
  cases h : b.take? k with
  | none => exact Or.inl ⟨rfl, rfl⟩
  | some r => exact Or.inr (take?_some (j := r.2) h)

/-- `release`, by what the relay is doing. -/
theorem release_eq (b : Bridge) (k : Nat) :
    b.release k = if b.relay? k = some .leaving then
      { b.update k ({ · with relay := .finished }) with
        current := if b.current = some k then none else b.current }
    else b := by
  rw [release, relay?]
  cases b.views[k]? with
  | none => rfl
  | some v =>
    by_cases hr : v.relay = .leaving
    · rw [Option.map_some, if_pos (congrArg some hr)]
      dsimp only
      rw [if_pos hr]
      change (if b.current = some k then _ else _) = _
      by_cases hc : b.current = some k
      · rw [if_pos hc, if_pos hc]
      · rw [if_neg hc, if_neg hc]
        rfl
    · rw [Option.map_some, if_neg fun h => hr (Option.some.inj h)]
      dsimp only
      rw [if_neg hr]

/-- `step`, for one panel. -/
theorem next_step {n : Nat} {v : View} (hv : b.views[n]? = some v) (m : Move) :
    ∃ v', (b.step m).views[n]? = some v' ∧ v.Next n m v' := by
  cases m with
  | ensures =>
    show ∃ v', b.ensure.1.views[n]? = some v' ∧ v.Next n .ensures v'
    rw [ensure]
    split
    · split
      · exact ⟨v, hv, .same v rfl⟩
      · exact next_update hv (fun _ => .kept true fun h => (nomatch h)) fun _ => rfl
    · exact ⟨v, (List.getElem?_append_left (lt_of_view hv)).trans hv, .same v rfl⟩
  | sends k e =>
    show ∃ v', (b.send k e).views[n]? = some v' ∧ v.Next n (.sends k e) v'
    rw [send]
    split
    · rename_i haccepts
      refine next_update hv (fun hk => ?_) fun _ => rfl
      subst hk
      rw [accepts, hv] at haccepts
      exact .sent e (Bool.not_eq_true' _ ▸ (Bool.and_eq_true_iff.mp haccepts).1)
    · exact ⟨v, hv, .same v rfl⟩
  | closes k => exact next_update hv (fun hk => hk ▸ .closed) fun _ => rfl
  | takes k =>
    obtain ⟨heq, hnone⟩ | ⟨f, heq, hnext⟩ := step_takes (b := b) k
    · rw [heq]
      exact ⟨v, hv, .kept v.visible fun hk => take?_none (beq_iff_eq.mp hk ▸ hv) hnone⟩
    · rw [heq]
      exact next_update hv (fun hk => hk ▸ hnext v (hk ▸ hv)) fun hk => beq_false_of_ne hk
  | releases k =>
    show ∃ v', (b.release k).views[n]? = some v' ∧ v.Next n (.releases k) v'
    rw [release_eq]
    split
    · rename_i hleaving
      refine next_update hv (fun hk => ?_) fun _ => rfl
      subst hk
      rw [relay?, hv] at hleaving
      exact .released (Option.some.inj hleaving)
    · exact ⟨v, hv, .same v rfl⟩
  | shutsDown =>
    show ∃ v', b.shutdown.views[n]? = some v' ∧ v.Next n .shutsDown v'
    rw [shutdown]
    split
    · refine next_update hv (fun _ => ?_) fun _ => rfl
      split
      · exact .aborted ‹_›
      · exact .same v rfl
    · exact ⟨v, hv, .same v rfl⟩
  | setsVisible k visible =>
    exact next_update hv (fun _ => .kept visible fun h => (nomatch h)) fun _ => rfl

/-! ## 2. Which panel is current -/

/-- A panel is created if none is current, and only then. -/
theorem created?_ensures (b : Bridge) :
    b.created? .ensures = if b.current = none then some b.views.length else none := by
  rw [created?, ensure]
  cases b.current with
  | none => rfl
  | some n =>
    dsimp only
    split <;> rfl

/-- Output creates a panel exactly if none is current, and nothing else creates one. -/
theorem exists_created?_iff (b : Bridge) (m : Move) :
    (∃ n, b.created? m = some n) ↔ m = .ensures ∧ b.current = none := by
  constructor
  · rintro ⟨n, hn⟩
    cases m with
    | ensures =>
      rw [created?_ensures] at hn
      split at hn
      · exact ⟨rfl, ‹_›⟩
      · exact (nomatch hn)
    | sends | closes | takes | releases | shutsDown | setsVisible => exact (nomatch hn)
  · rintro ⟨rfl, hc⟩
    exact ⟨_, (created?_ensures b).trans (if_pos hc)⟩

/-- A relay at its end makes the bridge forget its own panel, if that is current. -/
theorem current_release (b : Bridge) (k : Nat) :
    (b.release k).current =
      if b.current = some k ∧ b.relay? k = some .leaving then none else b.current := by
  rw [release_eq]
  by_cases hr : b.relay? k = some .leaving
  · rw [if_pos hr]
    simp only [hr, and_true]
  · rw [if_neg hr, if_neg fun hboth => hr hboth.2]

@[simp] theorem length_release (k : Nat) : (b.release k).views.length = b.views.length := by
  rw [release_eq]
  split
  · exact length_update ..
  · rfl

/-- It changes no other panel. -/
theorem getElem?_release_of_ne {n k : Nat} (hk : n ≠ k) : (b.release k).views[n]? = b.views[n]? := by
  rw [release_eq]
  split
  · exact List.getElem?_modify_ne _ _ hk.symm
  · rfl

/-- All that a move can do to which panel is current. -/
theorem current_step (b : Bridge) (m : Move) :
    (b.created? m = some b.views.length ∧ b.current = none ∧
      (b.step m).current = some b.views.length ∧
      (b.step m).views = b.views ++ [⟨true, [], false, .running⟩]) ∨
    b.created? m = none ∧ (b.step m).views.length = b.views.length ∧
      ((b.step m).current = b.current ∨
        (m = .shutsDown ∨ ∃ n, m = .releases n ∧ b.current = some n ∧ b.relay? n = some .leaving) ∧
          (b.step m).current = none) := by
  cases m with
  | ensures =>
    rw [created?_ensures]
    show (_ ∧ _ ∧ b.ensure.1.current = _ ∧ b.ensure.1.views = _) ∨
      _ ∧ b.ensure.1.views.length = _ ∧ (b.ensure.1.current = _ ∨ _)
    rw [ensure]
    cases hc : b.current with
    | none => exact Or.inl ⟨rfl, rfl, rfl, rfl⟩
    | some n =>
      refine Or.inr ⟨rfl, ?_⟩
      dsimp only
      split
      · exact ⟨rfl, Or.inl hc⟩
      · exact ⟨length_update .., Or.inl hc⟩
  | sends k e =>
    refine Or.inr ⟨rfl, ?_⟩
    show (b.send k e).views.length = _ ∧ ((b.send k e).current = _ ∨ _)
    rw [send]
    split
    · exact ⟨length_update .., Or.inl rfl⟩
    · exact ⟨rfl, Or.inl rfl⟩
  | closes k => exact Or.inr ⟨rfl, length_update .., Or.inl rfl⟩
  | takes k =>
    refine Or.inr ⟨rfl, ?_⟩
    obtain ⟨heq, -⟩ | ⟨f, heq, -⟩ := step_takes (b := b) k
    · rw [heq]
      exact ⟨rfl, Or.inl rfl⟩
    · rw [heq]
      exact ⟨length_update .., Or.inl rfl⟩
  | releases k =>
    refine Or.inr ⟨rfl, ?_⟩
    show (b.release k).views.length = _ ∧ ((b.release k).current = _ ∨ _ ∧ (b.release k).current = _)
    rw [length_release, current_release]
    split
    · exact ⟨rfl, Or.inr ⟨Or.inr ⟨k, rfl, ‹_›⟩, rfl⟩⟩
    · exact ⟨rfl, Or.inl rfl⟩
  | shutsDown =>
    refine Or.inr ⟨rfl, ?_⟩
    show b.shutdown.views.length = _ ∧ (b.shutdown.current = _ ∨ _ ∧ b.shutdown.current = _)
    rw [shutdown]
    split
    · exact ⟨length_update .., Or.inr ⟨Or.inl rfl, rfl⟩⟩
    · exact ⟨rfl, Or.inl rfl⟩
  | setsVisible k visible => exact Or.inr ⟨rfl, length_update .., Or.inl rfl⟩

/-- The end of the session leaves no panel current. -/
theorem current_shutdown (b : Bridge) : b.shutdown.current = none := by
  rw [shutdown]
  split
  · rfl
  · assumption

theorem length_le_step (b : Bridge) (m : Move) : b.views.length ≤ (b.step m).views.length := by
  obtain ⟨-, -, -, hviews⟩ | ⟨-, hlen, -⟩ := current_step b m
  · rw [hviews, List.length_append]
    exact Nat.le_add_right ..
  · exact Nat.le_of_eq hlen.symm

/-- No move changes what a new panel will show. -/
theorem documents_step (b : Bridge) (m : Move) : (b.step m).title = b.title ∧ (b.step m).html = b.html := by
  cases m with
  | ensures =>
    show b.ensure.1.title = _ ∧ b.ensure.1.html = _
    rw [ensure]
    split
    · split <;> exact ⟨rfl, rfl⟩
    · exact ⟨rfl, rfl⟩
  | sends k e =>
    show (b.send k e).title = _ ∧ (b.send k e).html = _
    rw [send]
    split <;> exact ⟨rfl, rfl⟩
  | closes | setsVisible => exact ⟨rfl, rfl⟩
  | takes k =>
    obtain ⟨heq, -⟩ | ⟨f, heq, -⟩ := step_takes (b := b) k <;> rw [heq] <;> exact ⟨rfl, rfl⟩
  | releases k =>
    show (b.release k).title = _ ∧ (b.release k).html = _
    rw [release_eq]
    split <;> exact ⟨rfl, rfl⟩
  | shutsDown =>
    show b.shutdown.title = _ ∧ b.shutdown.html = _
    rw [shutdown]
    split <;> exact ⟨rfl, rfl⟩

/-! ## 3. Showing output -/

/-- A new panel, where none is current. -/
theorem ensure_of_none (hc : b.current = none) :
    b.ensure.2 = (b.views.length,
      [.createPanel b.views.length b.title b.html, .reveal b.views.length]) ∧
    b.ensure.1.current = some b.views.length := by
  rw [ensure, hc]
  exact ⟨rfl, rfl⟩

/-- The panel that is current. -/
theorem ensure_of_some {n : Nat} {v : View} (hc : b.current = some n) (hv : b.views[n]? = some v) :
    b.ensure.2 = (n, if v.visible then [] else [.reveal n]) ∧ b.ensure.1.current = some n := by
  rw [ensure, hc]
  dsimp only
  rw [hv, Option.map_some, Option.getD_some]
  cases v.visible with
  | true => exact ⟨rfl, hc⟩
  | false => exact ⟨rfl, hc⟩

end Bridge

end EditorBridge.Panel
