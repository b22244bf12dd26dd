import EditorBridge.Proofs.Panel.Lifecycle
import EditorBridge.Proofs.Session.Dispatch

/-!
# Where output goes

Outputs are shown one after another, and in between anybody moves: the user hides, shows and closes panels,
relays take their turns, somebody else asks for a panel.

* `Showing.exists_turns` -- a move that comes between finding the panel for an output and posting to it might
  as well come right after the output;
* `Timely` -- what is posted goes to the panel created last;
* `posts_turn`, `timely_turn` -- one turn: an output is posted once, as it came, to the current panel, and
  nothing else posts anything;
* `floor_le_posts`, `posts_sorted` -- posts do not go back to an older panel;
* `flatMap_of_sorted` -- a sequence with ordered keys is its parts by key, one after another.

**`outputs_conserved`** -- so what all panels have been posted, panel by panel, is what has been shown.
-/

namespace EditorBridge

open Panel (Bridge Move)

/-! ## 1. Posts and panels among effects -/

namespace Effect

/-- The panel that an effect creates. -/
def created? : Effect → Option Nat
  | .createPanel n _ _ => some n
  | _ => none

/-- What an effect posts, and to which panel. -/
def posted? : Effect → Option (Nat × Json)
  | .post n j => some (n, j)
  | _ => none

/-- Each post goes to the panel created last, where `prior` have been created before. -/
def Timely (prior : List Nat) : List Effect → Prop
  | [] => True
  | e :: es => (∀ n j, e = .post n j → prior.getLast? = some n) ∧ Timely (prior ++ e.created?.toList) es

theorem timely_append {prior : List Nat} (es fs : List Effect) :
    Timely prior (es ++ fs) ↔ Timely prior es ∧ Timely (prior ++ es.filterMap created?) fs := by
  induction es generalizing prior with
  | nil => rw [List.nil_append, List.filterMap_nil, List.append_nil, Timely, true_and]
  | cons e es ih =>
    have hcreated : e.created?.toList ++ es.filterMap created? = (e :: es).filterMap created? := by
      cases h : e.created? with
      | none => rw [List.filterMap_cons_none h, Option.toList_none, List.nil_append]
      | some n => rw [List.filterMap_cons_some h, Option.toList_some, List.singleton_append]
    rw [List.cons_append, Timely, ih, Timely, List.append_assoc, hcreated, and_assoc]

/-- Effects that post nothing are timely. -/
theorem timely_of_posts_nil {es : List Effect} (h : es.filterMap posted? = []) (prior : List Nat) :
    Timely prior es := by
  induction es generalizing prior with
  | nil => trivial
  | cons e es ih =>
    rw [List.filterMap_eq_nil_iff] at h
    refine ⟨fun n j he => ?_, ih (List.filterMap_eq_nil_iff.mpr fun x hx =>
      h x (List.mem_cons_of_mem _ hx)) _⟩
    have hnone := h e List.mem_cons_self
    rw [he] at hnone
    cases hnone

/-- What has been created when something is posted. -/
theorem Timely.getLast? {prior : List Nat} {before after : List Effect} {n : Nat} {j : Json}
    (h : Timely prior (before ++ .post n j :: after)) :
    (prior ++ before.filterMap created?).getLast? = some n :=
  ((timely_append before _).mp h).2.1 n j rfl

/-- What is posted to is created at some time. -/
theorem Timely.mem_created {es : List Effect} (h : Timely [] es) {p : Nat × Json}
    (hp : p ∈ es.filterMap posted?) : p.1 ∈ es.filterMap created? := by
  obtain ⟨e, he, hpost⟩ := List.mem_filterMap.mp hp
  obtain ⟨before, after, rfl⟩ := List.append_of_mem he
  cases e with
  | post n j =>
    cases hpost
    rw [List.filterMap_append]
    exact List.mem_append_left _ (List.mem_of_getLast? h.getLast?)
  | _ => cases hpost

end Effect

/-! ## 2. One turn -/

namespace Panel.Bridge

variable {b : Bridge}

/-- The effects of a move. -/
def effects (b : Bridge) : Move → List Effect
  | .ensures => b.ensure.2.2
  | _ => []

/-- What a move makes the host create. -/
theorem created_effects (b : Bridge) (m : Move) :
    (b.effects m).filterMap Effect.created? = (b.created? m).toList := by
  cases m with
  | ensures =>
    rw [created?_ensures, effects, ensure]
    cases b.current with
    | none => rfl
    | some n =>
      dsimp only
      split <;> rfl
  | _ => rfl

/-- A move posts nothing. -/
theorem posts_effects (b : Bridge) (m : Move) : (b.effects m).filterMap Effect.posted? = [] := by
  cases m with
  | ensures =>
    rw [effects, ensure]
    cases b.current with
    | none => rfl
    | some n =>
      dsimp only
      split <;> rfl
  | _ => rfl

/-- The oldest panel that output can still go to. -/
def floor (b : Bridge) : Nat := b.current.getD b.views.length

theorem ensured_eq_floor (b : Bridge) : b.ensure.2.1 = b.floor := by
  rw [ensure, floor]
  cases b.current with
  | none => rfl
  | some n =>
    dsimp only
    split <;> rfl

theorem floor_le_step (h : b.Sound) (m : Move) : b.floor ≤ (b.step m).floor := by
  have hle : b.floor ≤ b.views.length := by
    rw [floor]
    cases hc : b.current with
    | none => exact Nat.le_refl _
    | some n => exact Nat.le_of_lt (h.latest n hc ▸ Nat.lt_succ_self n)
  obtain ⟨-, hnone, hnew, -⟩ | ⟨-, hlen, hsame | ⟨-, hnone⟩⟩ := current_step b m
  · rw [floor, floor, hnone, hnew]
    exact Nat.le_refl _
  · rw [floor, floor, hsame, hlen]
  · rw [floor.eq_def (b.step m), hnone, Option.getD_none, hlen]
    exact hle

/-- The panel that is current after `ensure` is the one created last. -/
theorem getLast?_range_ensure (h : b.Sound) :
    (List.range b.ensure.1.views.length).getLast? = some b.ensure.2.1 := by
  have hlen : b.ensure.2.1 + 1 = b.ensure.1.views.length :=
    (sound_step h .ensures).latest _ b.current_ensure
  rw [← hlen, List.getLast?_range]
  rfl

end Panel.Bridge

namespace Context

/-- What happens while outputs are shown. -/
inductive Turn where
  | shows (env : Surroundings) (output : Json)
  | moves (m : Move)

/-- What a turn is to the panels. -/
def Turn.move : Turn → Move
  | shows _ _ => .ensures
  | moves m => m

/-- Whether somebody wants a panel to be current. -/
def Turn.wantsPanel : Turn → Bool
  | shows _ _ => true
  | moves .ensures => true
  | moves _ => false

/-- The output that is shown. -/
def Turn.output? : Turn → Option Json
  | shows _ output => some output
  | moves _ => none

/-- One turn: the context after it, and its effects. The move `ensures` is `ensurePanel`. -/
def turn (c : Context) : Turn → Context × List Effect
  | .shows env output => c.showOutput env output
  | .moves m => ({ c with panel := c.panel.step m }, c.panel.effects m)

/-- The context after some turns. -/
def turns (c : Context) (ts : List Turn) : Context := ts.foldl (fun c t => (c.turn t).1) c

/-- The effects of some turns. -/
def told (c : Context) : List Turn → List Effect
  | [] => []
  | t :: ts => (c.turn t).2 ++ (c.turn t).1.told ts

variable {c : Context}

theorem panel_turn (c : Context) (t : Turn) : (c.turn t).1.panel = c.panel.step t.move := by
  cases t with
  | shows env output => rfl
  | moves m => rfl

/-- **An output is posted once and as it came, to the panel that is then current.** Nothing else posts
    anything. -/
theorem posts_turn (c : Context) (t : Turn) :
    (c.turn t).2.filterMap Effect.posted? = t.output?.toList.map fun j => (c.panel.floor, j) := by
  cases t with
  | shows env output =>
    have hposts := c.panel.posts_effects .ensures
    rw [Panel.Bridge.effects] at hposts
    rw [turn, showOutput_eq, postOutput]
    simp only [List.filterMap_append, hposts, c.panel.ensured_eq_floor, List.nil_append]
    split <;> rfl
  | moves m => exact c.panel.posts_effects m

theorem created_turn (c : Context) (t : Turn) :
    (c.turn t).2.filterMap Effect.created? = (c.panel.created? t.move).toList := by
  cases t with
  | shows env output =>
    have hcreated := c.panel.created_effects .ensures
    rw [Panel.Bridge.effects] at hcreated
    rw [turn, showOutput_eq, postOutput, Turn.move, ← hcreated]
    simp only [List.filterMap_append]
    split <;> exact List.append_nil _
  | moves m => exact c.panel.created_effects m

/-- A panel is created by who wants one while none is current. -/
theorem created?_move (c : Context) (t : Turn) :
    c.panel.created? t.move =
      if t.wantsPanel ∧ c.panel.current = none then some c.panel.views.length else none := by
  have hensures : c.panel.created? .ensures =
      if true = true ∧ c.panel.current = none then some c.panel.views.length else none := by
    rw [Panel.Bridge.created?_ensures]
    simp only [true_and]
  cases t with
  | shows env output => exact hensures
  | moves m =>
    cases m with
    | ensures => exact hensures
    | _ => rfl

/-- Who wants a panel has one. -/
theorem current_turn (t : Turn) (h : t.wantsPanel) : (c.turn t).1.panel.current = some c.panel.floor := by
  have hmove : t.move = .ensures := by
    cases t with
    | shows env output => rfl
    | moves m =>
      cases m with
      | ensures => rfl
      | _ => cases h
  rw [panel_turn, hmove, ← Panel.Bridge.ensured_eq_floor]
  exact c.panel.current_ensure

/-- The panels that there are after a turn are those that there were and the one created. -/
theorem range_turn (c : Context) (t : Turn) :
    List.range c.panel.views.length ++ (c.turn t).2.filterMap Effect.created? =
      List.range (c.turn t).1.panel.views.length := by
  have h := Panel.Bridge.created_run c.panel [t.move]
  rw [Panel.Bridge.created, Panel.Bridge.created, List.append_nil] at h
  rw [created_turn, panel_turn]
  exact h

/-- What is posted in a turn goes to the panel created last. -/
theorem timely_turn (h : c.panel.Sound) (t : Turn) :
    Effect.Timely (List.range c.panel.views.length) (c.turn t).2 := by
  cases t with
  | shows env output =>
    have hcreated := range_turn c (.moves .ensures)
    rw [turn, showOutput_eq, postOutput, Effect.timely_append]
    refine ⟨Effect.timely_of_posts_nil (c.panel.posts_effects .ensures) _, fun n j hpost => ?_,
      Effect.timely_of_posts_nil ?_ _⟩
    · cases hpost
      exact (congrArg List.getLast? hcreated).trans (Panel.Bridge.getLast?_range_ensure h)
    · split <;> rfl
  | moves m => exact Effect.timely_of_posts_nil (c.panel.posts_effects m) _

/-! ## 3. Finding and posting as two steps -/

/-- What happens while outputs are shown, step by step. -/
inductive Phase where
  /-- A panel is made current for an output. -/
  | finds (output : Json)
  /-- The output is posted to the panel that was found for it. -/
  | posts (env : Surroundings)
  | moves (m : Move)

/-- The output for which a panel is found. -/
def Phase.output? : Phase → Option Json
  | finds output => some output
  | _ => none

/-- A context in which an output may be on its way. -/
structure Showing where
  context : Context
  /-- The output that is to be posted next, with the panel found for it. -/
  found : Option (Nat × Json)

namespace Showing

/-- One step: what it leaves, and its effects. -/
def step? (s : Showing) : Phase → Option (Showing × List Effect)
  | .finds output =>
    match s.found with
    | none =>
      let (c, n, effects) := s.context.ensurePanel
      some (⟨c, some (n, output)⟩, effects)
    | some _ => none
  | .posts env => s.found.map fun (n, output) => (⟨s.context, none⟩, postOutput env n output)
  | .moves m =>
    match s.found, m with
    -- nobody asks for a panel but who shows an output, one after another
    | some _, .ensures => none
    | found, m => some (⟨(s.context.turn (.moves m)).1, found⟩, (s.context.turn (.moves m)).2)

/-- Some steps. -/
def run? (s : Showing) : List Phase → Option (Showing × List Effect)
  | [] => some (s, [])
  | p :: ps => (s.step? p).bind fun (s, es) => (s.run? ps).map fun (s', es') => (s', es ++ es')

/-- From a context in which an output may be on its way: the post comes first among the effects of the rest. -/
theorem exists_turns_of_run {s : Showing} {ps : List Phase} {c : Context} {es : List Effect}
    (h : s.run? ps = some (⟨c, none⟩, es)) :
    ∃ ts, c = s.context.turns ts ∧ ts.filterMap Turn.output? = ps.filterMap Phase.output? ∧
      match s.found with
      | none => es = s.context.told ts
      | some (n, output) => ∃ env, es = postOutput env n output ++ s.context.told ts := by
  induction ps generalizing s es with
  | nil =>
    cases h
    exact ⟨[], rfl, rfl, rfl⟩
  | cons p ps ih =>
    obtain ⟨⟨s', es₁⟩, hstep, h⟩ := Option.bind_eq_some_iff.mp h
    obtain ⟨⟨last, es₂⟩, hrest, hes⟩ := Option.map_eq_some_iff.mp h
    cases hes
    obtain ⟨ts, rfl, houtputs, hfound⟩ := ih hrest
    obtain ⟨k, found⟩ := s
    cases p with
    | finds output =>
      cases found with
      | some f => cases hstep
      | none =>
        cases hstep
        obtain ⟨env, rfl⟩ := hfound
        refine ⟨.shows env output :: ts, rfl, congrArg (output :: ·) houtputs, ?_⟩
        exact (List.append_assoc ..).symm
    | posts env =>
      cases found with
      | none => cases hstep
      | some f =>
        cases hstep
        exact ⟨ts, rfl, houtputs, env, congrArg (_ ++ ·) hfound⟩
    | moves m =>
      cases found with
      | none =>
        cases hstep
        exact ⟨.moves m :: ts, rfl, houtputs, congrArg (_ ++ ·) hfound⟩
      | some f =>
        cases m with
        | ensures => cases hstep
        | _ =>
          -- the move has no effects, and comes first after the post
          cases hstep
          obtain ⟨env, rfl⟩ := hfound
          exact ⟨.moves _ :: ts, rfl, houtputs, env, rfl⟩

/-- **A move between finding the panel for an output and posting to it might as well come right after the
    output**: step by step there is nothing that whole turns do not do, with the same effects. -/
theorem exists_turns {c c' : Context} {ps : List Phase} {es : List Effect}
    (h : (⟨c, none⟩ : Showing).run? ps = some (⟨c', none⟩, es)) :
    ∃ ts, c' = c.turns ts ∧ es = c.told ts ∧ ts.filterMap Turn.output? = ps.filterMap Phase.output? := by
  obtain ⟨ts, hturns, houtputs, htold⟩ := exists_turns_of_run h
  exact ⟨ts, hturns, htold, houtputs⟩

end Showing

/-! ## 4. Every run -/

theorem sound_turn (h : c.panel.Sound) (t : Turn) : (c.turn t).1.panel.Sound :=
  panel_turn c t ▸ Panel.Bridge.sound_step h t.move

theorem timely_told (h : c.panel.Sound) (ts : List Turn) :
    Effect.Timely (List.range c.panel.views.length) (c.told ts) := by
  induction ts generalizing c with
  | nil => trivial
  | cons t ts ih =>
    rw [told, Effect.timely_append, range_turn]
    exact ⟨timely_turn h t, ih (sound_turn h t)⟩

theorem created_told (c : Context) (ts : List Turn) :
    List.range c.panel.views.length ++ (c.told ts).filterMap Effect.created? =
      List.range (c.turns ts).panel.views.length := by
  induction ts generalizing c with
  | nil => exact List.append_nil _
  | cons t ts ih =>
    rw [told, List.filterMap_append, ← List.append_assoc, range_turn]
    exact ih (c.turn t).1

/-- What is posted are the outputs, in their order. -/
theorem outputs_told (c : Context) (ts : List Turn) :
    ((c.told ts).filterMap Effect.posted?).map Prod.snd = ts.filterMap Turn.output? := by
  induction ts generalizing c with
  | nil => rfl
  | cons t ts ih =>
    rw [told, List.filterMap_append, List.map_append, ih, posts_turn]
    cases t with
    | shows env output => rfl
    | moves m => rfl

/-- No output goes to a panel older than the one that is current now. -/
theorem floor_le_posts (h : c.panel.Sound) (ts : List Turn) :
    ∀ p ∈ (c.told ts).filterMap Effect.posted?, c.panel.floor ≤ p.1 := by
  induction ts generalizing c with
  | nil => exact fun p hp => absurd hp List.not_mem_nil
  | cons t ts ih =>
    intro p hp
    rw [told, List.filterMap_append, List.mem_append, posts_turn] at hp
    rcases hp with hp | hp
    · obtain ⟨j, -, rfl⟩ := List.mem_map.mp hp
      exact Nat.le_refl _
    · have hle := Panel.Bridge.floor_le_step h t.move
      rw [← panel_turn] at hle
      exact Nat.le_trans hle (ih (sound_turn h t) p hp)

theorem posts_sorted (h : c.panel.Sound) (ts : List Turn) :
    (((c.told ts).filterMap Effect.posted?).map Prod.fst).Pairwise (· ≤ ·) := by
  induction ts generalizing c with
  | nil => exact List.Pairwise.nil
  | cons t ts ih =>
    have hle := Panel.Bridge.floor_le_step h t.move
    rw [← panel_turn] at hle
    have hlater : ∀ p ∈ ((c.turn t).1.told ts).filterMap Effect.posted?, c.panel.floor ≤ p.1 :=
      fun p hp => Nat.le_trans hle (floor_le_posts (sound_turn h t) ts p hp)
    rw [told, List.filterMap_append, List.map_append, posts_turn, List.pairwise_append]
    refine ⟨?_, ih (sound_turn h t), ?_⟩
    · cases t with
      | shows env output => exact List.pairwise_singleton _ _
      | moves m => exact List.Pairwise.nil
    · intro k hk n hn
      obtain ⟨p, hp, rfl⟩ := List.mem_map.mp hn
      obtain ⟨q, hq, rfl⟩ := List.mem_map.mp hk
      obtain ⟨j, -, rfl⟩ := List.mem_map.mp hq
      exact hlater p hp

end Context

/-! ## 5. Panel by panel -/

theorem Panel.flatMap_of_sorted {α : Type} {keys : List Nat} {ps : List (Nat × α)}
    (hkeys : keys.Pairwise (· < ·)) (hps : (ps.map Prod.fst).Pairwise (· ≤ ·))
    (hmem : ∀ p ∈ ps, p.1 ∈ keys) :
    keys.flatMap (fun n => ps.filter fun p => p.1 == n) = ps := by
  induction ps with
  | nil => exact List.flatMap_eq_nil_iff.mpr fun _ _ => rfl
  | cons p ps ih =>
    rw [List.map_cons, List.pairwise_cons] at hps
    have hrest := ih hps.2 fun q hq => hmem q (List.mem_cons_of_mem _ hq)
    -- the first pair belongs to its key, no earlier key has any, and a later one does not see it
    obtain ⟨before, after, rfl⟩ := List.append_of_mem (hmem p List.mem_cons_self)
    obtain ⟨-, hkeys', hbefore⟩ := List.pairwise_append.mp hkeys
    have hafter := (List.pairwise_cons.mp hkeys').1
    have hnone : ∀ n ∈ before, (p :: ps).filter (fun q => q.1 == n) = [] := by
      intro n hn
      have hlt := hbefore n hn p.1 List.mem_cons_self
      refine List.filter_eq_nil_iff.mpr fun q hq heq => ?_
      rcases List.mem_cons.mp hq with rfl | hq
      · exact absurd (beq_iff_eq.mp heq) (Nat.ne_of_gt hlt)
      · have hle := hps.1 q.1 (List.mem_map_of_mem hq)
        exact absurd (beq_iff_eq.mp heq) (Nat.ne_of_gt (Nat.lt_of_lt_of_le hlt hle))
    have hnone' : ∀ n ∈ before, ps.filter (fun q => q.1 == n) = [] := fun n hn =>
      List.filter_eq_nil_iff.mpr fun q hq =>
        List.filter_eq_nil_iff.mp (hnone n hn) q (List.mem_cons_of_mem _ hq)
    have hlater : after.flatMap (fun n => (p :: ps).filter fun q => q.1 == n) =
        after.flatMap fun n => ps.filter fun q => q.1 == n :=
      List.flatMap_congr fun n hn =>
        List.filter_cons_of_neg fun heq => Nat.ne_of_lt (hafter n hn) (beq_iff_eq.mp heq)
    have hfirst : (p :: ps).filter (fun q => q.1 == p.1) = p :: ps.filter fun q => q.1 == p.1 :=
      List.filter_cons_of_pos (beq_self_eq_true p.1)
    rw [List.flatMap_append, List.flatMap_eq_nil_iff.mpr hnone', List.flatMap_cons] at hrest
    rw [List.flatMap_append, List.flatMap_eq_nil_iff.mpr hnone, List.flatMap_cons, hlater, hfirst,
      List.nil_append, List.cons_append]
    exact congrArg (p :: ·) hrest

namespace Context

/-- What panel `n` is posted. -/
def postedTo (n : Nat) (es : List Effect) : List Json :=
  ((es.filterMap Effect.posted?).filter fun p => p.1 == n).map Prod.snd

/-- **Output is neither lost nor doubled, reordered or altered.** After any turns:
    an output is posted exactly once and as it came, to the panel that is then current, which is the one
    that was current before if there was one, and no other turn posts anything;
    a panel gets a post only after it has been created, and before another one has been;
    what all panels have been posted, in the order of their creation, is what has been shown, in that order;
    a panel is created exactly by an output, or by whoever else wants a panel, that finds none current. -/
theorem outputs_conserved (settings : Settings) (title html : String) (ts : List Turn) :
    let c := (start settings title html).turns ts
    let es := (start settings title html).told ts
    (∀ t, ∃ n, (c.turn t).2.filterMap Effect.posted? = t.output?.toList.map (fun j => (n, j)) ∧
      (t.wantsPanel → (c.turn t).1.panel.current = some n) ∧ ∀ k, c.panel.current = some k → k = n) ∧
    (∀ before n j after, es = before ++ .post n j :: after →
      (before.filterMap Effect.created?).getLast? = some n) ∧
    (es.filterMap Effect.created?).Pairwise (· < ·) ∧
    (es.filterMap Effect.created?).flatMap (fun n => postedTo n es) = ts.filterMap Turn.output? ∧
    ∀ t, (c.turn t).2.filterMap Effect.created? =
      (if t.wantsPanel ∧ c.panel.current = none then some c.panel.views.length else none).toList := by
  intro c es
  have hstart : (start settings title html).panel.Sound := Panel.Bridge.sound_empty title html
  have hcreated : es.filterMap Effect.created? = List.range c.panel.views.length :=
    created_told (start settings title html) ts
  have htimely : Effect.Timely [] es := timely_told hstart ts
  have hordered : (es.filterMap Effect.created?).Pairwise (· < ·) := by
    rw [hcreated]
    exact List.pairwise_lt_range
  refine ⟨fun t => ⟨c.panel.floor, posts_turn c t, current_turn t, fun k hk => ?_⟩,
    fun before n j after hes => (hes ▸ htimely : Effect.Timely [] _).getLast?, hordered, ?_, fun t => ?_⟩
  · rw [Panel.Bridge.floor, hk, Option.getD_some]
  · have hparts := Panel.flatMap_of_sorted hordered (posts_sorted hstart ts) fun p hp => htimely.mem_created hp
    rw [← outputs_told (start settings title html) ts, ← hparts, List.map_flatMap]
    rfl
  · rw [created_turn, created?_move]

end Context

end EditorBridge
