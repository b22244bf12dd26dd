import Mathlib.Data.Prod.Lex
import Mathlib.Order.Interval.Set.Defs
import EditorBridge.Proofs.Session.Commands
import EditorBridge.Proofs.Session.Lenses

/-!
# The command under the cursor

Places are ordered by line, then by character (`Position.key`), and a range holds what lies between its ends
in that order, so that an inverted range holds nothing. A lens fits a place of a document if its range holds
the place and its command names the document first (`CodeLens.Fits`).

* `contains_iff`, `targets_iff` -- the two tests of the lookup, in these words;
* **`findAt?_cases`** -- the lookup finds the first lens that fits, with its command, or there is none;
* `findAt?_congr` -- it depends on the place only through the lenses that fit it.

**`under_cursor`** -- the command under the cursor, after any run of a session.
-/

namespace EditorBridge

/-! ## 1. Which lenses fit -/

/-- The rank of a place: its line, then its character. -/
def Position.key (p : Position) : ℕ ×ₗ ℕ := toLex (p.line.toNat, p.character.toNat)

theorem Position.le_iff (p q : Position) : p.le q = true ↔ p.key ≤ q.key := by
  simp only [le, key, Prod.Lex.toLex_le_toLex, Bool.or_eq_true, Bool.and_eq_true, decide_eq_true_eq,
    beq_iff_eq, UInt32.lt_iff_toNat_lt, UInt32.le_iff_toNat_le, UInt32.toNat_inj]

/-- A range holds the places from its start to its end. -/
theorem Range.contains_iff (r : Range) (p : Position) :
    r.contains p = true ↔ p.key ∈ Set.Icc r.start.key r.stop.key := by
  rw [contains, Bool.and_eq_true, Position.le_iff, Position.le_iff, Set.mem_Icc]

namespace CodeLens

/-- The lens has a command whose first argument is the text of the document's URL. -/
def Names (l : CodeLens) (uri : Url) : Prop :=
  ∃ command rest, l.command = some command ∧ command.arguments = some (.str uri.text :: rest)

/-- The lens is about a place of a document. -/
def Fits (l : CodeLens) (uri : Url) (p : Position) : Prop :=
  p.key ∈ Set.Icc l.range.start.key l.range.stop.key ∧ l.Names uri

theorem targets_iff (l : CodeLens) (uri : Url) : l.targets uri = true ↔ l.Names uri := by
  rw [targets]
  constructor
  · intro h
    split at h
    · rename_i text rest harguments
      obtain ⟨command, hcommand, harguments⟩ := Option.bind_eq_some_iff.mp harguments
      rw [beq_iff_eq.mp h] at harguments
      exact ⟨command, rest, hcommand, harguments⟩
    · cases h
  · rintro ⟨command, rest, hcommand, harguments⟩
    rw [hcommand, Option.bind_some, harguments]
    exact beq_self_eq_true uri.text

theorem fits_iff (l : CodeLens) (uri : Url) (p : Position) :
    (l.range.contains p && l.targets uri) = true ↔ l.Fits uri p := by
  rw [Bool.and_eq_true, Range.contains_iff, targets_iff, Fits]

end CodeLens

/-! ## 2. The lookup -/

namespace LensCache

/-- **The lookup finds the first lens that fits**, and that has a command. -/
theorem findAt?_cases (c : LensCache) (uri : Url) (p : Position) :
    (∃ before l after command, c.get uri = before ++ l :: after ∧ l.Fits uri p ∧
      (∀ x ∈ before, ¬ x.Fits uri p) ∧ l.command = some command ∧ c.findAt? uri p = some l) ∨
    (∀ l ∈ c.get uri, ¬ l.Fits uri p) ∧ c.findAt? uri p = none := by
  cases h : c.findAt? uri p with
  | none =>
    refine Or.inr ⟨fun l hl hfits => ?_, rfl⟩
    exact List.find?_eq_none.mp h l hl ((l.fits_iff uri p).mpr hfits)
  | some l =>
    obtain ⟨hl, before, after, hsplit, hbefore⟩ := List.find?_eq_some_iff_append.mp h
    have hfits : l.Fits uri p := (l.fits_iff uri p).mp hl
    obtain ⟨command, rest, hcommand, -⟩ := hfits.2
    refine Or.inl ⟨before, l, after, command, hsplit, hfits, fun x hx hx' => ?_, hcommand, rfl⟩
    have hno := hbefore x hx
    rw [(x.fits_iff uri p).mpr hx'] at hno
    cases hno

/-- **The lookup depends on the place only through the lenses that fit it.** -/
theorem findAt?_congr (c : LensCache) {uri : Url} {p q : Position}
    (h : ∀ l ∈ c.get uri, (l.Fits uri p ↔ l.Fits uri q)) : c.findAt? uri p = c.findAt? uri q := by
  have hsame : ∀ l ∈ c.get uri,
      (l.range.contains p && l.targets uri) = (l.range.contains q && l.targets uri) := fun l hl =>
    Bool.eq_iff_iff.mpr (((l.fits_iff uri p).trans (h l hl)).trans (l.fits_iff uri q).symm)
  rw [findAt?, findAt?, ← List.head?_filter, ← List.head?_filter, List.filter_congr hsame]

end LensCache

/-! ## 3. The command -/

namespace Session

variable {s : Session} {env : Surroundings} {e : ActiveEditor}

/-- On a saved document in the language of the session, the command is the lookup; it changes nothing in the
    session. -/
theorem execute_underCursor (hopen : env.active = some e) (hsaved : e.document.isUntitled = false)
    (hlanguage : e.document.languageId = s.context.settings.languageId) (arguments : List Json) :
    s.execute env "alloy.executeCommandUnderCursor" arguments =
      (s, .ok (s.context.runUnderCursor e)) := by
  have hactive : s.context.supportedEditor (s.surroundings env) = some e :=
    Context.supportedEditor_eq_some_iff.mpr ⟨hopen, hsaved, hlanguage⟩
  have hrun : s.context.run (s.surroundings env) "alloy.executeCommandUnderCursor" arguments =
      .ok (s.context.runUnderCursor e) := by
    refine (Context.run_name .executeUnderCursor).trans ?_
    rw [Context.runCommand, hactive]
  rw [execute_of_ok hrun, Context.runUnderCursor]
  -- neither a command handed over nor a warning is told to the server
  cases (s.context.lenses.findAt? e.document.uri e.cursor).bind (·.command) <;> rfl

/-- **The command under the cursor.** Take any session and any run of it, in which replies with any lenses may
    come, and any editor with a saved document in the language of the session in front.

    The lenses of the document are those in the last reply that brought some for it. If one of them fits the
    cursor, the editor is handed the command of the first one that does, as it is, and that is all that
    happens; else the user is warned once, and that is all. The session stays as it is, so that the server is
    told nothing.

    So a command that is handed over names the document in its first argument. And the cursor matters only
    through the lenses that fit it: at another place that the same lenses fit, the same happens. -/
theorem under_cursor (s : Session) (es : List Event) {env : Surroundings} {e : ActiveEditor}
    (hopen : env.active = some e) (hsaved : e.document.isUntitled = false)
    (hlanguage : e.document.languageId = (s.run es).context.settings.languageId) (arguments : List Json) :
    let t := s.run es
    let uri := e.document.uri
    let lenses := (((s.lensAnswers es).filterMap (·.listFor? uri)).getLast?).getD (s.context.lenses.get uri)
    let r := t.execute env "alloy.executeCommandUnderCursor" arguments
    ((∃ before l after command, lenses = before ++ l :: after ∧ l.Fits uri e.cursor ∧
        (∀ x ∈ before, ¬ x.Fits uri e.cursor) ∧ l.command = some command ∧
        r = (t, .ok [.execute command])) ∨
      (∀ l ∈ lenses, ¬ l.Fits uri e.cursor) ∧
        r = (t, .ok [.warning "No Alloy command found under the cursor"])) ∧
    (∀ effects command, r.2 = .ok effects → .execute command ∈ effects →
      ∃ rest, command.arguments = some (.str uri.text :: rest)) ∧
    ∀ env' p arguments', env'.active = some { e with cursor := p } →
      (∀ l ∈ lenses, (l.Fits uri p ↔ l.Fits uri e.cursor)) →
      t.execute env' "alloy.executeCommandUnderCursor" arguments' = r := by
  intro t uri lenses r
  have hlenses : t.context.lenses.get uri = lenses := get_run s es uri
  have hr := execute_underCursor hopen hsaved hlanguage arguments
  have houtcome : (∃ before l after command, lenses = before ++ l :: after ∧ l.Fits uri e.cursor ∧
        (∀ x ∈ before, ¬ x.Fits uri e.cursor) ∧ l.command = some command ∧
        r = (t, .ok [.execute command])) ∨
      (∀ l ∈ lenses, ¬ l.Fits uri e.cursor) ∧
        r = (t, .ok [.warning "No Alloy command found under the cursor"]) := by
    have hfound := t.context.lenses.findAt?_cases uri e.cursor
    rw [hlenses] at hfound
    rcases hfound with ⟨before, l, after, command, hsplit, hfits, hbefore, hcommand, hfind⟩ | ⟨hnone, hfind⟩
    · rw [Context.runUnderCursor, hfind, Option.bind_some, hcommand] at hr
      exact Or.inl ⟨before, l, after, command, hsplit, hfits, hbefore, hcommand, hr⟩
    · rw [Context.runUnderCursor, hfind] at hr
      exact Or.inr ⟨hnone, hr⟩
  refine ⟨houtcome, fun effects command hok hmem => ?_, fun env' p arguments' hactive hsame => ?_⟩
  · rcases houtcome with ⟨_, l, _, command', _, ⟨-, named, rest, hnamed, harguments⟩, _, hcommand, hout⟩ |
      ⟨_, hout⟩
    · rw [hout] at hok
      cases hok
      cases List.mem_singleton.mp hmem
      rw [hcommand] at hnamed
      cases hnamed
      exact ⟨rest, harguments⟩
    · rw [hout] at hok
      cases hok
      cases List.mem_singleton.mp hmem
  · have hfind : t.context.lenses.findAt? uri p = t.context.lenses.findAt? uri e.cursor :=
      LensCache.findAt?_congr _ (hlenses.symm ▸ hsame)
    have hthere := execute_underCursor (e := { e with cursor := p }) hactive hsaved hlanguage arguments'
    rw [Context.runUnderCursor] at hr hthere
    dsimp only at hthere
    rw [hthere, hfind]
    exact hr.symm

/-- Four lenses hold the cursor or seem to: one names another document, one is inverted, and of the two that fit
    the first one ends at the cursor. Its command is handed over, there and one character to the left. -/
theorem under_cursor_overlapping :
    let s : Session :=
      { port := 50000, context := .start ⟨"alloy", .codeLens⟩ "Alloy" "", connection := .start, dispatched := 0
        dispatcher := .running, process := .start, capabilities := .null, grace := ⟨3000⟩ }
    let uri : Url := ⟨"file", true, "", none, "", none, "/a.als", none, none⟩
    let lens (name : String) (start stop : Position) : CodeLens :=
      ⟨⟨start, stop⟩, some ⟨"run", "ExecuteAlloyCommand", some [.str name]⟩, none⟩
    let lenses := [lens "file:///b.als" ⟨0, 0⟩ ⟨9, 0⟩, lens uri.text ⟨4, 0⟩ ⟨3, 0⟩, lens uri.text ⟨2, 9⟩ ⟨3, 7⟩,
      lens uri.text ⟨3, 0⟩ ⟨3, 8⟩]
    let reply := Frame.encode (Json.arr [.int 1, .null, .null, .arr (lenses.map CodeLens.toJson)]).printBytes
    let es : List Event := [.asksLenses uri, .stream (.receives reply), .stream .reads, .takesUp 0]
    let env (p : Position) : Surroundings :=
      ⟨some ⟨⟨uri, "alloy", false⟩, p⟩, true, none, fun _ _ => true⟩
    ∃ command rest, command.arguments = some (.str uri.text :: rest) ∧
      (s.run es).execute (env ⟨3, 7⟩) "alloy.executeCommandUnderCursor" [] =
        (s.run es, .ok [.execute command]) ∧
      (s.run es).execute (env ⟨3, 6⟩) "alloy.executeCommandUnderCursor" [] =
        (s.run es, .ok [.execute command]) := by
  intro s uri lens lenses reply es env
  have hcached : (((s.lensAnswers es).filterMap (·.listFor? uri)).getLast?.getD (s.context.lenses.get uri)).map
      (fun l => (l.range.contains ⟨3, 7⟩ && l.targets uri, l.range.contains ⟨3, 6⟩ && l.targets uri)) =
        [(false, false), (false, false), (true, true), (true, true)] := by
    decide +kernel
  have hlanguage : "alloy" = (s.run es).context.settings.languageId := by decide +kernel
  obtain ⟨hout, hnames, hmoves⟩ :=
    @under_cursor s es (env ⟨3, 7⟩) ⟨⟨uri, "alloy", false⟩, ⟨3, 7⟩⟩ rfl rfl hlanguage []
  generalize (((s.lensAnswers es).filterMap (·.listFor? uri)).getLast?).getD (s.context.lenses.get uri) = cached
    at hcached hout hmoves
  have hsame : ∀ l ∈ cached, (l.Fits uri ⟨3, 6⟩ ↔ l.Fits uri ⟨3, 7⟩) := by
    intro l hl
    have hpair := List.mem_map_of_mem (f := fun l : CodeLens =>
      (l.range.contains ⟨3, 7⟩ && l.targets uri, l.range.contains ⟨3, 6⟩ && l.targets uri)) hl
    rw [hcached] at hpair
    simp only [List.mem_cons, Prod.mk.injEq, List.not_mem_nil, or_false] at hpair
    rw [← CodeLens.fits_iff, ← CodeLens.fits_iff]
    rcases hpair with ⟨hp, hq⟩ | ⟨hp, hq⟩ | ⟨hp, hq⟩ | ⟨hp, hq⟩ <;> rw [hp, hq]
  have hsome : ∃ l ∈ cached, l.Fits uri ⟨3, 7⟩ := by
    have hmem : (true, true) ∈ cached.map (fun l =>
        (l.range.contains ⟨3, 7⟩ && l.targets uri, l.range.contains ⟨3, 6⟩ && l.targets uri)) := by
      rw [hcached]
      decide
    obtain ⟨l, hl, hpair⟩ := List.mem_map.mp hmem
    exact ⟨l, hl, (l.fits_iff uri ⟨3, 7⟩).mp (congrArg Prod.fst hpair)⟩
  rcases hout with ⟨_, _, _, command, _, _, _, _, hr⟩ | ⟨hnone, -⟩
  · obtain ⟨rest, hrest⟩ := hnames _ command (congrArg Prod.snd hr) List.mem_cons_self
    exact ⟨command, rest, hrest, hr, (hmoves (env ⟨3, 6⟩) ⟨3, 6⟩ [] rfl hsame).trans hr⟩
  · obtain ⟨l, hl, hfits⟩ := hsome
    exact absurd hfits (hnone l hl)

end Session

end EditorBridge
