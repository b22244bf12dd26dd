import EditorBridge.Config.Basic
import EditorBridge.Proofs.Json.Decode

/-!
# The eight settings

`Key` lists the settings of a configuration, each with its section and name, its type and how a value is
read. They are read off a tree independently of each other.

* `Tree.setting?` -- the value of a setting in a tree;
* `decode` -- a configuration from eight values: `decode_eq_ok_iff`, `decode_eq_error`;
* **`ofTree_eq_decode`** -- the configuration in a tree whose sections are tables.
-/

namespace EditorBridge.Config

/-! ## 1. The eight settings -/

/-- A setting. -/
inductive Key where
  | runtime
  | jar
  | acceptTimeout
  | shutdownGrace
  | languageId
  | highlightMode
  | title
  | html
  deriving DecidableEq, Repr

namespace Key

/-- The section that a setting stands in. -/
def group : Key → String
  | runtime | jar | acceptTimeout | shutdownGrace => "server"
  | languageId | highlightMode => "editor"
  | title | html => "panel"

/-- Its name there. -/
def name : Key → String
  | runtime => "runtime"
  | jar => "jar"
  | acceptTimeout => "accept_timeout_ms"
  | shutdownGrace => "shutdown_grace_ms"
  | languageId => "language_id"
  | highlightMode => "command_highlight_mode"
  | title => "title"
  | html => "html"

/-- What an override calls it. -/
def text (k : Key) : String := k.group ++ "." ++ k.name

/-- Where an override puts its value. -/
def path (k : Key) : Path := ⟨k.group, [.field k.name]⟩

/-- What it is in a configuration. -/
abbrev Value : Key → Type
  | runtime | jar | languageId | title => String
  | acceptTimeout | shutdownGrace => Duration
  | highlightMode => HighlightMode
  | html => Option String

/-- How a value of a layer is decoded. -/
def read : (k : Key) → Tree → Except Mismatch k.Value
  | runtime | jar | languageId | title => readText
  | acceptTimeout | shutdownGrace => readMillis
  | highlightMode => fun t => (readText t).map HighlightMode.ofName
  | html => readOptional

/-- All settings. -/
def all : List Key := [runtime, jar, acceptTimeout, shutdownGrace, languageId, highlightMode, title, html]

theorem mem_all (k : Key) : k ∈ all := by cases k <;> decide

instance {p : Key → Prop} [DecidablePred p] : Decidable (∀ k, p k) :=
  decidable_of_iff (∀ k ∈ all, p k) ⟨fun h k => h k k.mem_all, fun h k _ => h k⟩

theorem parse_text (k : Key) : Path.parse k.text = .ok k.path := by cases k <;> rfl

theorem lowerName_group (k : Key) : Tree.lowerName k.group = k.group := by cases k <;> decide

theorem lowerName_name (k : Key) : Tree.lowerName k.name = k.name := by cases k <;> decide

/-- Two settings of one section have different names. -/
theorem eq_of_group_of_name {j k : Key} (hg : j.group = k.group) (hn : j.name = k.name) : j = k := by
  cases j <;> cases k <;> first | rfl | exact absurd hg (by decide) | exact absurd hn (by decide)

theorem path_injective {j k : Key} (h : j.path = k.path) : j = k := by
  rw [path, path, Path.mk.injEq, List.cons.injEq, Step.field.injEq] at h
  exact eq_of_group_of_name h.1 h.2.1

end Key

/-- A setting in a configuration. -/
def setting (c : Config) : (k : Key) → k.Value
  | .runtime => c.server.runtime
  | .jar => c.server.jar
  | .acceptTimeout => c.server.acceptTimeout
  | .shutdownGrace => c.server.shutdownGrace
  | .languageId => c.editor.languageId
  | .highlightMode => c.editor.highlightMode
  | .title => c.panel.title
  | .html => c.panel.html

/-! ## 2. Settings in a tree -/

namespace Tree

/-- Whether it is a table. -/
def isTable : Tree → Bool
  | table .. => true
  | _ => false

/-- The value of a setting. -/
def setting? (t : Tree) (k : Key) : Option Tree := (t.get? k.group).bind (·.get? k.name)

/-- Every section is a table. -/
def HasGroups (t : Tree) : Prop := ∀ k : Key, ∃ s, t.get? k.group = some s ∧ s.isTable

variable {t v : Tree}

@[simp] theorem entries_withEntries (t : Tree) (es : List (String × Tree)) :
    (t.withEntries es).entries = es := by
  cases t <;> rfl

@[simp] theorem isTable_replace (t : Tree) (k : String) (v : Tree) : (t.replace k v).isTable := by
  cases t <;> rfl

@[simp] theorem get?_replace_self (t : Tree) (k : String) (v : Tree) : (t.replace k v).get? k = some v := by
  simp [get?, replace]

theorem get?_replace_of_ne (t : Tree) {j k : String} (v : Tree) (h : j ≠ k) :
    (t.replace k v).get? j = t.get? j := by
  simp [get?, replace, Entries.get?_put_of_ne _ _ h]

theorem assign_table (t : Tree) (k : String) (f : Option String) (es : List (String × Tree)) :
    t.assign k (table f es) = t.replace k (((t.get? k).getD empty).assignAll es) := by
  rw [assign]

theorem assign_of_not_table (h : v.isTable = false) (t : Tree) (k : String) : t.assign k v = t.replace k v := by
  cases v with
  | table => cases h
  | _ => simp only [assign]

theorem get?_assign_of_ne (t : Tree) {j k : String} (v : Tree) (h : j ≠ k) :
    (t.assign k v).get? j = t.get? j := by
  cases v <;> simp only [assign] <;> exact get?_replace_of_ne t _ h

theorem isTable_assign (t : Tree) (k : String) (v : Tree) : (t.assign k v).isTable := by
  cases v <;> simp only [assign] <;> exact isTable_replace ..

theorem isTable_assignAll (h : t.isTable) (es : List (String × Tree)) : (t.assignAll es).isTable := by
  induction es generalizing t with
  | nil => simpa only [assignAll] using h
  | cons e es ih =>
    rw [assignAll]
    exact ih (isTable_assign t _ _)

end Tree

open EditorBridge.Config.Tree

/-! ## 3. Reading the settings -/

/-- Reads a setting from the value that counts. -/
def Key.readIn (k : Key) (t : Tree) : Except ConfigError k.Value := Section.readAt k.text k.read t

/-- The configuration in eight values. -/
def decode (v : Key → Tree) : Except ConfigError Config := do
  let server : Server := ⟨← Key.runtime.readIn (v .runtime), ← Key.jar.readIn (v .jar),
    ← Key.acceptTimeout.readIn (v .acceptTimeout), ← Key.shutdownGrace.readIn (v .shutdownGrace)⟩
  let editor : Editor :=
    ⟨← Key.languageId.readIn (v .languageId), ← Key.highlightMode.readIn (v .highlightMode)⟩
  let panel : Panel := ⟨← Key.title.readIn (v .title), ← Key.html.readIn (v .html)⟩
  return ⟨server, editor, panel⟩

theorem Key.readIn_eq_ok_iff (k : Key) (t : Tree) (x : k.Value) : k.readIn t = .ok x ↔ k.read t = .ok x := by
  rw [readIn, Section.readAt]
  cases k.read t <;> simp

theorem Key.readIn_eq_error_iff (k : Key) (t : Tree) (e : ConfigError) :
    k.readIn t = .error e ↔ ∃ what, k.read t = .error what ∧ e = .mismatch what k.text t.file := by
  rw [readIn, Section.readAt]
  cases k.read t <;> simp [eq_comm]

theorem decode_eq_ok_iff (v : Key → Tree) (c : Config) :
    decode v = .ok c ↔ ∀ k : Key, k.read (v k) = .ok (c.setting k) := by
  have hread : decode v = .ok c ↔ ∀ k : Key, k.readIn (v k) = .ok (c.setting k) := by
    simp only [decode, bind_eq_ok_iff]
    constructor
    · rintro ⟨_, h₁, _, h₂, _, h₃, _, h₄, _, h₅, _, h₆, _, h₇, _, h₈, hc⟩ k
      cases hc
      cases k <;> assumption
    · intro h
      exact ⟨_, h .runtime, _, h .jar, _, h .acceptTimeout, _, h .shutdownGrace, _, h .languageId, _,
        h .highlightMode, _, h .title, _, h .html, rfl⟩
  rw [hread]
  exact forall_congr' fun k => k.readIn_eq_ok_iff (v k) (c.setting k)

theorem decode_eq_error {v : Key → Tree} {e : ConfigError} (h : decode v = .error e) :
    ∃ k : Key, ∃ what, k.read (v k) = .error what ∧ e = .mismatch what k.text (v k).file := by
  have hmem : ∃ k : Key, k.readIn (v k) = .error e := by
    simp only [decode, bind_eq_error_iff] at h
    rcases h with h | ⟨_, -, h | ⟨_, -, h | ⟨_, -, h | ⟨_, -, h | ⟨_, -, h | ⟨_, -, h | ⟨_, -, h | ⟨_, -, h⟩⟩⟩⟩⟩⟩⟩⟩
    all_goals first | exact ⟨_, h⟩ | cases h
  obtain ⟨k, hk⟩ := hmem
  exact ⟨k, (k.readIn_eq_error_iff _ _).mp hk⟩

theorem sectionOf_bind {t s : Tree} {name : String} (hs : t.get? name = some s) (htable : s.isTable)
    (label : String) (size : Nat) {α : Type} (f : Section → Except ConfigError α) :
    (sectionOf t name label size).bind f = f ⟨name, label, size, s⟩ := by
  rw [sectionOf, hs]
  cases s with
  | table => rfl
  | _ => cases htable

/-- A setting that a section has. -/
theorem setting?_of_table {s v : Tree} (htable : s.isTable) {name : String} (hv : s.get? name = some v)
    (group label : String) (size i : Nat) (hasDefault : Bool) {α : Type} (read : Tree → Except Mismatch α) :
    (Section.mk group label size s).setting? i name hasDefault read =
      (Section.readAt (group ++ "." ++ name) read v).map some := by
  cases s with
  | table => simp only [Section.setting?, hv]
  | _ => cases htable

theorem map_bind {ε α β γ : Type} (x : Except ε α) (g : α → β) (f : β → Except ε γ) :
    (x.map g).bind f = x.bind fun a => f (g a) := by
  cases x <;> rfl

section Sections

variable {t s a b c d : Tree}

theorem Server.ofTree_eq (hs : t.get? "server" = some s) (htable : s.isTable)
    (ha : s.get? "runtime" = some a) (hb : s.get? "jar" = some b) (hc : s.get? "accept_timeout_ms" = some c)
    (hd : s.get? "shutdown_grace_ms" = some d) :
    Server.ofTree t = do
      return ⟨← Key.runtime.readIn a, ← Key.jar.readIn b, ← Key.acceptTimeout.readIn c,
        ← Key.shutdownGrace.readIn d⟩ := by
  simp only [Server.ofTree, bind, sectionOf_bind hs htable, setting?_of_table htable ha,
    setting?_of_table htable hb, setting?_of_table htable hc, setting?_of_table htable hd, map_bind]
  rfl

theorem Editor.ofTree_eq (hs : t.get? "editor" = some s) (htable : s.isTable)
    (ha : s.get? "language_id" = some a) (hb : s.get? "command_highlight_mode" = some b) :
    Editor.ofTree t = do return ⟨← Key.languageId.readIn a, ← Key.highlightMode.readIn b⟩ := by
  have hmode : Key.highlightMode.readIn b =
      (Section.readAt "editor.command_highlight_mode" readText b).map HighlightMode.ofName := by
    simp only [Key.readIn, Key.read, Section.readAt]
    cases readText b <;> rfl
  simp only [Editor.ofTree, bind, sectionOf_bind hs htable, setting?_of_table htable ha,
    setting?_of_table htable hb, map_bind, hmode]
  rfl

theorem Panel.ofTree_eq (hs : t.get? "panel" = some s) (htable : s.isTable) (ha : s.get? "title" = some a) :
    Panel.ofTree t = do
      return ⟨← Key.title.readIn a, ← Key.html.readIn ((s.get? "html").getD (absent none))⟩ := by
  simp only [Panel.ofTree, bind, sectionOf_bind hs htable, setting?_of_table htable ha, map_bind]
  cases hb : s.get? "html" with
  | some b =>
    simp only [setting?_of_table htable hb, map_bind]
    rfl
  | none =>
    have hnone : Section.setting? ⟨"panel", "PanelConfig", 2, s⟩ 1 "html" true readOptional = .ok none := by
      cases s with
      | table => simp only [Section.setting?, hb]
      | _ => cases htable
    rw [hnone]
    rfl

end Sections

/-- **The configuration is read off the settings, one by one.** -/
theorem ofTree_eq_decode {t : Tree} (ht : t.HasGroups)
    (hall : ∀ k : Key, k ≠ .html → (t.setting? k).isSome) :
    ofTree t = decode fun k => (t.setting? k).getD (absent none) := by
  have hget : ∀ {k : Key} {s : Tree}, k ≠ .html → t.get? k.group = some s →
      s.get? k.name = some ((t.setting? k).getD (absent none)) := by
    intro k s hk hs
    have hsome := hall k hk
    have hkey : t.setting? k = s.get? k.name := by rw [setting?, hs]; rfl
    rw [hkey] at hsome ⊢
    obtain ⟨v, hv⟩ := Option.isSome_iff_exists.mp hsome
    rw [hv]
    rfl
  obtain ⟨server, hserver, hservertable⟩ := ht .runtime
  obtain ⟨editor, heditor, heditortable⟩ := ht .languageId
  obtain ⟨panel, hpanel, hpaneltable⟩ := ht .title
  have hhtml : t.setting? .html = panel.get? "html" := congrArg (·.bind (·.get? "html")) hpanel
  rw [ofTree, Server.ofTree_eq hserver hservertable (hget (k := .runtime) (by decide) hserver)
      (hget (k := .jar) (by decide) hserver) (hget (k := .acceptTimeout) (by decide) hserver)
      (hget (k := .shutdownGrace) (by decide) hserver),
    Editor.ofTree_eq heditor heditortable (hget (k := .languageId) (by decide) heditor)
      (hget (k := .highlightMode) (by decide) heditor),
    Panel.ofTree_eq hpanel hpaneltable (hget (k := .title) (by decide) hpanel), ← hhtml]
  simp only [decode, bind_assoc, pure_bind]

end EditorBridge.Config
