import EditorBridge.Config.Loader
import EditorBridge.Proofs.Config.Settings
import Mathlib.Data.List.TakeWhile

/-!
# Which layer counts

A chain of layers is built from the defaults up: files in their order, overrides above all of them. For
each setting on its own there is one value that counts, the *effective* one: that of the last override of
this setting, else that of the last file which gives it, else the default.

* `Tree.setting?_assignAll`, `Tree.setting?_set` -- what one layer changes;
* `setting?_tree` -- and so what a chain of them comes to;
* **`layering`** -- the build reads the effective values, wherever the overrides stand between the files.

Names in files count in lower case. So a file that gives `Server` a `runtime` gives `server.runtime`
(`runtime_of_capitalised`).
-/

namespace EditorBridge.Config

open Text EditorBridge.Config.Tree

/-! ## 1. One file over a tree -/

/-- The last value that a list has to give. -/
def last? {α β : Type} (f : α → Option β) (xs : List α) : Option β := xs.reverse.findSome? f

@[simp] theorem last?_nil {α β : Type} (f : α → Option β) : last? f [] = none := rfl

theorem last?_append {α β : Type} (f : α → Option β) (xs ys : List α) :
    last? f (xs ++ ys) = (last? f ys).or (last? f xs) := by
  simp only [last?, List.reverse_append, List.findSome?_append]

theorem last?_cons {α β : Type} (f : α → Option β) (x : α) (xs : List α) :
    last? f (x :: xs) = (last? f xs).or (f x) := by
  simp [last?, List.findSome?_append]

theorem last?_filterMap {α β γ : Type} (f : β → Option γ) (g : α → Option β) (xs : List α) :
    last? f (xs.filterMap g) = last? (fun x => (g x).bind f) xs := by
  induction xs with
  | nil => rfl
  | cons x xs ih =>
    cases hx : g x with
    | none => simp only [List.filterMap_cons, hx, last?_cons, ih, Option.bind_none, Option.or_none]
    | some y => simp only [List.filterMap_cons, hx, last?_cons, ih, Option.bind_some]

/-- What an entry gives a name, in whatever case it is written. -/
def named (name : String) (e : String × Tree) : Option Tree :=
  if lowerName e.1 = name then some e.2 else none

/-- What an entry of a file gives a setting. -/
def gives (k : Key) (e : String × Tree) : Option Tree :=
  if lowerName e.1 = k.group then last? (named k.name) e.2.entries else none

/-- A file whose top-level names are plain, whose sections are tables, and which gives no table to a
    setting. -/
structure Tidy (es : List (String × Tree)) : Prop where
  plain : ∀ e ∈ es, e.1 ≠ "" ∧ e.1.toList.all Path.isNameChar
  sections : ∀ e ∈ es, ∀ k : Key, lowerName e.1 = k.group → e.2.isTable
  settings : ∀ e ∈ es, ∀ k : Key, lowerName e.1 = k.group →
    ∀ f ∈ e.2.entries, lowerName f.1 = k.name → f.2.isTable = false

instance (es : List (String × Tree)) : Decidable (Tidy es) :=
  decidable_of_iff
    ((∀ e ∈ es, e.1 ≠ "" ∧ e.1.toList.all Path.isNameChar) ∧
      (∀ e ∈ es, ∀ k : Key, lowerName e.1 = k.group → e.2.isTable) ∧
      ∀ e ∈ es, ∀ k : Key, lowerName e.1 = k.group →
        ∀ f ∈ e.2.entries, lowerName f.1 = k.name → f.2.isTable = false)
    ⟨fun h => ⟨h.1, h.2.1, h.2.2⟩, fun h => ⟨h.plain, h.sections, h.settings⟩⟩

theorem Tidy.tail {e : String × Tree} {es : List (String × Tree)} (h : Tidy (e :: es)) : Tidy es where
  plain f hf := h.plain f (List.mem_cons_of_mem _ hf)
  sections f hf := h.sections f (List.mem_cons_of_mem _ hf)
  settings f hf := h.settings f (List.mem_cons_of_mem _ hf)

/-- A plain name is the path of the top-level setting of that name. -/
theorem pathOfKey_of_plain {k : String} (hne : k ≠ "") (hk : k.toList.all Path.isNameChar) :
    pathOfKey k = .plain k := by
  have htake : k.toList.takeWhile Path.isNameChar = k.toList := by
    rw [List.takeWhile_eq_self_iff]
    exact List.all_eq_true.mp hk
  have hdrop : k.toList.dropWhile Path.isNameChar = [] := by
    rw [List.dropWhile_eq_nil_iff]
    exact List.all_eq_true.mp hk
  have hcs : k.toList.isEmpty = false := by
    simpa [List.isEmpty_eq_false_iff] using hne
  have hsteps : ∀ n, Path.readSteps n [] = .ok [] := fun n => by cases n <;> rfl
  have hparse : Path.parse k = .ok (.plain k) := by
    simp only [Path.parse, htake, hdrop, hcs, hsteps]
    simp [Except.map, Path.plain]
  rw [pathOfKey, hparse]

/-- So the entries of such a file are assigned one after another. -/
theorem placeEntries_of_tidy {es : List (String × Tree)} (h : Tidy es) (t : Tree) :
    placeEntries t es = .ok (t.assignAll es) := by
  induction es generalizing t with
  | nil => simp [placeEntries, assignAll, pure, Except.pure]
  | cons e es ih =>
    obtain ⟨hne, hplain⟩ := h.plain e List.mem_cons_self
    have hplace : place t (pathOfKey e.1) e.2 = .ok (t.assign (lowerName e.1) e.2) := by
      rw [pathOfKey_of_plain hne hplain]
      rfl
    have hrest := ih h.tail (t.assign (lowerName e.1) e.2)
    rw [assignAll, ← hrest]
    simp only [placeEntries, List.foldlM_cons, hplace]
    rfl

/-- The members of a section over a table: the last value counts, if there is one. -/
theorem Tree.get?_assignAll {es : List (String × Tree)} {name : String}
    (h : ∀ e ∈ es, lowerName e.1 = name → e.2.isTable = false) (t : Tree) :
    (t.assignAll es).get? name = (last? (named name) es).or (t.get? name) := by
  induction es generalizing t with
  | nil => simp only [assignAll, last?_nil, Option.none_or]
  | cons e es ih =>
    have htail : ∀ f ∈ es, lowerName f.1 = name → f.2.isTable = false :=
      fun f hf => h f (List.mem_cons_of_mem _ hf)
    rw [assignAll, ih htail, last?_cons, Option.or_assoc, named]
    congr 1
    by_cases hn : lowerName e.1 = name
    · rw [if_pos hn, assign_of_not_table (h e List.mem_cons_self hn), hn, get?_replace_self]
      rfl
    · rw [if_neg hn, get?_assign_of_ne t e.2 (Ne.symm hn)]
      rfl

/-- The entries of a file over a tree: of each setting the last value counts, if there is one. -/
theorem Tree.setting?_assignAll {es : List (String × Tree)} (h : Tidy es) {t : Tree} (ht : t.HasGroups) :
    (t.assignAll es).HasGroups ∧
      ∀ k, (t.assignAll es).setting? k = (last? (gives k) es).or (t.setting? k) := by
  induction es generalizing t with
  | nil =>
    have hsame : t.assignAll [] = t := by rw [assignAll]
    rw [hsame]
    exact ⟨ht, fun k => rfl⟩
  | cons e es ih =>
    -- what the first entry does to the section of one setting
    have hstep : ∀ k : Key, (∃ s, (t.assign (lowerName e.1) e.2).get? k.group = some s ∧ s.isTable) ∧
        (t.assign (lowerName e.1) e.2).setting? k = (gives k e).or (t.setting? k) := by
      intro k
      obtain ⟨s, hs, hst⟩ := ht k
      by_cases hg : lowerName e.1 = k.group
      · have hetable : e.2.isTable := h.sections e List.mem_cons_self k hg
        have hscalars := h.settings e List.mem_cons_self k hg
        obtain ⟨f, ms, he⟩ : ∃ f ms, e.2 = .table f ms := by
          cases he : e.2 with
          | table f ms => exact ⟨f, ms, rfl⟩
          | _ => rw [he] at hetable; cases hetable
        have hnew : (t.assign (lowerName e.1) e.2).get? k.group = some (s.assignAll ms) := by
          rw [he, assign_table, hg, hs, get?_replace_self]
          rfl
        rw [he] at hscalars
        refine ⟨⟨_, hnew, isTable_assignAll hst ms⟩, ?_⟩
        rw [setting?, hnew, gives, if_pos hg, he, setting?, hs]
        exact get?_assignAll hscalars s
      · have hsame := get?_assign_of_ne t e.2 (Ne.symm hg)
        refine ⟨⟨s, hsame.trans hs, hst⟩, ?_⟩
        rw [setting?, hsame, gives, if_neg hg]
        rfl
    obtain ⟨hgroups, hsettings⟩ := ih h.tail fun k => (hstep k).1
    rw [assignAll]
    refine ⟨hgroups, fun k => ?_⟩
    rw [hsettings k, (hstep k).2, last?_cons, Option.or_assoc]

/-! ## 2. One override over a tree -/

theorem Tree.set_path {t v : Tree} (hv : v.isTable = false) (k : Key) :
    t.set k.path v = t.replace k.group (((t.get? k.group).getD (absent none)).replace k.name v) := by
  simp only [Tree.set, Key.path, setSteps, k.lowerName_group, k.lowerName_name, assign_of_not_table hv]

theorem Tree.setting?_set {t v : Tree} (ht : t.HasGroups) (hv : v.isTable = false) (k : Key) :
    (t.set k.path v).HasGroups ∧
      ∀ j, (t.set k.path v).setting? j = (if k.path = j.path then some v else none).or (t.setting? j) := by
  rw [set_path hv]
  generalize hsection : ((t.get? k.group).getD (absent none)).replace k.name v = s
  constructor
  · intro j
    by_cases hg : j.group = k.group
    · refine ⟨s, by rw [hg, get?_replace_self], ?_⟩
      rw [← hsection]
      exact isTable_replace ..
    · rw [get?_replace_of_ne t s hg]
      exact ht j
  · intro j
    by_cases hg : j.group = k.group
    · obtain ⟨old, hold, -⟩ := ht k
      rw [setting?, hg, get?_replace_self, ← hsection, hold]
      by_cases hn : j.name = k.name
      · obtain rfl := Key.eq_of_group_of_name hg hn
        rw [if_pos rfl]
        exact get?_replace_self ..
      · have hne : k.path ≠ j.path := fun h => hn (congrArg Key.name (Key.path_injective h).symm)
        rw [if_neg hne, setting?, hg, hold]
        exact get?_replace_of_ne _ v hn
    · have hne : k.path ≠ j.path := fun h => hg (congrArg Key.group (Key.path_injective h).symm)
      rw [setting?, get?_replace_of_ne t s hg, if_neg hne]
      rfl

/-! ## 3. Chains of layers -/

/-- A layer over the defaults. -/
inductive Layer where
  | file (path : String)
  | override (k : Key) (v : Tree)
  /-- A highlight mode by its name. -/
  | mode (name : String)

namespace Layer

/-- The file that a layer adds. -/
def path? : Layer → Option String
  | file path => some path
  | _ => none

/-- What a layer overrides a setting with. -/
def overrides (k : Key) : Layer → Option Tree
  | override j v => if j.path = k.path then some v else none
  | mode name => if highlightModePath = k.path then some (.text none name) else none
  | file _ => none

end Layer

/-- What a file gives a setting. -/
def Files.gives (files : Files) (k : Key) (path : String) : Option Tree :=
  (files.entries path).toOption.bind (last? (Config.gives k))

/-- What the file of a layer gives a setting. -/
def Layer.gives (files : Files) (k : Key) (l : Layer) : Option Tree := l.path?.bind (files.gives k)

/-- A layer that can be read: a file is there, is TOML and is tidy, and an override is no table. -/
def Layer.Fits (files : Files) : Layer → Prop
  | file path => ∃ es, files.entries path = .ok es ∧ Tidy es
  | override _ v => v.isTable = false
  | mode _ => True

instance (files : Files) : DecidablePred (Layer.Fits files)
  | .file path =>
    match h : files.entries path with
    | .ok es =>
      decidable_of_iff (Tidy es)
        ⟨fun ht => ⟨es, h, ht⟩, fun ⟨_, he, ht⟩ => Except.ok.inj (h.symm.trans he) ▸ ht⟩
    | .error _ => isFalse fun ⟨_, he, _⟩ => absurd (h.symm.trans he) (by simp)
  | .override _ v => inferInstanceAs (Decidable (v.isTable = false))
  | .mode _ => isTrue trivial

/-- Adds a layer. -/
def Loader.add (l : Loader) : Layer → Except ConfigError Loader
  | .file path => .ok (l.addFile path)
  | .override k v => l.set k.text v
  | .mode name => .ok (l.setHighlightMode name)

/-- The loader that a chain of layers makes. -/
def Loader.chain (ls : List Layer) : Except ConfigError Loader := ls.foldlM Loader.add Loader.start

/-- What a setting is without layers. -/
def byDefault (k : Key) : Tree := (defaults.setting? k).getD (.absent none)

/-- The value that counts for a setting. -/
def effective (files : Files) (ls : List Layer) (k : Key) : Tree :=
  ((last? (Layer.overrides k) ls).or (last? (Layer.gives files k) ls)).getD (byDefault k)

/-- What an entry of a loader overrides a setting with. -/
def atPath (k : Key) (o : Path × Tree) : Option Tree := if o.1 = k.path then some o.2 else none

/-- The files and the overrides that a chain has collected. -/
structure Collects (l : Loader) (ls : List Layer) : Prop where
  files : l.files = ls.filterMap Layer.path?
  overrides : ∀ k, last? (atPath k) l.overrides = last? (Layer.overrides k) ls
  scalars : ∀ o ∈ l.overrides, ∃ k : Key, o.1 = k.path ∧ o.2.isTable = false

/-- An override takes the place of an earlier one of its own setting, and of no other. -/
theorem last?_override (l : Loader) (p : Path) (v : Tree) (k : Key) :
    last? (atPath k) (l.override p v).overrides =
      (if p = k.path then some v else none).or (last? (atPath k) l.overrides) := by
  have hothers : ∀ os : List (Path × Tree), p ≠ k.path →
      last? (atPath k) (os.filter fun o => o.1 ≠ p) = last? (atPath k) os := by
    intro os hp
    induction os with
    | nil => rfl
    | cons o os ih =>
      by_cases ho : o.1 = p
      · have hnone : atPath k o = none := if_neg (ho ▸ hp)
        rw [List.filter_cons_of_neg (by simpa using ho), ih, last?_cons, hnone, Option.or_none]
      · rw [List.filter_cons_of_pos (by simpa using ho), last?_cons, last?_cons, ih]
  rw [Loader.override, last?_append, last?_cons, last?_nil, Option.none_or, atPath]
  by_cases hp : p = k.path
  · simp only [if_pos hp, Option.some_or]
  · simp only [if_neg hp, Option.none_or, hothers _ hp]

theorem Collects.override {l : Loader} {ls : List Layer} (h : Collects l ls) {x : Layer} (j : Key) {v : Tree}
    (hv : v.isTable = false) (hpath : x.path? = none)
    (hx : ∀ k, x.overrides k = if j.path = k.path then some v else none) :
    Collects (l.override j.path v) (ls ++ [x]) where
  files := by simp [Loader.override, h.files, hpath]
  overrides k := by rw [last?_override, h.overrides, last?_append, last?_cons, last?_nil, hx, Option.none_or]
  scalars o ho := by
    rcases List.mem_append.mp ho with ho | ho
    · exact h.scalars o ((List.mem_filter.mp ho).1)
    · obtain rfl := List.mem_singleton.mp ho
      exact ⟨j, rfl, hv⟩

/-- One more layer. -/
theorem Collects.add {files : Files} {l : Loader} {ls : List Layer} (h : Collects l ls) {x : Layer}
    (hx : x.Fits files) : ∃ l', l.add x = .ok l' ∧ Collects l' (ls ++ [x]) := by
  cases x with
  | file path =>
    refine ⟨l.addFile path, rfl, ?_, fun k => ?_, h.scalars⟩
    · simp [Loader.addFile, h.files, Layer.path?]
    · rw [last?_append, ← h.overrides]
      rfl
  | override k v =>
    have hset : l.set k.text v = .ok (l.override k.path v) := by rw [Loader.set, k.parse_text]
    exact ⟨_, hset, h.override k hx rfl fun j => rfl⟩
  | mode name => exact ⟨_, rfl, h.override .highlightMode rfl rfl fun j => rfl⟩

/-- No chain of layers is refused. -/
theorem collects_chain {files : Files} {ls : List Layer} (hls : ∀ x ∈ ls, x.Fits files) :
    ∃ l, Loader.chain ls = .ok l ∧ Collects l ls := by
  have hrun : ∀ (xs done : List Layer) (l : Loader), Collects l done → (∀ x ∈ xs, x.Fits files) →
      ∃ l', xs.foldlM Loader.add l = .ok l' ∧ Collects l' (done ++ xs) := by
    intro xs
    induction xs with
    | nil => exact fun done l h _ => ⟨l, rfl, by rwa [List.append_nil]⟩
    | cons x xs ih =>
      intro done l h hxs
      obtain ⟨l₁, hadd, h₁⟩ := h.add (hxs x List.mem_cons_self)
      obtain ⟨l₂, hrest, h₂⟩ := ih (done ++ [x]) l₁ h₁ fun y hy => hxs y (List.mem_cons_of_mem _ hy)
      refine ⟨l₂, ?_, by rwa [List.append_assoc] at h₂⟩
      rw [List.foldlM_cons, hadd]
      exact hrest
  exact hrun ls [] .start ⟨rfl, fun k => rfl, fun o ho => absurd ho List.not_mem_nil⟩ hls

/-! ## 4. All layers over the defaults -/

/-- Files over a tree. -/
theorem setting?_files {files : Files} {paths : List String}
    (hpaths : ∀ p ∈ paths, ∃ es, files.entries p = .ok es ∧ Tidy es) {t : Tree} (ht : t.HasGroups) :
    ∃ t', paths.foldlM (fun t path => (files.entries path).bind (placeEntries t)) t = .ok t' ∧
      t'.HasGroups ∧ ∀ k, t'.setting? k = (last? (files.gives k) paths).or (t.setting? k) := by
  induction paths generalizing t with
  | nil => exact ⟨t, rfl, ht, fun k => rfl⟩
  | cons p paths ih =>
    obtain ⟨es, hes, htidy⟩ := hpaths p List.mem_cons_self
    obtain ⟨hgroups, hsettings⟩ := Tree.setting?_assignAll htidy ht
    obtain ⟨t', hrest, hgroups', hsettings'⟩ := ih (fun q hq => hpaths q (List.mem_cons_of_mem _ hq)) hgroups
    have hplace : (files.entries p).bind (placeEntries t) = .ok (t.assignAll es) := by
      rw [hes]
      exact placeEntries_of_tidy htidy t
    refine ⟨t', ?_, hgroups', fun k => ?_⟩
    · rw [List.foldlM_cons, hplace]
      exact hrest
    · have hgives : files.gives k p = last? (gives k) es := by
        rw [Files.gives, hes]
        rfl
      rw [hsettings' k, hsettings k, last?_cons, hgives, Option.or_assoc]

/-- Overrides over a tree. -/
theorem setting?_overrides {os : List (Path × Tree)}
    (hos : ∀ o ∈ os, ∃ k : Key, o.1 = k.path ∧ o.2.isTable = false) {t : Tree} (ht : t.HasGroups) :
    ∃ t', os.foldlM (fun t (o : Path × Tree) => place t o.1 o.2) t = .ok t' ∧ t'.HasGroups ∧
      ∀ k, t'.setting? k = (last? (atPath k) os).or (t.setting? k) := by
  induction os generalizing t with
  | nil => exact ⟨t, rfl, ht, fun k => rfl⟩
  | cons o os ih =>
    obtain ⟨p, v⟩ := o
    obtain ⟨j, rfl, hv⟩ : ∃ k : Key, p = k.path ∧ v.isTable = false := hos (p, v) List.mem_cons_self
    obtain ⟨hgroups, hsettings⟩ := Tree.setting?_set ht hv j
    obtain ⟨t', hrest, hgroups', hsettings'⟩ := ih (fun q hq => hos q (List.mem_cons_of_mem _ hq)) hgroups
    refine ⟨t', ?_, hgroups', fun k => ?_⟩
    · rw [List.foldlM_cons]
      exact hrest
    · rw [hsettings' k, hsettings k, last?_cons, atPath, Option.or_assoc]

/-- The defaults are a configuration of their own. -/
theorem read_byDefault (k : Key) : ∃ x, k.read (byDefault k) = .ok x := by
  cases k <;> exact ⟨_, rfl⟩

theorem hasGroups_defaults : defaults.HasGroups := by
  intro k
  cases k <;> exact ⟨_, rfl, rfl⟩

/-- **Each setting of all layers on its own.** -/
theorem setting?_tree {files : Files} {l : Loader} {ls : List Layer} (h : Collects l ls)
    (hls : ∀ x ∈ ls, x.Fits files) :
    ∃ t, l.tree files = .ok t ∧ t.HasGroups ∧ ∀ k, t.setting? k =
      ((last? (Layer.overrides k) ls).or (last? (Layer.gives files k) ls)).or (defaults.setting? k) := by
  have hpaths : ∀ p ∈ l.files, ∃ es, files.entries p = .ok es ∧ Tidy es := by
    intro p hp
    rw [h.files] at hp
    obtain ⟨x, hx, hxp⟩ := List.mem_filterMap.mp hp
    have hfits := hls x hx
    cases x with
    | file q =>
      obtain rfl : q = p := Option.some.inj hxp
      exact hfits
    | _ => cases hxp
  obtain ⟨t₁, hfiles, hgroups₁, hsettings₁⟩ := setting?_files hpaths hasGroups_defaults
  obtain ⟨t₂, hoverrides, hgroups₂, hsettings₂⟩ := setting?_overrides h.scalars hgroups₁
  refine ⟨t₂, ?_, hgroups₂, fun k => ?_⟩
  · rw [Loader.tree, hfiles]
    exact hoverrides
  · have hgiven : last? (files.gives k) l.files = last? (Layer.gives files k) ls := by
      rw [h.files, last?_filterMap]
      rfl
    rw [hsettings₂ k, hsettings₁ k, h.overrides, hgiven, Option.or_assoc]

/-! ## 5. What a chain builds -/

/-- **The build reads the values that count.** -/
theorem build_chain {files : Files} {ls : List Layer} (hls : ∀ x ∈ ls, x.Fits files) :
    ∃ l, Loader.chain ls = .ok l ∧ l.build files = decode (effective files ls) := by
  obtain ⟨l, hl, hcollects⟩ := collects_chain hls
  obtain ⟨t, htree, hgroups, hsettings⟩ := setting?_tree hcollects hls
  have hall : ∀ k : Key, k ≠ .html → (t.setting? k).isSome := by
    intro k hk
    have hdefault : (defaults.setting? k).isSome := by
      cases k <;> first | rfl | exact absurd rfl hk
    rw [hsettings k, Option.isSome_or, hdefault, Bool.or_true]
  have heffective : (fun k => (t.setting? k).getD (absent none)) = effective files ls := by
    funext k
    rw [hsettings k, effective, byDefault]
    cases (last? (Layer.overrides k) ls).or (last? (Layer.gives files k) ls) <;> rfl
  refine ⟨l, hl, ?_⟩
  rw [Loader.build, htree, ← heffective]
  exact ofTree_eq_decode hgroups hall

/-- The setting that a layer overrides. -/
def Layer.key? : Layer → Option Key
  | file _ => none
  | override k _ => some k
  | mode _ => some .highlightMode

theorem Layer.key?_of_overrides {x : Layer} {k : Key} {v : Tree} (h : x.overrides k = some v) :
    x.key? = some k := by
  have hkey : ∀ {j : Key} {w : Tree},
      (if j.path = k.path then some w else none) = some v → some j = some k := by
    intro j w hj
    split at hj
    · rename_i hpath
      rw [Key.path_injective hpath]
    · cases hj
  cases x with
  | file => cases h
  | override j w => exact hkey h
  | mode name => exact hkey (j := .highlightMode) h

theorem Layer.key?_of_gives {files : Files} {x : Layer} {k : Key} {v : Tree} (h : x.gives files k = some v) :
    x.key? = none := by
  cases x with
  | file => rfl
  | _ => cases h

/-- Two layers can change places where at most one of them gives a value. -/
theorem last?_swap {f : Layer → Option Tree} {x y : Layer}
    (h : ∀ v w, f x = some v → f y = some w → False) (before after : List Layer) :
    last? f (before ++ x :: y :: after) = last? f (before ++ y :: x :: after) := by
  have hcomm : (f y).or (f x) = (f x).or (f y) := by
    cases hx : f x with
    | none => exact Option.or_none
    | some v =>
      cases hy : f y with
      | none => rfl
      | some w => exact (h v w hx hy).elim
  have hpair : ∀ a, (f y).or ((f x).or a) = (f x).or ((f y).or a) := fun a => by
    rw [← Option.or_assoc, hcomm, Option.or_assoc]
  simp only [last?_append, last?_cons, Option.or_assoc]
  rw [hpair]

/-- An override can change places with a file, and with an override of another setting. -/
theorem effective_swap (files : Files) {x y : Layer} (h : x.key? ≠ y.key?) (before after : List Layer) :
    effective files (before ++ x :: y :: after) = effective files (before ++ y :: x :: after) := by
  funext k
  have hoverrides := last?_swap (f := Layer.overrides k) (x := x) (y := y)
    (fun v w hx hy => h ((Layer.key?_of_overrides hx).trans (Layer.key?_of_overrides hy).symm)) before after
  have hgives := last?_swap (f := Layer.gives files k) (x := x) (y := y)
    (fun v w hx hy => h ((Layer.key?_of_gives hx).trans (Layer.key?_of_gives hy).symm)) before after
  rw [effective, effective, hoverrides, hgives]

/-- A value that does not decode has been given by a layer, since the defaults decode. -/
theorem given_of_mismatch {files : Files} {ls : List Layer} {k : Key} {what : Mismatch}
    (h : k.read (effective files ls k) = .error what) :
    ∃ x ∈ ls, (x.overrides k).isSome ∨ (x.gives files k).isSome := by
  have hlayer : ∀ {f : Layer → Option Tree}, last? f ls ≠ none → ∃ x ∈ ls, (f x).isSome := by
    intro f hf
    obtain ⟨v, hv⟩ := Option.ne_none_iff_exists'.mp hf
    obtain ⟨x, hx, hgiven⟩ := List.exists_of_findSome?_eq_some hv
    exact ⟨x, List.mem_reverse.mp hx, Option.isSome_of_eq_some hgiven⟩
  by_cases ho : last? (Layer.overrides k) ls = none
  · by_cases hg : last? (Layer.gives files k) ls = none
    · obtain ⟨v, hv⟩ := read_byDefault k
      rw [effective, ho, hg] at h
      cases h.symm.trans hv
    · obtain ⟨x, hx, hgiven⟩ := hlayer hg
      exact ⟨x, hx, Or.inr hgiven⟩
  · obtain ⟨x, hx, hgiven⟩ := hlayer ho
    exact ⟨x, hx, Or.inl hgiven⟩

/-- **One value counts for each setting.** A chain of files and overrides, in any number and order, builds
    the configuration whose settings are what the values that count decode to, and fails exactly when one
    of these does not decode; the error then names a setting like that, which one of the layers gives, and the
    file that it came from. A chain where an override stands on the other side of a file, or of an override of
    another setting, comes to the same. -/
theorem layering (files : Files) (ls : List Layer) (hls : ∀ x ∈ ls, x.Fits files) :
    ∃ l, Loader.chain ls = .ok l ∧
      (∀ c, l.build files = .ok c ↔ ∀ k : Key, k.read (effective files ls k) = .ok (c.setting k)) ∧
      ((∃ e, l.build files = .error e) ↔
        ∃ (k : Key) (what : Mismatch), k.read (effective files ls k) = .error what) ∧
      (∀ e, l.build files = .error e → ∃ (k : Key) (what : Mismatch),
        k.read (effective files ls k) = .error what ∧
          (∃ x ∈ ls, (x.overrides k).isSome ∨ (x.gives files k).isSome) ∧
          e = .mismatch what k.text (effective files ls k).file) ∧
      ∀ before x y after, ls = before ++ x :: y :: after → x.key? ≠ y.key? →
        ∃ l', Loader.chain (before ++ y :: x :: after) = .ok l' ∧ l'.build files = l.build files := by
  obtain ⟨l, hl, hbuild⟩ := build_chain hls
  refine ⟨l, hl, fun c => ?_, ?_, fun e he => ?_, ?_⟩
  · rw [hbuild]
    exact decode_eq_ok_iff _ c
  · rw [hbuild]
    constructor
    · rintro ⟨e, he⟩
      obtain ⟨k, what, hk, -⟩ := decode_eq_error he
      exact ⟨k, what, hk⟩
    · rintro ⟨k, what, hk⟩
      cases hd : decode (effective files ls) with
      | error e => exact ⟨e, rfl⟩
      | ok c =>
        have hok := (decode_eq_ok_iff _ c).mp hd k
        rw [hk] at hok
        cases hok
  · obtain ⟨k, what, hk, hcause⟩ := decode_eq_error (hbuild ▸ he)
    exact ⟨k, what, hk, given_of_mismatch hk, hcause⟩
  · rintro before x y after rfl hxy
    have hmoved : ∀ z ∈ before ++ y :: x :: after, z.Fits files := by
      intro z hz
      refine hls z ?_
      simp only [List.mem_append, List.mem_cons] at hz ⊢
      rcases hz with hz | hz | hz | hz <;> simp [hz]
    obtain ⟨l', hl', hbuild'⟩ := build_chain hmoved
    exact ⟨l', hl', by rw [hbuild', hbuild, effective_swap files hxy]⟩

/-- A machine with one file. -/
def oneFile (path content : String) : Files := fun p => if p = path then some (Utf8.encode content) else none

/-- An override before a file that gives the same setting and another one, and a mode after it. -/
theorem layering_override_first :
    let files := oneFile "user.toml" "[server]\nruntime = 'file'\njar = 7\n"
    let ls : List Layer := [.override .runtime (.text none "java17"), .file "user.toml", .mode "link"]
    (∀ x ∈ ls, x.Fits files) ∧ ∃ l, Loader.chain ls = .ok l ∧
      l.build files = .ok ⟨⟨"java17", "7", ⟨30000⟩, ⟨2000⟩⟩, ⟨"alloy", .link⟩, ⟨"Alloy", none⟩⟩ := by
  intro files ls
  have hls : ∀ x ∈ ls, x.Fits files := by decide +kernel
  obtain ⟨l, hl, hok, -⟩ := layering files ls hls
  have hread : ∀ {α : Type} {x : Except Mismatch α} {a : α}, x.toOption = some a → x = .ok a := by
    intro α x a h
    cases x <;> cases h
    rfl
  refine ⟨hls, l, hl, (hok _).mpr fun k => hread ?_⟩
  cases k <;> decide +kernel

/-- The names in a file are read in lower case. -/
theorem runtime_of_capitalised :
    let files := oneFile "user.toml" "[Server]\nruntime = 'cased'\n"
    (files.entries "user.toml").toOption.map (·.map (·.1)) = some ["Server"] ∧
      (Key.runtime.read (byDefault .runtime)).toOption = some "java" ∧
      ((Loader.start.addFile "user.toml").build files).toOption.map (·.server.runtime) = some "cased" := by
  decide +kernel

end EditorBridge.Config
