import EditorBridge.Proofs.Json.Rewriting

/-!
# The form in which values of the protocol are written

Each type of the protocol has one form in which it is written and several that are read. Here its fields are
given as data, and its decoder goes by them:

* `Position.decode_eq_ok_iff`, ..., `ExecutionOutput.decode_eq_ok_iff` -- what decodes, field by field;
* `Position.tolerates`, ..., `ExecutionOutput.tolerates` -- so it decodes to the same value in whichever of
  the ways it is written;
* `Position.decode_toJson`, ..., `ExecutionOutput.decode_toJson` -- and what is written decodes to the value;
* `ShownMessage.decode_eq_ok_iff` -- what decodes to a message for the user;
* **`normal_forms`** -- for the values that bridge and server exchange about commands, lenses and links.
-/

namespace EditorBridge

open Decode
open Json (member?_append member?_cons member?_nil)
open Command (optionalMember)

/-! ## 1. Fields and records -/

@[simp] theorem member?_optionalMember (name key : String) (o : Option Json) :
    Json.member? name (optionalMember key o) = if key = name then o else none := by
  cases o with
  | none => simp [optionalMember]
  | some j => rw [optionalMember, member?_cons, member?_nil]

theorem join_eq_getD {α : Type} (o : Option (Option α)) : o.join = o.getD none := by cases o <;> rfl

section Written

variable {α : Type} {read : Decoder α} {write : α → Json}

theorem elements_map : ∀ {xs : List α}, (∀ x ∈ xs, read (write x) = .ok x) →
    elements read (xs.map write) = .ok xs
  | [], _ => rfl
  | x :: xs, h => by
    have hrest := elements_map fun y hy => h y (List.mem_cons_of_mem x hy)
    rw [List.map_cons, elements, h x List.mem_cons_self, hrest]
    rfl

/-- An option that is left out, or written as something else than null. -/
theorem defaulted_map {o : Option α} (h : ∀ x ∈ o, write x ≠ .null ∧ read (write x) = .ok x) :
    Defaulted none (nullable read) (o.map write) o := by
  cases o with
  | none => exact .inl ⟨rfl, rfl⟩
  | some x =>
    obtain ⟨hnull, hx⟩ := h x rfl
    refine .inr ⟨write x, rfl, ?_⟩
    rw [nullable.eq_2 _ _ hnull, hx]
    rfl

/-- Null is not kept. -/
theorem ne_null_of_defaulted {o x : Option Json} (h : Defaulted none (nullable any) o x) : x ≠ some .null := by
  obtain ⟨-, rfl⟩ | ⟨j, -, hj⟩ := h
  · exact fun e => by cases e
  · by_cases hnull : j = .null
    · subst hnull
      cases hj
      exact fun e => by cases e
    · rw [nullable.eq_2 _ _ hnull] at hj
      cases hj
      exact fun e => hnull (Option.some.inj e)

end Written

/-- A record of two fields that have to be there. -/
theorem record_two_eq_ok_iff {α β γ : Type} {mk : α → β → γ} {what shape key key' : String}
    {read : Decoder α} {read' : Decoder β} {o o' : Outline} {v : Json} {a : α} {b : β}
    (hmk : ∀ a b a' b', mk a b = mk a' b' → a = a' ∧ b = b') :
    record what
        (fun ms => do
          let y ← present ms key' read'
          let x ← present ms key read
          let x ← required key x
          let y ← required key' y
          return mk x y)
        (fun js => do
          let x ← element shape js 0 read
          let y ← element shape js 1 read'
          noMore js 2
          return mk x y) v = .ok (mk a b) ↔
      Shaped [⟨key, none, o⟩, ⟨key', none, o'⟩] 2 v ∧
        Required read (field? [⟨key, none, o⟩, ⟨key', none, o'⟩] 0 v) a ∧
        Required read' (field? [⟨key, none, o⟩, ⟨key', none, o'⟩] 1 v) b := by
  refine record_eq_ok_iff (P := fun v => Required read (field? [⟨key, none, o⟩, ⟨key', none, o'⟩] 0 v) a ∧
    Required read' (field? [⟨key, none, o⟩, ⟨key', none, o'⟩] 1 v) b) (fun ms => ?_) (fun js => ?_) v
  · simp only [bind_eq_ok_iff, required_eq_ok_iff]
    constructor
    · rintro ⟨_, hy, _, hx, x, rfl, y, rfl, he⟩
      obtain ⟨rfl, rfl⟩ := hmk _ _ _ _ (Except.ok.inj he)
      exact ⟨present_eq_ok_some_iff.mp hx, present_eq_ok_some_iff.mp hy⟩
    · rintro ⟨hx, hy⟩
      exact ⟨_, present_eq_ok_some_iff.mpr hy, _, present_eq_ok_some_iff.mpr hx, _, rfl, _, rfl, rfl⟩
  · simp only [bind_eq_ok_iff, element_eq_ok_iff, noMore_eq_ok_iff]
    constructor
    · rintro ⟨x, hx, y, hy, _, hlength, he⟩
      obtain ⟨rfl, rfl⟩ := hmk _ _ _ _ (Except.ok.inj he)
      exact ⟨⟨Required.lt_length hy, hlength⟩, hx, hy⟩
    · rintro ⟨⟨-, hlength⟩, hx, hy⟩
      exact ⟨_, hx, _, hy, (), hlength, rfl⟩

/-! ## 2. Positions and ranges -/

namespace Position

def fields : List (Field Outline) := [⟨"line", none, .whole⟩, ⟨"character", none, .whole⟩]

def outline : Outline := .record fields 2

/-- The fields of `v` are those of `p`. -/
def FieldsOf (v : Json) (p : Position) : Prop :=
  Required u32 (field? fields 0 v) p.line ∧ Required u32 (field? fields 1 v) p.character

theorem decode_eq_ok_iff {v : Json} {p : Position} : decode v = .ok p ↔ Shaped fields 2 v ∧ FieldsOf v p :=
  record_two_eq_ok_iff fun _ _ _ _ => mk.inj

theorem tolerates : Tolerates outline decode :=
  tolerates_record (by decide) (fun _ _ => decode_eq_ok_iff) fun _ _ _ hk ⟨hl, hc⟩ =>
    ⟨hl.kept (tolerates_whole _) (hk 0 _ rfl), hc.kept (tolerates_whole _) (hk 1 _ rfl)⟩

theorem decode_toJson (p : Position) : decode p.toJson = .ok p :=
  decode_eq_ok_iff.mpr ⟨trivial, ⟨_, rfl, u32_eq_ok_iff.mpr rfl⟩, ⟨_, rfl, u32_eq_ok_iff.mpr rfl⟩⟩

end Position

namespace Range

def fields : List (Field Outline) := [⟨"start", none, Position.outline⟩, ⟨"end", none, Position.outline⟩]

def outline : Outline := .record fields 2

/-- The fields of `v` are those of `r`. -/
def FieldsOf (v : Json) (r : Range) : Prop :=
  Required Position.decode (field? fields 0 v) r.start ∧ Required Position.decode (field? fields 1 v) r.stop

theorem decode_eq_ok_iff {v : Json} {r : Range} : decode v = .ok r ↔ Shaped fields 2 v ∧ FieldsOf v r :=
  record_two_eq_ok_iff fun _ _ _ _ => mk.inj

theorem tolerates : Tolerates outline decode :=
  tolerates_record (by decide) (fun _ _ => decode_eq_ok_iff) fun _ _ _ hk ⟨hs, he⟩ =>
    ⟨hs.kept Position.tolerates (hk 0 _ rfl), he.kept Position.tolerates (hk 1 _ rfl)⟩

theorem decode_toJson (r : Range) : decode r.toJson = .ok r :=
  decode_eq_ok_iff.mpr ⟨trivial, ⟨_, rfl, r.start.decode_toJson⟩, ⟨_, rfl, r.stop.decode_toJson⟩⟩

end Range

/-! ## 3. Commands -/

namespace Command

def fields : List (Field Outline) :=
  [⟨"title", none, .whole⟩, ⟨"command", none, .whole⟩, ⟨"arguments", some .null, .whole⟩]

def outline : Outline := .record fields 3

/-- The fields of `v` are those of `c`. -/
def FieldsOf (v : Json) (c : Command) : Prop :=
  Required string (field? fields 0 v) c.title ∧ Required string (field? fields 1 v) c.command ∧
    Defaulted none (nullable (list any)) (field? fields 2 v) c.arguments

theorem decode_eq_ok_iff {v : Json} {c : Command} : decode v = .ok c ↔ Shaped fields 3 v ∧ FieldsOf v c := by
  refine record_eq_ok_iff (P := (FieldsOf · c)) (fun ms => ?_) (fun js => ?_) v
  · simp only [bind_eq_ok_iff, required_eq_ok_iff, join_eq_getD]
    constructor
    · rintro ⟨arguments, ha, _, hc, _, ht, title, rfl, command, rfl, he⟩
      cases he
      exact ⟨present_eq_ok_some_iff.mp ht, present_eq_ok_some_iff.mp hc, exists_present_iff.mp ⟨_, ha, rfl⟩⟩
    · rintro ⟨ht, hc, ha⟩
      obtain ⟨arguments, ha, he⟩ := exists_present_iff.mpr ha
      refine ⟨_, ha, _, present_eq_ok_some_iff.mpr hc, _, present_eq_ok_some_iff.mpr ht, _, rfl, _, rfl, ?_⟩
      rw [he]
      rfl
  · simp only [bind_eq_ok_iff, element_eq_ok_iff, noMore_eq_ok_iff]
    constructor
    · rintro ⟨title, ht, command, hc, arguments, ha, _, hlength, he⟩
      cases he
      exact ⟨⟨Required.lt_length ha, hlength⟩, ht, hc, .inr ha⟩
    · rintro ⟨⟨hleast, hlength⟩, ht, hc, ha⟩
      exact ⟨_, ht, _, hc, _, ha.required hleast, (), hlength, rfl⟩

theorem tolerates : Tolerates outline decode :=
  tolerates_record (by decide) (fun _ _ => decode_eq_ok_iff) fun _ _ _ hk ⟨ht, hc, ha⟩ =>
    ⟨ht.kept (tolerates_whole _) (hk 0 _ rfl), hc.kept (tolerates_whole _) (hk 1 _ rfl),
      ha.kept (tolerates_whole _) (by rintro _ ⟨⟩; rfl) (hk 2 _ rfl)⟩

theorem decode_toJson (c : Command) : decode c.toJson = .ok c := by
  refine decode_eq_ok_iff.mpr ⟨trivial, ⟨.str c.title, ?_, rfl⟩, ⟨.str c.command, ?_, rfl⟩, ?_⟩
  · simp [field?, fields, toJson, member?_append, member?_cons]
  · simp [field?, fields, toJson, member?_append, member?_cons]
  · have hfield : field? fields 2 c.toJson = c.arguments.map .arr := by
      simp [field?, fields, toJson, member?_append, member?_cons]
    rw [hfield]
    refine defaulted_map fun js _ => ⟨fun e => (by cases e), ?_⟩
    have helements : elements any (js.map id) = .ok js := elements_map fun _ _ => rfl
    rwa [List.map_id] at helements

end Command

namespace ListedCommand

def fields : List (Field Outline) := [⟨"title", none, .whole⟩, ⟨"command", none, Command.outline⟩]

def outline : Outline := .record fields 2

/-- The fields of `v` are those of `c`. -/
def FieldsOf (v : Json) (c : ListedCommand) : Prop :=
  Required string (field? fields 0 v) c.title ∧ Required Command.decode (field? fields 1 v) c.command

theorem decode_eq_ok_iff {v : Json} {c : ListedCommand} :
    decode v = .ok c ↔ Shaped fields 2 v ∧ FieldsOf v c :=
  record_two_eq_ok_iff fun _ _ _ _ => mk.inj

theorem tolerates : Tolerates outline decode :=
  tolerates_record (by decide) (fun _ _ => decode_eq_ok_iff) fun _ _ _ hk ⟨ht, hc⟩ =>
    ⟨ht.kept (tolerates_whole _) (hk 0 _ rfl), hc.kept Command.tolerates (hk 1 _ rfl)⟩

theorem decode_toJson (c : ListedCommand) : decode c.toJson = .ok c :=
  decode_eq_ok_iff.mpr ⟨trivial, ⟨_, rfl, rfl⟩, ⟨_, rfl, c.command.decode_toJson⟩⟩

end ListedCommand

namespace CommandListing

def fields : List (Field Outline) := [⟨"commands", none, .list ListedCommand.outline⟩]

def outline : Outline := .record fields 1

/-- The field of `v` is that of `l`. -/
def FieldsOf (v : Json) (l : CommandListing) : Prop :=
  Required (list ListedCommand.decode) (field? fields 0 v) l.commands

theorem decode_eq_ok_iff {v : Json} {l : CommandListing} :
    decode v = .ok l ↔ Shaped fields 1 v ∧ FieldsOf v l := by
  refine record_eq_ok_iff (P := (FieldsOf · l)) (fun ms => ?_) (fun js => ?_) v
  · simp only [bind_eq_ok_iff, required_eq_ok_iff]
    constructor
    · rintro ⟨_, hc, commands, rfl, he⟩
      cases he
      exact present_eq_ok_some_iff.mp hc
    · exact fun hc => ⟨_, present_eq_ok_some_iff.mpr hc, _, rfl, rfl⟩
  · simp only [bind_eq_ok_iff, element_eq_ok_iff, noMore_eq_ok_iff]
    constructor
    · rintro ⟨commands, hc, _, hlength, he⟩
      cases he
      exact ⟨⟨Required.lt_length hc, hlength⟩, hc⟩
    · rintro ⟨⟨-, hlength⟩, hc⟩
      exact ⟨_, hc, (), hlength, rfl⟩

theorem tolerates : Tolerates outline decode :=
  tolerates_record (by decide) (fun _ _ => decode_eq_ok_iff) fun _ _ _ hk hc =>
    Required.kept (tolerates_list ListedCommand.tolerates) (hk 0 _ rfl) hc

theorem decode_toJson (l : CommandListing) : decode l.toJson = .ok l :=
  decode_eq_ok_iff.mpr ⟨trivial, _, rfl, elements_map fun c _ => c.decode_toJson⟩

end CommandListing

/-! ## 4. Code lenses and document links -/

namespace CodeLens

def fields : List (Field Outline) :=
  [⟨"range", none, Range.outline⟩, ⟨"command", some .null, Command.outline⟩, ⟨"data", some .null, .whole⟩]

def outline : Outline := .record fields 3

/-- The fields of `v` are those of `l`. -/
def FieldsOf (v : Json) (l : CodeLens) : Prop :=
  Required Range.decode (field? fields 0 v) l.range ∧
    Defaulted none (nullable Command.decode) (field? fields 1 v) l.command ∧
    Defaulted none (nullable any) (field? fields 2 v) l.data

theorem decode_eq_ok_iff {v : Json} {l : CodeLens} : decode v = .ok l ↔ Shaped fields 3 v ∧ FieldsOf v l := by
  refine record_eq_ok_iff (P := (FieldsOf · l)) (fun ms => ?_) (fun js => ?_) v
  · simp only [bind_eq_ok_iff, required_eq_ok_iff, join_eq_getD]
    constructor
    · rintro ⟨_, hc, _, hd, _, hr, range, rfl, he⟩
      cases he
      exact ⟨present_eq_ok_some_iff.mp hr, exists_present_iff.mp ⟨_, hc, rfl⟩,
        exists_present_iff.mp ⟨_, hd, rfl⟩⟩
    · rintro ⟨hr, hc, hd⟩
      obtain ⟨command, hc, hce⟩ := exists_present_iff.mpr hc
      obtain ⟨data, hd, hde⟩ := exists_present_iff.mpr hd
      refine ⟨_, hc, _, hd, _, present_eq_ok_some_iff.mpr hr, _, rfl, ?_⟩
      rw [hce, hde]
      rfl
  · simp only [bind_eq_ok_iff, element_eq_ok_iff, noMore_eq_ok_iff]
    constructor
    · rintro ⟨range, hr, command, hc, data, hd, _, hlength, he⟩
      cases he
      exact ⟨⟨Required.lt_length hd, hlength⟩, hr, .inr hc, .inr hd⟩
    · rintro ⟨⟨hleast, hlength⟩, hr, hc, hd⟩
      exact ⟨_, hr, _, hc.required (Nat.lt_of_succ_lt hleast), _, hd.required hleast, (), hlength, rfl⟩

theorem tolerates : Tolerates outline decode :=
  tolerates_record (by decide) (fun _ _ => decode_eq_ok_iff) fun _ _ _ hk ⟨hr, hc, hd⟩ =>
    ⟨hr.kept Range.tolerates (hk 0 _ rfl),
      hc.kept (tolerates_nullable Command.tolerates) (by rintro _ ⟨⟩; rfl) (hk 1 _ rfl),
      hd.kept (tolerates_whole _) (by rintro _ ⟨⟩; rfl) (hk 2 _ rfl)⟩

theorem data_ne_null {v : Json} {l : CodeLens} (h : decode v = .ok l) : l.data ≠ some .null := by
  obtain ⟨-, -, -, hdata⟩ := decode_eq_ok_iff.mp h
  exact ne_null_of_defaulted hdata

theorem decode_toJson {l : CodeLens} (hdata : l.data ≠ some .null) : decode l.toJson = .ok l := by
  refine decode_eq_ok_iff.mpr ⟨trivial, ⟨l.range.toJson, ?_, l.range.decode_toJson⟩, ?_, ?_⟩
  · simp [field?, fields, toJson, member?_append, member?_cons]
  · have hfield : field? fields 1 l.toJson = l.command.map Command.toJson := by
      simp [field?, fields, toJson, member?_append, member?_cons]
    rw [hfield]
    exact defaulted_map fun c _ => ⟨fun e => (by cases e), c.decode_toJson⟩
  · have hfield : field? fields 2 l.toJson = l.data.map id := by
      simp [field?, fields, toJson, member?_append, member?_cons]
    rw [hfield]
    exact defaulted_map fun j hj => ⟨fun e => hdata (hj.trans (congrArg some e)), rfl⟩

end CodeLens

namespace DocumentLink

def fields : List (Field Outline) :=
  [⟨"range", none, Range.outline⟩, ⟨"target", some .null, .whole⟩, ⟨"tooltip", some .null, .whole⟩,
    ⟨"data", some .null, .whole⟩]

def outline : Outline := .record fields 4

/-- The fields of `v` are those of `l`. -/
def FieldsOf (v : Json) (l : DocumentLink) : Prop :=
  Required Range.decode (field? fields 0 v) l.range ∧
    Defaulted none (nullable Url.decode) (field? fields 1 v) l.target ∧
    Defaulted none (nullable string) (field? fields 2 v) l.tooltip ∧
    Defaulted none (nullable any) (field? fields 3 v) l.data

theorem decode_eq_ok_iff {v : Json} {l : DocumentLink} :
    decode v = .ok l ↔ Shaped fields 4 v ∧ FieldsOf v l := by
  refine record_eq_ok_iff (P := (FieldsOf · l)) (fun ms => ?_) (fun js => ?_) v
  · simp only [bind_eq_ok_iff, required_eq_ok_iff, join_eq_getD]
    constructor
    · rintro ⟨_, hd, _, hr, _, ht, _, hp, range, rfl, he⟩
      cases he
      exact ⟨present_eq_ok_some_iff.mp hr, exists_present_iff.mp ⟨_, ht, rfl⟩,
        exists_present_iff.mp ⟨_, hp, rfl⟩, exists_present_iff.mp ⟨_, hd, rfl⟩⟩
    · rintro ⟨hr, ht, hp, hd⟩
      obtain ⟨target, ht, hte⟩ := exists_present_iff.mpr ht
      obtain ⟨tooltip, hp, hpe⟩ := exists_present_iff.mpr hp
      obtain ⟨data, hd, hde⟩ := exists_present_iff.mpr hd
      refine ⟨_, hd, _, present_eq_ok_some_iff.mpr hr, _, ht, _, hp, _, rfl, ?_⟩
      rw [hte, hpe, hde]
      rfl
  · simp only [bind_eq_ok_iff, element_eq_ok_iff, noMore_eq_ok_iff]
    constructor
    · rintro ⟨range, hr, target, ht, tooltip, hp, data, hd, _, hlength, he⟩
      cases he
      exact ⟨⟨Required.lt_length hd, hlength⟩, hr, .inr ht, .inr hp, .inr hd⟩
    · rintro ⟨⟨hleast, hlength⟩, hr, ht, hp, hd⟩
      have hthree : 3 ≤ js.length := Nat.le_of_succ_le hleast
      exact ⟨_, hr, _, ht.required (Nat.lt_of_succ_lt hthree), _, hp.required hthree, _, hd.required hleast,
        (), hlength, rfl⟩

theorem tolerates : Tolerates outline decode :=
  tolerates_record (by decide) (fun _ _ => decode_eq_ok_iff) fun _ _ _ hk ⟨hr, ht, hp, hd⟩ =>
    ⟨hr.kept Range.tolerates (hk 0 _ rfl), ht.kept (tolerates_whole _) (by rintro _ ⟨⟩; rfl) (hk 1 _ rfl),
      hp.kept (tolerates_whole _) (by rintro _ ⟨⟩; rfl) (hk 2 _ rfl),
      hd.kept (tolerates_whole _) (by rintro _ ⟨⟩; rfl) (hk 3 _ rfl)⟩

theorem data_ne_null {v : Json} {l : DocumentLink} (h : decode v = .ok l) : l.data ≠ some .null := by
  obtain ⟨-, -, -, -, hdata⟩ := decode_eq_ok_iff.mp h
  exact ne_null_of_defaulted hdata

/-- The text of the target is read as a URL once more. -/
theorem decode_toJson {l : DocumentLink} (hdata : l.data ≠ some .null)
    (htarget : ∀ u ∈ l.target, Url.parse u.text = .ok u) : decode l.toJson = .ok l := by
  refine decode_eq_ok_iff.mpr ⟨trivial, ⟨l.range.toJson, ?_, l.range.decode_toJson⟩, ?_, ?_, ?_⟩
  · simp [field?, fields, toJson, member?_append, member?_cons]
  · have hfield : field? fields 1 l.toJson = l.target.map fun u => .str u.text := by
      simp [field?, fields, toJson, member?_append, member?_cons]
    rw [hfield]
    refine defaulted_map fun u hu => ⟨fun e => (by cases e), ?_⟩
    rw [Url.decode, htarget u hu]
  · have hfield : field? fields 2 l.toJson = l.tooltip.map .str := by
      simp [field?, fields, toJson, member?_append, member?_cons]
    rw [hfield]
    exact defaulted_map fun s _ => ⟨fun e => (by cases e), rfl⟩
  · have hfield : field? fields 3 l.toJson = l.data.map id := by
      simp [field?, fields, toJson, member?_append, member?_cons]
    rw [hfield]
    exact defaulted_map fun j hj => ⟨fun e => hdata (hj.trans (congrArg some e)), rfl⟩

end DocumentLink

/-! ## 5. Output of an execution -/

namespace ExecutionOutput

/-- What is not said to be bold is not bold, in an object as in an array. -/
def fields : List (Field Outline) :=
  [⟨"message", none, .whole⟩, ⟨"messageType", none, .whole⟩, ⟨"bold", some (.bool false), .whole⟩]

def outline : Outline := .record fields 2

/-- The fields of `v` are those of `o`. -/
def FieldsOf (v : Json) (o : ExecutionOutput) : Prop :=
  Required string (field? fields 0 v) o.message ∧ Required i64 (field? fields 1 v) o.messageType ∧
    Defaulted false boolean (field? fields 2 v) o.bold

theorem decode_eq_ok_iff {v : Json} {o : ExecutionOutput} :
    decode v = .ok o ↔ Shaped fields 2 v ∧ FieldsOf v o := by
  refine record_eq_ok_iff (P := (FieldsOf · o)) (fun ms => ?_) (fun js => ?_) v
  · simp only [bind_eq_ok_iff, required_eq_ok_iff]
    constructor
    · rintro ⟨_, hb, _, hm, _, ht, message, rfl, messageType, rfl, he⟩
      cases he
      exact ⟨present_eq_ok_some_iff.mp hm, present_eq_ok_some_iff.mp ht, exists_present_iff.mp ⟨_, hb, rfl⟩⟩
    · rintro ⟨hm, ht, hb⟩
      obtain ⟨bold, hb, he⟩ := exists_present_iff.mpr hb
      refine ⟨_, hb, _, present_eq_ok_some_iff.mpr hm, _, present_eq_ok_some_iff.mpr ht, _, rfl, _, rfl, ?_⟩
      rw [he]
      rfl
  · simp only [bind_eq_ok_iff, element_eq_ok_iff, elementOr_eq_ok_iff, noMore_eq_ok_iff]
    constructor
    · rintro ⟨message, hm, messageType, ht, bold, hb, _, hlength, he⟩
      cases he
      exact ⟨⟨Required.lt_length ht, hlength⟩, hm, ht, hb⟩
    · rintro ⟨⟨-, hlength⟩, hm, ht, hb⟩
      exact ⟨_, hm, _, ht, _, hb, (), hlength, rfl⟩

theorem tolerates : Tolerates outline decode :=
  tolerates_record (by decide) (fun _ _ => decode_eq_ok_iff) fun _ _ _ hk ⟨hm, ht, hb⟩ =>
    ⟨hm.kept (tolerates_whole _) (hk 0 _ rfl), ht.kept (tolerates_whole _) (hk 1 _ rfl),
      hb.kept (tolerates_whole _) (by rintro _ ⟨⟩; rfl) (hk 2 _ rfl)⟩

theorem decode_toJson (o : ExecutionOutput) : decode o.toJson = .ok o :=
  decode_eq_ok_iff.mpr ⟨trivial, ⟨_, rfl, rfl⟩, ⟨_, rfl, i64_eq_ok_iff.mpr rfl⟩, .inr ⟨_, rfl, rfl⟩⟩

/-- Null does not say whether the chunk is bold. -/
theorem exists_decode_error_of_bold_null {v : Json} (h : field? fields 2 v = some .null) :
    ∃ cause, decode v = .error cause := by
  cases hv : decode v with
  | error cause => exact ⟨cause, rfl⟩
  | ok o =>
    obtain ⟨-, -, -, hb⟩ := decode_eq_ok_iff.mp hv
    obtain ⟨hnone, -⟩ | ⟨j, hj, hread⟩ := hb
    · rw [h] at hnone
      cases hnone
    · rw [h] at hj
      cases hj
      cases hread

end ExecutionOutput

/-! ## 6. Messages for the user -/

namespace ShownMessage

/-- The kind and the text of a message, as they are written: two members, or an array of both. -/
def written? : Json → Option (Int × String)
  | .obj ms =>
    match Json.member? "type" ms, Json.member? "message" ms with
    | some (.int kind), some (.str message) => some (kind, message)
    | _, _ => none
  | .arr [.int kind, .str message] => some (kind, message)
  | _ => none

def fields : List (Field Outline) := [⟨"type", none, .whole⟩, ⟨"message", none, .whole⟩]

theorem decode_eq_ok_iff_fields {what : String} {v : Json} {m : ShownMessage} :
    decode what v = .ok m ↔ Shaped fields 2 v ∧
      Required i32 (field? fields 0 v) m.kind ∧ Required string (field? fields 1 v) m.message :=
  record_two_eq_ok_iff fun _ _ _ _ => mk.inj

/-- **What decodes to a message** is what is written with a kind of 32 bits. -/
theorem decode_eq_ok_iff {what : String} {v : Json} {m : ShownMessage} :
    decode what v = .ok m ↔ written? v = some (m.kind.toInt, m.message) := by
  rw [decode_eq_ok_iff_fields]
  simp only [Required, i32_eq_ok_iff, string_eq_ok_iff, exists_eq_right]
  constructor
  · rintro ⟨hshaped, hkind, hmessage⟩
    cases v with
    | obj ms =>
      have hkind : Json.member? "type" ms = some (.int m.kind.toInt) := hkind
      have hmessage : Json.member? "message" ms = some (.str m.message) := hmessage
      rw [written?, hkind, hmessage]
    | arr js =>
      obtain ⟨a, b, rfl⟩ := List.length_eq_two.mp (Nat.le_antisymm hshaped.2 hshaped.1)
      cases hkind
      cases hmessage
      rfl
    | _ => exact hshaped.elim
  · intro h
    unfold written? at h
    split at h
    · split at h
      · rename_i hkind hmessage
        cases h
        exact ⟨trivial, hkind, hmessage⟩
      · cases h
    · cases h
      exact ⟨⟨Nat.le_refl 2, Nat.le_refl 2⟩, rfl, rfl⟩
    · cases h

end ShownMessage

/-! ## 7. Normal forms -/

/-- What is written for the value is read as the value again, and the same is written for what has been
    read. -/
def NormalForm {α : Type} (read : Decoder α) (write : α → Json) (x : α) : Prop :=
  read (write x) = .ok x ∧ (read (write x)).map write = .ok (write x)

/-- The value is read from `v`, and from `v` written in any other way. -/
def ReadFromAll {α : Type} (o : Outline) (read : Decoder α) (v : Json) (x : α) : Prop :=
  ∀ w, Relation.ReflTransGen (Rewritten o) v w → read w = .ok x

theorem normalForm_of_read {α : Type} {read : Decoder α} {write : α → Json} {x : α}
    (h : read (write x) = .ok x) : NormalForm read write x := ⟨h, by rw [h]; rfl⟩

theorem Tolerates.readFromAll {α : Type} {o : Outline} {read : Decoder α} {v : Json} {x : α}
    (hr : Tolerates o read) (h : read v = .ok x) : ReadFromAll o read v x :=
  fun _ hw => hr.of_reflTransGen hw h

/-- **The values of the protocol have a normal form.** What is written for a value is read as that value, and the
    same is written for what has been read: for the parameters of an execution, a chunk of output and a listing
    of commands, and for code lenses and document links that hold no null as their data, as none does that has
    been read. For a document link, the text of its target has to be read as the same URL.

    But for the parameters, which are an array, a value is read from all ways of writing it: with the members in
    another order, with unknown ones, with null for an absent option, as an array, and so on in the ranges,
    positions and commands inside. Only whether a chunk is bold may be left out and may not be null. -/
theorem normal_forms :
    ((∀ p, NormalForm ExecuteParams.decode ExecuteParams.toJson p) ∧
      (∀ o, NormalForm ExecutionOutput.decode ExecutionOutput.toJson o) ∧
      (∀ l, NormalForm CommandListing.decode CommandListing.toJson l) ∧
      (∀ l : CodeLens, l.data ≠ some .null → NormalForm CodeLens.decode CodeLens.toJson l) ∧
      (∀ v l, CodeLens.decode v = .ok l → l.data ≠ some .null) ∧
      (∀ l : DocumentLink, l.data ≠ some .null → (∀ u ∈ l.target, Url.parse u.text = .ok u) →
        NormalForm DocumentLink.decode DocumentLink.toJson l) ∧
      ∀ v l, DocumentLink.decode v = .ok l → l.data ≠ some .null) ∧
    (∀ v o, ExecutionOutput.decode v = .ok o → ReadFromAll ExecutionOutput.outline ExecutionOutput.decode v o) ∧
    (∀ v, field? ExecutionOutput.fields 2 v = some .null →
      ∃ cause, ExecutionOutput.decode v = .error cause) ∧
    (∀ v l, CommandListing.decode v = .ok l → ReadFromAll CommandListing.outline CommandListing.decode v l) ∧
    (∀ v l, CodeLens.decode v = .ok l → ReadFromAll CodeLens.outline CodeLens.decode v l) ∧
    ∀ v l, DocumentLink.decode v = .ok l → ReadFromAll DocumentLink.outline DocumentLink.decode v l :=
  ⟨⟨fun p => normalForm_of_read p.decode_toJson, fun o => normalForm_of_read o.decode_toJson,
      fun l => normalForm_of_read l.decode_toJson, fun _ h => normalForm_of_read (CodeLens.decode_toJson h),
      fun _ _ => CodeLens.data_ne_null,
      fun _ h htarget => normalForm_of_read (DocumentLink.decode_toJson h htarget),
      fun _ _ => DocumentLink.data_ne_null⟩,
    fun _ _ => ExecutionOutput.tolerates.readFromAll, fun _ => ExecutionOutput.exists_decode_error_of_bold_null,
    fun _ _ => CommandListing.tolerates.readFromAll, fun _ _ => CodeLens.tolerates.readFromAll,
    fun _ _ => DocumentLink.tolerates.readFromAll⟩

/-- The URL of a file. -/
def linkedFile : Url := ⟨"file", true, "", none, "", none, "/m.als", none, none⟩

def linkingRange : Range := ⟨⟨0, 0⟩, ⟨0, 3⟩⟩

/-- A link to the file, with an object for each record. -/
def linkInObjects : Json := .obj [("range", linkingRange.toJson), ("target", .str "file:///m.als")]

/-- The same link with an array for itself and for its range, and with an unknown member in a position. -/
def linkInArrays : Json :=
  .arr [.arr [linkingRange.start.toJson, .obj [("character", .int 3), ("line", .int 0), ("offset", .null)]],
    .str "file:///m.als", .null, .null]

theorem rewritten_link : Relation.ReflTransGen (Rewritten DocumentLink.outline) linkInObjects linkInArrays := by
  have hlink : Rewritten DocumentLink.outline linkInObjects
      (.arr [linkingRange.toJson, .str "file:///m.als", .null, .null]) :=
    .asArray (by decide)
      (.cons (.inl rfl) (.cons (.inl rfl) (.cons (.inr ⟨rfl, rfl⟩) (.cons (.inr ⟨rfl, rfl⟩) .nil))))
      fun _ hmem => (by cases hmem)
  have hrange : Rewritten Range.outline linkingRange.toJson
      (.arr [linkingRange.start.toJson, linkingRange.stop.toJson]) :=
    .asArray (by decide) (.cons (.inl rfl) (.cons (.inl rfl) .nil)) fun _ hmem => (by cases hmem)
  have hposition : Rewritten Position.outline linkingRange.stop.toJson
      (.obj [("character", .int 3), ("line", .int 0), ("offset", .null)]) :=
    @Rewritten.unknown _ _ [_, _] "offset" .null (by decide)
  exact .tail (.tail (.single hlink) (@Rewritten.place _ _ [] _ _ _ _ rfl hrange))
    (@Rewritten.place _ _ [] _ _ _ _ rfl (@Rewritten.place _ _ [_] _ _ _ _ rfl hposition))

/-- Both are read as the same link, and what is written for it is read as that link as well. -/
theorem normal_forms_link :
    ∃ l, DocumentLink.decode linkInObjects = .ok l ∧ l.target = some linkedFile ∧
      Url.parse linkedFile.text = .ok linkedFile ∧
      NormalForm DocumentLink.decode DocumentLink.toJson l ∧ DocumentLink.decode linkInArrays = .ok l := by
  have hread : DocumentLink.decode linkInObjects = .ok ⟨linkingRange, some linkedFile, none, none⟩ := by rfl
  have hparse : Url.parse linkedFile.text = .ok linkedFile := by rfl
  obtain ⟨⟨-, -, -, -, -, hnormal, hdata⟩, -, -, -, -, hall⟩ := normal_forms
  exact ⟨_, hread, rfl, hparse, hnormal _ (hdata _ _ hread) (by rintro _ ⟨⟩; exact hparse),
    hall _ _ hread _ rewritten_link⟩

end EditorBridge
