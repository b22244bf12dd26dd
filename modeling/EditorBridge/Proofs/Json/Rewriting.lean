import Mathlib.Data.List.Forall2
import Mathlib.Data.List.Nodup
import Mathlib.Logic.Relation
import EditorBridge.Proofs.Json.Decode
import EditorBridge.Proofs.Json.RoundTrip

/-!
# One value, written in several ways

A decoder looks at a part of a JSON value only: an `Outline` says at which. Within that outline the same
value can be written in other ways (`Rewritten`): with members in another order or unknown ones, with what
stands for a field that is absent, as an array in place of an object, and so on for the values inside.

* `field?` -- the value of a field, by its name in an object and by its place in an array;
* `kept_of_rewritten` -- what becomes of the fields when a record is written in another way (`Kept`);
* `Required`, `Defaulted` -- what a decoder makes of a field; `Required.kept`, `Defaulted.kept`;
* **`tolerates_record`**, `tolerates_list`, `tolerates_nullable` -- so a decoder that goes by its fields
  reads the same value from all of them (`Tolerates`).
-/

namespace EditorBridge

open Json (member? member?_append member?_cons member?_perm)

/-! ## 1. What is looked at -/

/-- A field of a record. -/
structure Field (α : Type) where
  name : String
  /-- What may stand for the field where it is absent; nothing for a field that has to be there. -/
  absent : Option Json
  outline : α

/-- What a decoder looks at. -/
inductive Outline where
  /-- The value as it is. -/
  | whole
  | list (element : Outline)
  /-- The fields in the order of their declaration; an array has to have the first `least` of them. -/
  | record (fields : List (Field Outline)) (least : Nat)

/-- The value of the field with the number `i`. -/
def field? (fs : List (Field Outline)) (i : Nat) : Json → Option Json
  | .obj ms => fs[i]?.bind fun f => member? f.name ms
  | .arr js => js[i]?
  | _ => none

/-- The value is an object, or an array of as many elements as the record allows. -/
def Shaped (fs : List (Field Outline)) (least : Nat) : Json → Prop
  | .obj _ => True
  | .arr js => least ≤ js.length ∧ js.length ≤ fs.length
  | _ => False

/-! ## 2. Other ways of writing -/

/-- The value of a field in an array that is written for the members of an object. -/
def StandsFor (ms : List (String × Json)) (f : Field Outline) (j : Json) : Prop :=
  member? f.name ms = some j ∨ member? f.name ms = none ∧ f.absent = some j

/-- `w` is `v` with one change to the way in which it is written. -/
inductive Rewritten : Outline → Json → Json → Prop
  /-- The members of an object, in another order. -/
  | reordered {fs : List (Field Outline)} {least : Nat} {ms ns : List (String × Json)}
      (hkeys : (ms.map Prod.fst).Nodup) (hp : ms.Perm ns) :
      Rewritten (.record fs least) (.obj ms) (.obj ns)
  /-- A further member, which is unknown. -/
  | unknown {fs : List (Field Outline)} {least : Nat} {ms : List (String × Json)} {key : String}
      (value : Json) (hkey : ∀ f ∈ fs, f.name ≠ key) :
      Rewritten (.record fs least) (.obj ms) (.obj (ms ++ [(key, value)]))
  /-- What may stand for an absent field, written out. -/
  | writtenOut {fs : List (Field Outline)} {least : Nat} {ms : List (String × Json)} {f : Field Outline}
      {value : Json} (hf : f ∈ fs) (hvalue : f.absent = some value) (hnone : member? f.name ms = none) :
      Rewritten (.record fs least) (.obj ms) (.obj (ms ++ [(f.name, value)]))
  /-- The array of the fields. Those that an array does not have to have may be left out if they are
      absent. -/
  | asArray {fs : List (Field Outline)} {least : Nat} {ms : List (String × Json)} {js : List Json}
      (hleast : least ≤ js.length) (hfields : List.Forall₂ (StandsFor ms) (fs.take js.length) js)
      (hrest : ∀ f ∈ fs.drop js.length, member? f.name ms = none) :
      Rewritten (.record fs least) (.obj ms) (.arr js)
  /-- A change inside a member. -/
  | member {fs : List (Field Outline)} {least : Nat} {before after : List (String × Json)}
      {f : Field Outline} {j j' : Json} (hf : f ∈ fs) (h : Rewritten f.outline j j') :
      Rewritten (.record fs least) (.obj (before ++ (f.name, j) :: after))
        (.obj (before ++ (f.name, j') :: after))
  /-- A change inside an element of the array of the fields. -/
  | place {fs : List (Field Outline)} {least : Nat} {before after : List Json} {f : Field Outline}
      {j j' : Json} (hf : fs[before.length]? = some f) (h : Rewritten f.outline j j') :
      Rewritten (.record fs least) (.arr (before ++ j :: after)) (.arr (before ++ j' :: after))
  /-- A change inside an element of a list. -/
  | element {o : Outline} {before after : List Json} {j j' : Json} (h : Rewritten o j j') :
      Rewritten (.list o) (.arr (before ++ j :: after)) (.arr (before ++ j' :: after))

/-- The decoder reads the same value, however it is written. -/
def Tolerates {α : Type} (o : Outline) (read : Decoder α) : Prop :=
  ∀ v w x, Rewritten o v w → read v = .ok x → read w = .ok x

/-! ## 3. Fields -/

/-- What becomes of a field when the record is written in another way: nothing, or it was absent and is
    written out, or there is a change inside. -/
inductive Kept (f : Field Outline) : Option Json → Option Json → Prop
  | same (o : Option Json) : Kept f o o
  | writtenOut : Kept f none f.absent
  | inside {j j' : Json} (h : Rewritten f.outline j j') : Kept f (some j) (some j')

theorem ne_null_of_rewritten {o : Outline} {v w : Json} (h : Rewritten o v w) : v ≠ .null ∧ w ≠ .null := by
  cases h <;> exact ⟨fun e => (by cases e), fun e => (by cases e)⟩

section Records

variable {fs : List (Field Outline)} {least : Nat} {v w : Json} {i : Nat} {f : Field Outline}

theorem eq_of_name (hnames : (fs.map Field.name).Nodup) {f g : Field Outline} (hf : f ∈ fs) (hg : g ∈ fs)
    (h : f.name = g.name) : f = g := List.inj_on_of_nodup_map hnames hf hg h

/-- What becomes of a field of an object to which a member is added. -/
theorem kept_append {ms : List (String × Json)} {key : String} {value : Json} {f : Field Outline}
    (h : f.name = key → member? key ms = none ∧ f.absent = some value) :
    Kept f (member? f.name ms) (member? f.name (ms ++ [(key, value)])) := by
  rw [member?_append, member?_cons]
  by_cases hk : key = f.name
  · obtain ⟨hnone, hvalue⟩ := h hk.symm
    subst hk
    rw [hnone, if_pos rfl, Option.none_or, ← hvalue]
    exact .writtenOut
  · rw [if_neg hk, Json.member?_nil, Option.or_none]
    exact .same _

/-- What becomes of a field of an object in which there is a change inside a member. -/
theorem kept_member {before after : List (String × Json)} {key : String} {j j' : Json}
    (h : f.name = key → Rewritten f.outline j j') :
    Kept f (member? f.name (before ++ (key, j) :: after)) (member? f.name (before ++ (key, j') :: after)) := by
  rw [member?_append, member?_append, member?_cons, member?_cons]
  cases member? f.name before with
  | some v =>
    rw [Option.some_or, Option.some_or]
    exact .same _
  | none =>
    rw [Option.none_or, Option.none_or]
    by_cases hk : key = f.name
    · rw [if_pos hk, if_pos hk]
      exact .inside (h hk.symm)
    · rw [if_neg hk, if_neg hk]
      exact .same _

theorem getElem?_append_cons_of_ne {α : Type} {before after : List α} {x y : α} (h : i ≠ before.length) :
    (before ++ x :: after)[i]? = (before ++ y :: after)[i]? := by
  obtain hlt | hgt := Nat.lt_or_gt_of_ne h
  · rw [List.getElem?_append_left hlt, List.getElem?_append_left hlt]
  · obtain ⟨k, rfl⟩ := Nat.exists_eq_add_of_lt hgt
    rw [List.getElem?_append_right (by omega), List.getElem?_append_right (by omega), Nat.add_assoc,
      Nat.add_sub_cancel_left, List.getElem?_cons_succ, List.getElem?_cons_succ]

/-- What becomes of a field of an object that is written as an array. -/
theorem kept_asArray {ms : List (String × Json)} {js : List Json}
    (hfields : List.Forall₂ (StandsFor ms) (fs.take js.length) js)
    (hrest : ∀ f ∈ fs.drop js.length, member? f.name ms = none) (hf : fs[i]? = some f) :
    Kept f (member? f.name ms) js[i]? := by
  cases hj : js[i]? with
  | none =>
    have hle : js.length ≤ i := List.getElem?_eq_none_iff.mp hj
    have hmem : f ∈ fs.drop js.length := by
      refine List.mem_of_getElem? (i := i - js.length) ?_
      rw [List.getElem?_drop, Nat.add_sub_cancel' hle, hf]
    rw [hrest f hmem]
    exact .same _
  | some j =>
    obtain ⟨hlt, hget⟩ := List.getElem?_eq_some_iff.mp hj
    obtain ⟨hltf, hgetf⟩ := List.getElem?_eq_some_iff.mp hf
    have hlta : i < (fs.take js.length).length := by
      rw [List.length_take]
      omega
    have hstands : StandsFor ms f j := by
      have hboth := hfields.get hlta hlt
      rwa [List.get_eq_getElem, List.get_eq_getElem, List.getElem_take, hgetf, hget] at hboth
    obtain hmember | ⟨hnone, hvalue⟩ := hstands
    · rw [hmember]
      exact .same _
    · rw [hnone, ← hvalue]
      exact .writtenOut

/-- **What becomes of the fields** when a record is written in another way. -/
theorem kept_of_rewritten (hnames : (fs.map Field.name).Nodup) (h : Rewritten (.record fs least) v w)
    (hv : Shaped fs least v) :
    Shaped fs least w ∧ ∀ i f, fs[i]? = some f → Kept f (field? fs i v) (field? fs i w) := by
  cases h with
  | reordered hkeys hp =>
    refine ⟨trivial, fun i f hf => ?_⟩
    simp only [field?, hf, Option.bind_some, member?_perm hp hkeys]
    exact .same _
  | unknown value hkey =>
    refine ⟨trivial, fun i f hf => ?_⟩
    simp only [field?, hf, Option.bind_some]
    exact kept_append fun e => absurd e (hkey f (List.mem_of_getElem? hf))
  | @writtenOut _ _ _ g value hg hvalue hnone =>
    refine ⟨trivial, fun i f hf => ?_⟩
    simp only [field?, hf, Option.bind_some]
    refine kept_append fun e => ⟨hnone, ?_⟩
    rw [eq_of_name hnames (List.mem_of_getElem? hf) hg e, hvalue]
  | asArray hleast hfields hrest =>
    refine ⟨⟨hleast, ?_⟩, fun i f hf => ?_⟩
    · have hlength := hfields.length_eq
      rw [List.length_take] at hlength
      omega
    · simp only [field?, hf, Option.bind_some]
      exact kept_asArray hfields hrest hf
  | @member _ _ _ _ g j j' hg hin =>
    refine ⟨trivial, fun i f hf => ?_⟩
    simp only [field?, hf, Option.bind_some]
    exact kept_member fun e => (eq_of_name hnames (List.mem_of_getElem? hf) hg e).symm ▸ hin
  | @place _ _ before _ g j j' hg hin =>
    refine ⟨by simpa [Shaped] using hv, fun i f hf => ?_⟩
    simp only [field?]
    by_cases hi : i = before.length
    · subst hi
      cases hg.symm.trans hf
      simpa using .inside hin
    · rw [getElem?_append_cons_of_ne hi]
      exact .same _

end Records

/-! ## 4. What a decoder makes of a field -/

section Fields

variable {α : Type} {read : Decoder α} {default x : α} {f : Field Outline} {o o' : Option Json}

/-- The field is there and decodes to `x`. -/
def Required (read : Decoder α) (o : Option Json) (x : α) : Prop := ∃ j, o = some j ∧ read j = .ok x

/-- The field decodes to `x`, which is `default` where the field is absent. -/
def Defaulted (default : α) (read : Decoder α) (o : Option Json) (x : α) : Prop :=
  o = none ∧ x = default ∨ Required read o x

theorem Required.kept (hr : Tolerates f.outline read) (hk : Kept f o o') (h : Required read o x) :
    Required read o' x := by
  obtain ⟨j, rfl, hj⟩ := h
  cases hk with
  | same => exact ⟨j, rfl, hj⟩
  | inside hin => exact ⟨_, rfl, hr _ _ _ hin hj⟩

/-- A field that may be absent reads the same when that which may stand for it reads as the default. -/
theorem Defaulted.kept (hr : Tolerates f.outline read) (habsent : ∀ d ∈ f.absent, read d = .ok default)
    (hk : Kept f o o') (h : Defaulted default read o x) : Defaulted default read o' x := by
  obtain ⟨rfl, rfl⟩ | ⟨j, rfl, hj⟩ := h
  · cases hk with
    | same => exact .inl ⟨rfl, rfl⟩
    | writtenOut =>
      cases hd : f.absent with
      | none => exact .inl ⟨rfl, rfl⟩
      | some d => exact .inr ⟨d, rfl, habsent d hd⟩
  · cases hk with
    | same => exact .inr ⟨j, rfl, hj⟩
    | inside hin => exact .inr ⟨_, rfl, hr _ _ _ hin hj⟩

theorem Required.lt_length {js : List Json} {i : Nat} (h : Required read js[i]? x) : i < js.length := by
  obtain ⟨j, hj, -⟩ := h
  exact (List.getElem?_eq_some_iff.mp hj).1

/-- A field that is there is not defaulted. -/
theorem Defaulted.required {js : List Json} {i : Nat} (h : Defaulted default read js[i]? x)
    (hi : i < js.length) : Required read js[i]? x := by
  obtain ⟨hnone, -⟩ | h := h
  · rw [List.getElem?_eq_getElem hi] at hnone
    cases hnone
  · exact h

end Fields

/-! ## 5. Decoders that go by their fields -/

section Decoders

variable {α : Type} {read : Decoder α} {x : α}

namespace Decode

theorem required_eq_ok_iff {field : String} {o : Option α} : required field o = .ok x ↔ o = some x := by
  cases o with
  | none => exact ⟨fun h => (by cases h), fun h => (by cases h)⟩
  | some y => simp [required]

/-- A member that is looked for and must be there. -/
theorem present_eq_ok_some_iff {ms : List (String × Json)} {field : String} :
    present ms field read = .ok (some x) ↔ Required read (Json.member? field ms) x := by
  rw [present, Required]
  cases Json.member? field ms with
  | none => simp
  | some j => simp [map_eq_ok_iff]

/-- A member that may be missing. -/
theorem exists_present_iff {ms : List (String × Json)} {field : String} {default : α} :
    (∃ o, present ms field read = .ok o ∧ o.getD default = x) ↔
      Defaulted default read (Json.member? field ms) x := by
  rw [present, Defaulted, Required]
  cases Json.member? field ms with
  | none => simp [eq_comm]
  | some j => simp [map_eq_ok_iff]

theorem elementOr_eq_ok_iff {js : List Json} {i : Nat} {default : α} :
    elementOr default js i read = .ok x ↔ Defaulted default read js[i]? x := by
  rw [elementOr, Defaulted, Required]
  cases js[i]? with
  | none => simp [eq_comm]
  | some j => simp

/-- A record by its fields, which are looked up in two ways. -/
theorem record_eq_ok_iff {what : String} {ofMembers : List (String × Json) → Except DecodeError α}
    {ofElements : List Json → Except DecodeError α} {fs : List (Field Outline)} {least : Nat}
    {P : Json → Prop} (hm : ∀ ms, ofMembers ms = .ok x ↔ P (.obj ms))
    (he : ∀ js, ofElements js = .ok x ↔ Shaped fs least (.arr js) ∧ P (.arr js)) (v : Json) :
    record what ofMembers ofElements v = .ok x ↔ Shaped fs least v ∧ P v := by
  cases v with
  | obj ms => exact (hm ms).trans ⟨fun h => ⟨trivial, h⟩, And.right⟩
  | arr js => exact he js
  | _ => simp [record, expected, Shaped]

end Decode

theorem tolerates_whole (read : Decoder α) : Tolerates .whole read := fun _ _ _ h => by cases h

theorem tolerates_nullable {o : Outline} (hr : Tolerates o read) : Tolerates o (Decode.nullable read) := by
  intro v w x h hv
  obtain ⟨hvnull, hwnull⟩ := ne_null_of_rewritten h
  rw [Decode.nullable.eq_2 _ _ hvnull, map_eq_ok_iff] at hv
  obtain ⟨y, hy, rfl⟩ := hv
  rw [Decode.nullable.eq_2 _ _ hwnull, hr v w y h hy]
  rfl

/-- A change inside an element. -/
theorem elements_of_rewritten {o : Outline} (hr : Tolerates o read) {after : List Json} {j j' : Json}
    (h : Rewritten o j j') : ∀ (before : List Json) (xs : List α),
      Decode.elements read (before ++ j :: after) = .ok xs →
        Decode.elements read (before ++ j' :: after) = .ok xs
  | [], xs, hxs => by
    simp only [List.nil_append, Decode.elements, bind_eq_ok_iff] at hxs ⊢
    obtain ⟨y, hy, hrest⟩ := hxs
    exact ⟨y, hr j j' y h hy, hrest⟩
  | e :: before, xs, hxs => by
    simp only [List.cons_append, Decode.elements, bind_eq_ok_iff] at hxs ⊢
    obtain ⟨y, hy, ys, hys, hlist⟩ := hxs
    exact ⟨y, hy, ys, elements_of_rewritten hr h before ys hys, hlist⟩

theorem tolerates_list {o : Outline} (hr : Tolerates o read) : Tolerates (.list o) (Decode.list read) := by
  intro v w xs h hv
  cases h with
  | element h => exact elements_of_rewritten hr h _ xs hv

/-- **A decoder that goes by its fields reads the same value, however the record is written.** -/
theorem tolerates_record {fs : List (Field Outline)} {least : Nat} {P : Json → α → Prop}
    (hnames : (fs.map Field.name).Nodup) (hread : ∀ v x, read v = .ok x ↔ Shaped fs least v ∧ P v x)
    (hkept : ∀ v w x, (∀ i f, fs[i]? = some f → Kept f (field? fs i v) (field? fs i w)) → P v x → P w x) :
    Tolerates (.record fs least) read := by
  intro v w x h hv
  obtain ⟨hshaped, hP⟩ := (hread v x).mp hv
  obtain ⟨hshaped', hk⟩ := kept_of_rewritten hnames h hshaped
  exact (hread w x).mpr ⟨hshaped', hkept v w x hk hP⟩

/-- Any number of changes. -/
theorem Tolerates.of_reflTransGen {o : Outline} (hr : Tolerates o read) {v w : Json}
    (h : Relation.ReflTransGen (Rewritten o) v w) (hv : read v = .ok x) : read w = .ok x := by
  induction h with
  | refl => exact hv
  | tail _ hlast ih => exact hr _ _ x hlast ih

end Decoders

end EditorBridge
