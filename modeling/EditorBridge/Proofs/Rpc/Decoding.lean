import EditorBridge.Rpc.Message
import Mathlib.Data.List.Nodup

/-!
# What decodes

The members of a message are listed in an object under their names, or in an array by their places
(`Envelope.Of`). A null stands for a missing member, none of the five names may come twice, and any other
member is passed over. A message decodes if each member that is there has its type (`Message.IsIn`): an
identifier is an integer of 64 bits or a string, a method is a string, and an error has a code and a message
and no other member but data (`IsError`).

* `Envelope.of?_eq_some_iff`, `readId?_eq_some_iff`, `readMethod?_eq_some_iff`, `readError?_eq_some_iff` -- the
  members, and the type of each;
* **`Message.ofBody?_eq_some_iff`** -- the bodies that decode, and as what.
-/

namespace EditorBridge.Rpc

open Json (Source Piece stringText? maxDepth)

/-! ## 1. Members with names -/

/-- The members of an object with their names, if all names can be read. -/
def named? : List (List Piece × Source) → Option (List (String × Source))
  | [] => some []
  | (k, x) :: ms => (stringText? k).bind fun name => (named? ms).map ((name, x) :: ·)

theorem named?_cons_eq_some_iff {k : List Piece} {x : Source} {ms : List (List Piece × Source)}
    {xs : List (String × Source)} :
    named? ((k, x) :: ms) = some xs ↔
      ∃ name rest, stringText? k = some name ∧ named? ms = some rest ∧ xs = (name, x) :: rest := by
  rw [named?, Option.bind_eq_some_iff]
  constructor
  · rintro ⟨name, hname, h⟩
    obtain ⟨rest, hrest, rfl⟩ := Option.map_eq_some_iff.mp h
    exact ⟨name, rest, hname, hrest, rfl⟩
  · rintro ⟨name, rest, hname, hrest, rfl⟩
    exact ⟨name, hname, Option.map_eq_some_iff.mpr ⟨rest, hrest, rfl⟩⟩

theorem exists_named?_cons_iff {k : List Piece} {x : Source} {ms : List (List Piece × Source)}
    {P : List (String × Source) → Prop} :
    (∃ xs, named? ((k, x) :: ms) = some xs ∧ P xs) ↔
      ∃ name, stringText? k = some name ∧ ∃ xs, named? ms = some xs ∧ P ((name, x) :: xs) := by
  simp only [named?_cons_eq_some_iff]
  constructor
  · rintro ⟨_, ⟨name, xs, hname, hxs, rfl⟩, hp⟩
    exact ⟨name, hname, xs, hxs, hp⟩
  · rintro ⟨name, hname, xs, hxs, hp⟩
    exact ⟨_, ⟨name, xs, hname, hxs, rfl⟩, hp⟩

/-! ## 2. The members of a message -/

namespace Envelope

/-- What a message holds. -/
inductive Of : Source → Envelope → Prop
  /-- An object: all names can be read, and none of the five comes twice. -/
  | object {ms : List (List Piece × Source)} {xs : List (String × Source)} (hnamed : named? ms = some xs)
      (honce : ((xs.map Prod.fst).filter names.contains).Nodup) :
      Of (.object ms) ⟨(xs.lookup "id").bind value, (xs.lookup "method").bind value,
        (xs.lookup "params").bind value, (xs.lookup "result").bind value, (xs.lookup "error").bind value⟩
  /-- An array of up to five elements. -/
  | array {xs : List Source} (h : xs.length ≤ 5) :
      Of (.array xs) ⟨xs[0]?.bind value, xs[1]?.bind value, xs[2]?.bind value, xs[3]?.bind value,
        xs[4]?.bind value⟩

/-- The member of a name. -/
def get (e : Envelope) (name : String) : Option Source :=
  if name = "id" then e.id
  else if name = "method" then e.method
  else if name = "params" then e.params
  else if name = "result" then e.result
  else if name = "error" then e.error
  else none

theorem get_put {name name' : String} (h : name ∈ names) (e : Envelope) (x : Source) :
    (e.put name' x).get name = if name' = name then value x else e.get name := by
  simp only [names, List.mem_cons, List.not_mem_nil, or_false] at h
  unfold put get
  rcases h with rfl | rfl | rfl | rfl | rfl <;> grind

theorem put_of_not_mem {name : String} (h : name ∉ names) (e : Envelope) (x : Source) : e.put name x = e := by
  simp only [names, List.mem_cons, List.not_mem_nil, or_false, not_or] at h
  obtain ⟨hid, hmethod, hparams, hresult, herror⟩ := h
  rw [put, if_neg hid, if_neg hmethod, if_neg hparams, if_neg hresult, if_neg herror]

/-- Under a name that comes once stands its value; else what had stood there before. -/
theorem get_foldl_put {name : String} (h : name ∈ names) {xs : List (String × Source)}
    (honce : ((xs.map Prod.fst).filter names.contains).Nodup) (e : Envelope) :
    (xs.foldl (fun e m => e.put m.1 m.2) e).get name = ((xs.lookup name).map value).getD (e.get name) := by
  induction xs generalizing e with
  | nil => rfl
  | cons m xs ih =>
    obtain ⟨name', x⟩ := m
    rw [List.foldl_cons, List.lookup_cons]
    rw [List.map_cons] at honce
    by_cases hname : name' = name
    · subst hname
      rw [List.filter_cons_of_pos (List.contains_iff_mem.mpr h), List.nodup_cons] at honce
      obtain ⟨hnot, hrest⟩ := honce
      have hnone : xs.lookup name' = none := by
        rw [List.lookup_eq_none_iff]
        intro p hp
        have hne : name' ≠ p.1 := by
          rintro rfl
          exact hnot (List.mem_filter.mpr ⟨List.mem_map_of_mem hp, List.contains_iff_mem.mpr h⟩)
        exact bne_iff_ne.mpr hne
      rw [ih hrest, hnone, beq_self_eq_true, get_put h, if_pos rfl]
      rfl
    · have hrest : ((xs.map Prod.fst).filter names.contains).Nodup :=
        honce.sublist ((List.sublist_cons_self _ _).filter _)
      rw [ih hrest, get_put h, if_neg hname, beq_eq_false_iff_ne.mpr (Ne.symm hname)]

/-- Reading members one after another puts each in its place, if no name comes twice. -/
theorem ofMembers_eq_some_iff {seen : List String} {e e' : Envelope} {ms : List (List Piece × Source)} :
    ofMembers seen e ms = some e' ↔ ∃ xs, named? ms = some xs ∧
      ((xs.map Prod.fst).filter names.contains).Nodup ∧ (∀ m ∈ xs, m.1 ∉ seen) ∧
      xs.foldl (fun e m => e.put m.1 m.2) e = e' := by
  induction ms generalizing seen e with
  | nil => simp [ofMembers, named?]
  | cons m ms ih =>
    obtain ⟨k, x⟩ := m
    rw [exists_named?_cons_iff, ofMembers]
    cases hname : stringText? k with
    | none => simp
    | some name =>
      simp only [Option.some.injEq, exists_eq_left', List.map_cons, List.foldl_cons, List.forall_mem_cons]
      by_cases hseen : name ∈ seen
      · rw [if_pos (List.contains_iff_mem.mpr hseen)]
        simp [hseen]
      · rw [if_neg (mt List.contains_iff_mem.mp hseen)]
        by_cases hknown : name ∈ names
        · have hfilter : ∀ ns : List String,
              (name :: ns).filter names.contains = name :: ns.filter names.contains :=
            fun ns => List.filter_cons_of_pos (List.contains_iff_mem.mpr hknown)
          rw [if_pos (List.contains_iff_mem.mpr hknown), ih]
          refine exists_congr fun xs => and_congr_right fun _ => ?_
          have hnew : name ∉ (xs.map Prod.fst).filter names.contains ↔ ∀ m ∈ xs, m.1 ≠ name := by
            simp only [List.mem_filter, List.contains_iff_mem, hknown, and_true, List.mem_map, not_exists,
              not_and]
          simp only [hfilter, List.nodup_cons, hnew, List.mem_cons, not_or, forall_and, hseen, not_false_eq_true,
            true_and]
          tauto
        · have hfilter : ∀ ns : List String, (name :: ns).filter names.contains = ns.filter names.contains :=
            fun ns => List.filter_cons_of_neg (mt List.contains_iff_mem.mp hknown)
          rw [if_neg (mt List.contains_iff_mem.mp hknown), ih]
          simp only [hfilter, put_of_not_mem hknown, hseen, not_false_eq_true, true_and]

/-- Members that are listed once are all in their places. -/
theorem foldl_put {xs : List (String × Source)} (honce : ((xs.map Prod.fst).filter names.contains).Nodup) :
    xs.foldl (fun e m => e.put m.1 m.2) blank =
      ⟨(xs.lookup "id").bind value, (xs.lookup "method").bind value, (xs.lookup "params").bind value,
        (xs.lookup "result").bind value, (xs.lookup "error").bind value⟩ := by
  have hget : ∀ name ∈ names,
      (xs.foldl (fun e m => e.put m.1 m.2) blank).get name = (xs.lookup name).bind value := by
    intro name hname
    have hblank : blank.get name = none := by
      simp [blank, get]
    rw [get_foldl_put hname honce, hblank]
    cases xs.lookup name <;> rfl
  have heta : ∀ e : Envelope, e = ⟨e.get "id", e.get "method", e.get "params", e.get "result", e.get "error"⟩ :=
    fun e => rfl
  rw [heta (xs.foldl _ blank), hget, hget, hget, hget, hget] <;> decide

/-- Elements of an array are put in their places, one after another. -/
theorem foldl_zip {xs : List Source} (h : xs.length ≤ 5) :
    (names.zip xs).foldl (fun e m => e.put m.1 m.2) blank =
      ⟨xs[0]?.bind value, xs[1]?.bind value, xs[2]?.bind value, xs[3]?.bind value, xs[4]?.bind value⟩ := by
  match xs, h with
  | [], _ | [_], _ | [_, _], _ | [_, _, _], _ | [_, _, _, _], _ | [_, _, _, _, _], _ => rfl
  | _ :: _ :: _ :: _ :: _ :: _ :: _, h =>
    simp only [List.length_cons] at h
    omega

/-- **The members of a message.** -/
theorem of?_eq_some_iff {x : Source} {e : Envelope} : of? x = some e ↔ Of x e := by
  cases x with
  | object ms =>
    rw [of?, ofMembers_eq_some_iff]
    constructor
    · rintro ⟨xs, hnamed, honce, -, rfl⟩
      rw [foldl_put honce]
      exact .object hnamed honce
    · rintro (⟨hnamed, honce⟩ | _)
      exact ⟨_, hnamed, honce, fun _ _ => List.not_mem_nil, foldl_put honce⟩
  | array xs =>
    have hfive : names.length = 5 := rfl
    rw [of?, hfive]
    constructor
    · intro h
      split at h
      · cases h
      · rename_i hlength
        have hle := Nat.le_of_not_lt hlength
        rw [← Option.some.inj h, foldl_zip hle]
        exact .array hle
    · rintro (_ | hle)
      rw [if_neg (Nat.not_lt_of_le hle), foldl_zip hle]
  | _ =>
    constructor
    · intro h
      cases h
    · intro h
      cases h

end Envelope

/-! ## 3. The types of the members -/

theorem bounds_toInt (n : Int64) : Text.Numeral.minI64 ≤ n.toInt ∧ n.toInt ≤ Text.Numeral.maxI64 := by
  have hlow := n.le_toInt
  have hhigh := n.toInt_lt
  unfold Text.Numeral.minI64 Text.Numeral.maxI64
  omega

/-- An integer of 64 bits is what stands in a text under a number within its bounds. -/
theorem ofInt_eq_iff {n : Int} {code : Int64} (hlow : Text.Numeral.minI64 ≤ n) (hhigh : n ≤ Text.Numeral.maxI64) :
    Int64.ofInt n = code ↔ n = code.toInt := by
  have hlt : n < 9223372036854775808 := by
    unfold Text.Numeral.maxI64 at hhigh
    omega
  constructor
  · rintro rfl
    exact (Int64.toInt_ofInt_of_le hlow hlt).symm
  · rintro rfl
    exact Int64.ofInt_toInt code

/-- An identifier is an integer of 64 bits or a string. -/
theorem readId?_eq_some_iff {x : Source} {id : MessageId} :
    readId? x = some id ↔ x.eval? (maxDepth - 1) = some id.toJson := by
  rw [readId?]
  constructor
  · intro h
    split at h
    · rename_i n hn
      obtain ⟨⟨hlow, hhigh⟩, hid⟩ := Option.ite_none_right_eq_some.mp h
      cases hid
      rw [hn, MessageId.toJson, ← (ofInt_eq_iff hlow hhigh).mp rfl]
    · rename_i s hs
      cases h
      exact hs
    · cases h
  · intro h
    rw [h]
    cases id with
    | number n =>
      dsimp only [MessageId.toJson]
      rw [if_pos (bounds_toInt n), Int64.ofInt_toInt]
    | text s => rfl

/-- A method is a string. -/
theorem readMethod?_eq_some_iff {x : Source} {method : String} :
    readMethod? x = some method ↔ x.eval? (maxDepth - 1) = some (.str method) := by
  simp [readMethod?, Option.bind_eq_some_iff, Json.str?_eq_some_iff]

/-- A member that may be missing is read, if it is there. -/
inductive Reads {α : Type} (P : Source → α → Prop) : Option Source → Option α → Prop
  | missing : Reads P none none
  | there {x : Source} {value : α} (h : P x value) : Reads P (some x) (some value)

theorem optionally_eq_some_iff {α : Type} {read : Source → Option α} {P : Source → α → Prop}
    (hread : ∀ x value, read x = some value ↔ P x value) {x : Option Source} {value : Option α} :
    optionally read x = some value ↔ Reads P x value := by
  cases x with
  | none =>
    constructor
    · intro h
      cases h
      exact .missing
    · rintro (_ | _)
      rfl
  | some x =>
    rw [optionally, Option.map_eq_some_iff]
    constructor
    · rintro ⟨v, hv, rfl⟩
      exact .there ((hread x v).mp hv)
    · rintro (_ | h)
      exact ⟨_, (hread _ _).mpr h, rfl⟩

/-! ## 4. Errors -/

namespace ErrorParts

/-- The names of the members of an error. -/
def names : List String := ["code", "message", "data"]

/-- The member of a name. -/
def get (e : ErrorParts) (name : String) : Option Source :=
  if name = "code" then e.code
  else if name = "message" then e.message
  else if name = "data" then e.data
  else none

/-- Puts the value of a member in its place. -/
def put (e : ErrorParts) (name : String) (x : Source) : ErrorParts :=
  if name = "code" then { e with code := some x }
  else if name = "message" then { e with message := some x }
  else { e with data := some x }

theorem get_put {name : String} (h : name ∈ names) (e : ErrorParts) (x : Source) (name' : String) :
    (e.put name x).get name' = if name' = name then some x else e.get name' := by
  simp only [names, List.mem_cons, List.not_mem_nil, or_false] at h
  unfold put get
  rcases h with rfl | rfl | rfl <;> grind

theorem eq_of_get {e e' : ErrorParts} (h : ∀ name, e.get name = e'.get name) : e = e' := by
  have hcode : e.code = e'.code := h "code"
  have hmessage : e.message = e'.message := h "message"
  have hdata : e.data = e'.data := h "data"
  cases e
  cases e'
  cases hcode
  cases hmessage
  cases hdata
  rfl

/-- A member is put in its place if its name can be read, is one of the three and has not come before. -/
theorem ofMembers_cons (e : ErrorParts) (k : List Piece) (x : Source) (ms : List (List Piece × Source)) :
    ofMembers e ((k, x) :: ms) = (stringText? k).bind fun name =>
      if name ∈ names ∧ e.get name = none then ofMembers (e.put name x) ms else none := by
  rw [ofMembers]
  cases stringText? k with
  | none => simp
  | some name =>
    rw [Option.bind_some]
    split
    · rename_i heq
      cases heq
      cases hc : e.code <;> simp [names, get, put, hc]
    · rename_i heq
      cases heq
      cases hm : e.message <;> simp [names, get, put, hm]
    · rename_i heq
      cases heq
      cases hd : e.data <;> simp [names, get, put, hd]
    · rename_i hcode hmessage hdata
      have hnot : name ∉ names := by
        simp only [names, List.mem_cons, List.not_mem_nil, or_false, not_or]
        exact ⟨fun h => hcode (congrArg some h), fun h => hmessage (congrArg some h),
          fun h => hdata (congrArg some h)⟩
      rw [if_neg fun h => hnot h.1]

/-- Reading the members of an error puts each in its place, if no name comes twice and no other comes. -/
theorem ofMembers_eq_some_iff {e e' : ErrorParts} {ms : List (List Piece × Source)} :
    ofMembers e ms = some e' ↔ ∃ xs, named? ms = some xs ∧ (xs.map Prod.fst).Nodup ∧
      (∀ m ∈ xs, m.1 ∈ names ∧ e.get m.1 = none) ∧ ∀ name, e'.get name = (e.get name).or (xs.lookup name) := by
  induction ms generalizing e with
  | nil =>
    simp only [ofMembers, named?, Option.some.injEq, exists_eq_left', List.lookup_nil, Option.or_none]
    constructor
    · rintro rfl
      simp
    · rintro ⟨-, -, h⟩
      exact eq_of_get fun name => (h name).symm
  | cons m ms ih =>
    obtain ⟨k, x⟩ := m
    rw [ofMembers_cons, exists_named?_cons_iff, Option.bind_eq_some_iff]
    refine exists_congr fun name => and_congr_right fun _ => ?_
    by_cases hnew : name ∈ names ∧ e.get name = none
    · rw [if_pos hnew, ih]
      refine exists_congr fun xs => and_congr_right fun _ => ?_
      have hlookup : ∀ n, ((e.put name x).get n).or (xs.lookup n) =
          (e.get n).or (((name, x) :: xs).lookup n) := by
        intro n
        rw [get_put hnew.1, List.lookup_cons]
        by_cases hn : n = name
        · rw [if_pos hn, hn, hnew.2, beq_self_eq_true]
          rfl
        · rw [if_neg hn, beq_false_of_ne hn]
      have hnone : ∀ m : String × Source, (e.put name x).get m.1 = none ↔ m.1 ≠ name ∧ e.get m.1 = none := by
        intro m
        rw [get_put hnew.1]
        by_cases hn : m.1 = name <;> simp [hn]
      have hnot : name ∉ xs.map Prod.fst ↔ ∀ m ∈ xs, m.1 ≠ name := by
        simp only [List.mem_map, not_exists, not_and]
      simp only [hlookup, hnone, List.map_cons, List.nodup_cons, hnot, List.forall_mem_cons, hnew, true_and,
        forall_and]
      tauto
    · rw [if_neg hnew]
      simp [hnew]

end ErrorParts

/-- The members of an error have their types; data may be missing or null. -/
structure IsErrorOf (code message : Source) (data : Option Source) (e : ResponseError) : Prop where
  code : code.eval? (maxDepth - 2) = some (.int e.code.toInt)
  message : message.eval? (maxDepth - 2) = some (.str e.message)
  data : Reads (fun x j => x.eval? (maxDepth - 2) = some j) (data.bind Envelope.value) e.data

/-- An error has a code and a message, and no other member but data. -/
inductive IsError : Source → ResponseError → Prop
  /-- An object: all names can be read, and none comes twice. -/
  | object {ms : List (List Piece × Source)} {xs : List (String × Source)} {code message : Source}
      {e : ResponseError} (hnamed : named? ms = some xs) (honce : (xs.map Prod.fst).Nodup)
      (hknown : ∀ m ∈ xs, m.1 ∈ ["code", "message", "data"]) (hcode : xs.lookup "code" = some code)
      (hmessage : xs.lookup "message" = some message) (h : IsErrorOf code message (xs.lookup "data") e) :
      IsError (.object ms) e
  /-- An array of all three. -/
  | array {code message data : Source} {e : ResponseError} (h : IsErrorOf code message (some data) e) :
      IsError (.array [code, message, data]) e

/-- An error has a code and a message. -/
theorem exists_of_error? {parts : ErrorParts} {e : ResponseError} (h : parts.error? = some e) :
    ∃ code message, parts.code = some code ∧ parts.message = some message := by
  simp only [ErrorParts.error?, Option.bind_eq_bind, Option.bind_eq_some_iff] at h
  obtain ⟨code, hcode, j, hj, n, hn, message, hmessage, -⟩ := h
  exact ⟨code, message, hcode, hmessage⟩

theorem error?_eq_some_iff {code message : Source} {data : Option Source} {e : ResponseError} :
    ErrorParts.error? ⟨some code, some message, data⟩ = some e ↔ IsErrorOf code message data e := by
  have hdata : ∀ v, optionally (fun d : Source => d.eval? (maxDepth - 2)) (data.bind Envelope.value) = some v ↔
      Reads (fun x j => x.eval? (maxDepth - 2) = some j) (data.bind Envelope.value) v :=
    fun v => optionally_eq_some_iff fun _ _ => Iff.rfl
  simp only [ErrorParts.error?, Option.bind_eq_bind, Option.bind_some, Option.bind_eq_some_iff,
    Json.int?_eq_some_iff, Json.str?_eq_some_iff, Option.ite_none_right_eq_some, Option.some.injEq]
  constructor
  · rintro ⟨_, hcode, n, rfl, _, hmessage, s, rfl, d, hd, ⟨hlow, hhigh⟩, rfl⟩
    have hn : n = (Int64.ofInt n).toInt := (ofInt_eq_iff hlow hhigh).mp rfl
    exact ⟨hcode.trans (congrArg (fun n => some (Json.int n)) hn), hmessage, (hdata d).mp hd⟩
  · rintro ⟨hcode, hmessage, hd⟩
    exact ⟨_, hcode, _, rfl, _, hmessage, _, rfl, _, (hdata _).mpr hd, bounds_toInt e.code, by
      rw [Int64.ofInt_toInt]⟩

/-- **The error of a response.** -/
theorem readError?_eq_some_iff {x : Source} {e : ResponseError} : readError? x = some e ↔ IsError x e := by
  rw [readError?, Option.bind_eq_some_iff]
  constructor
  · rintro ⟨parts, hparts, h⟩
    unfold ErrorParts.of? at hparts
    split at hparts
    · obtain ⟨xs, hnamed, honce, hknown, hget⟩ := ErrorParts.ofMembers_eq_some_iff.mp hparts
      obtain ⟨code, message, hcode, hmessage⟩ := exists_of_error? h
      have hdata : parts.data = xs.lookup "data" := hget "data"
      have hall : parts = ⟨some code, some message, xs.lookup "data"⟩ := by
        rw [← hcode, ← hmessage, ← hdata]
      rw [hall] at h
      exact .object hnamed honce (fun m hm => (hknown m hm).1) ((hget "code").symm.trans hcode)
        ((hget "message").symm.trans hmessage) (error?_eq_some_iff.mp h)
    · cases hparts
      exact .array (error?_eq_some_iff.mp h)
    · cases hparts
  · rintro (⟨hnamed, honce, hknown, hcode, hmessage, h⟩ | h)
    · rename_i ms xs code message
      refine ⟨⟨some code, some message, xs.lookup "data"⟩, ?_, error?_eq_some_iff.mpr h⟩
      rw [ErrorParts.of?, ErrorParts.ofMembers_eq_some_iff]
      refine ⟨xs, hnamed, honce, fun m hm => ⟨hknown m hm, ?_⟩, fun name => ?_⟩
      · simp [ErrorParts.get]
      · have hother : name ∉ ErrorParts.names → xs.lookup name = none := by
          intro hno
          rw [List.lookup_eq_none_iff]
          intro p hp
          refine bne_iff_ne.mpr ?_
          rintro rfl
          exact hno (hknown p hp)
        unfold ErrorParts.get
        split_ifs with hc hm hd
        · rw [hc, hcode, Option.none_or]
        · rw [hm, hmessage, Option.none_or]
        · rw [hd, Option.none_or]
        · rw [hother (by simp [ErrorParts.names, hc, hm, hd]), Option.none_or]
    · exact ⟨_, rfl, error?_eq_some_iff.mpr h⟩

/-! ## 5. Whole messages -/

/-- What a body holds: it decodes to a message if each member that is there has its type. -/
def Message.IsIn (m : Message) (body : List UInt8) : Prop :=
  ∃ x e, Source.parse? body = some x ∧ Envelope.Of x e ∧
    Reads (fun x id => x.eval? (maxDepth - 1) = some id.toJson) e.id m.id ∧
    Reads (fun x s => x.eval? (maxDepth - 1) = some (.str s)) e.method m.method ∧
    Reads (fun x j => x.eval? (maxDepth - 1) = some j) e.params m.params ∧
    Reads (fun x j => x.eval? (maxDepth - 1) = some j) e.result m.result ∧
    Reads IsError e.error m.error

/-- **The bodies that decode.** -/
theorem Message.ofBody?_eq_some_iff {body : List UInt8} {m : Message} :
    ofBody? body = some m ↔ m.IsIn body := by
  simp only [ofBody?, Option.bind_eq_bind, Option.bind_eq_some_iff, Envelope.of?_eq_some_iff,
    optionally_eq_some_iff fun _ _ => readId?_eq_some_iff,
    optionally_eq_some_iff fun _ _ => readMethod?_eq_some_iff,
    optionally_eq_some_iff (fun _ _ => Iff.rfl : ∀ x j, readValue? x = some j ↔ x.eval? (maxDepth - 1) = some j),
    optionally_eq_some_iff fun _ _ => readError?_eq_some_iff]
  constructor
  · rintro ⟨e, ⟨x, hx, he⟩, id, hid, method, hmethod, params, hparams, result, hresult, error, herror, h⟩
    cases h
    exact ⟨x, e, hx, he, hid, hmethod, hparams, hresult, herror⟩
  · rintro ⟨x, e, hx, he, hid, hmethod, hparams, hresult, herror⟩
    exact ⟨e, ⟨x, hx, he⟩, _, hid, _, hmethod, _, hparams, _, hresult, _, herror, rfl⟩

end EditorBridge.Rpc
