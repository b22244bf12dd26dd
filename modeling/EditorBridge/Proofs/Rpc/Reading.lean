import EditorBridge.Proofs.Json.RoundTrip
import EditorBridge.Rpc.Message

/-!
# Answers, as they are read

Whoever has asked tells an answer from other messages by its members: no method, an identifier, and either a
result or an error with a code and a message (`Answer.ofBody?`).

* `get?_isSome_of_parse?` -- the first members of an object that is written are found by whoever can read it,
  whatever the later ones are;
* **`Answer.ofBody?_result`**, **`Answer.ofBody?_error`** -- so an answer is read as it was sent;
* **`Answer.ofBody?_of_method`** -- and nothing else that is sent is read as an answer.
-/

namespace EditorBridge

/-! ## 1. The first members of an object -/

namespace Json

open Text

/-- The members that fit are found, whatever follows them. -/
theorem members?_begin {depth : Nat} {ms ns : List (String × Json)} {r r' : List UInt8} {fuel : Nat}
    {found : List (List Piece × Source)} (hms : MembersFit depth ms)
    (hfuel : (memberChars (ms ++ ns)).length ≤ fuel + 1)
    (h : members? fuel (Utf8.encodeChars (memberChars (ms ++ ns)).tail ++ r) = some (found, r')) :
    memberSources ms <+: found := by
  induction ms generalizing fuel found with
  | nil =>
    rw [memberSources]
    exact List.nil_prefix
  | cons m ms ih =>
    obtain ⟨k, v⟩ := m
    rw [MembersFit] at hms
    rw [List.cons_append, length_memberChars_cons] at hfuel
    rw [List.cons_append, encodeChars_tail_memberChars] at h
    cases fuel with
    | zero => cases h
    | succ fuel =>
      have hread {b : UInt8} {r : List UInt8} (hb : endsNumber (b :: r) = true) :
          value? fuel (Utf8.encodeChars (chars v) ++ b :: r) = some (source v, b :: r) :=
        value?_chars fuel v hms.1 (by omega) hb
      rw [memberSources]
      cases hrest : ms ++ ns with
      | nil =>
        obtain ⟨rfl, rfl⟩ := List.append_eq_nil_iff.mp hrest
        rw [hrest, memberChars] at h
        cases (members?_last (hread rfl)).symm.trans h
        simp only [memberSources, List.prefix_refl]
      | cons n rest =>
        rw [hrest, encodeChars_memberChars, List.cons_append, members?_cons (hread rfl)] at h
        obtain ⟨⟨later, r''⟩, hlater, hfound⟩ := Option.map_eq_some_iff.mp h
        cases hfound
        rw [← hrest] at hlater
        exact (List.prefix_cons_inj _).mpr (ih hms.2 (by omega) hlater)

/-- What is found in the text of an object begins with the first members, if they fit. -/
theorem parse?_begin {depth : Nat} {ms ns : List (String × Json)} {x : Source} (hms : MembersFit depth ms)
    (hne : ms ≠ []) (h : Source.parse? (obj (ms ++ ns)).printBytes = some x) :
    ∃ found, x = .object found ∧ memberSources ms <+: found := by
  obtain ⟨⟨k, v⟩, ms', rfl⟩ := List.exists_cons_of_ne_nil hne
  have hchars : chars (obj ((k, v) :: ms' ++ ns)) = '{' :: (memberChars ((k, v) :: ms' ++ ns)).tail := by
    rw [List.cons_append, chars, memberChars, List.tail_cons]
  have hquote : Utf8.encodeChars (memberChars ((k, v) :: ms' ++ ns)).tail =
      0x22 :: (Utf8.encodeChars (memberChars ((k, v) :: ms' ++ ns)).tail).tail := by
    rw [List.cons_append, memberChars, List.tail_cons, stringChars, List.cons_append,
      encodeChars_ascii (by decide)]
    rfl
  have hlength : (chars (obj ((k, v) :: ms' ++ ns))).length =
      (memberChars ((k, v) :: ms' ++ ns)).length - 1 + 1 := by
    rw [hchars, List.length_cons, List.length_tail]
  have hle := Utf8.length_le_encodeChars (chars (obj ((k, v) :: ms' ++ ns)))
  rw [Source.parse?, printBytes] at h
  generalize hfuel : 2 * (Utf8.encodeChars (chars (obj ((k, v) :: ms' ++ ns)))).length = fuel at h
  have hbrace := value?_brace fuel (Utf8.encodeChars (memberChars ((k, v) :: ms' ++ ns)).tail).tail
  rw [← hquote] at hbrace
  rw [hchars, encodeChars_ascii (by decide)] at h
  split at h
  · rename_i y r hy
    obtain ⟨⟨found, r'⟩, hfound, hy'⟩ := Option.map_eq_some_iff.mp (hbrace.symm.trans hy)
    cases hy'
    obtain ⟨-, hx⟩ := Option.ite_none_right_eq_some.mp h
    rw [← List.append_nil (Utf8.encodeChars _)] at hfound
    exact ⟨found, (Option.some.inj hx).symm, members?_begin hms (by omega) hfound⟩
  · cases h

/-- Each member found is evaluated. -/
theorem exists_mem_evalMembers {depth : Nat} {found : List (List Piece × Source)} {ms : List (String × Json)}
    {k : String} {x : Source} (h : Source.evalMembers depth found = some ms)
    (hk : (pieces k.toList, x) ∈ found) : ∃ v, (k, v) ∈ ms := by
  induction found generalizing ms with
  | nil => cases hk
  | cons m found ih =>
    obtain ⟨ps, y⟩ := m
    rw [Source.evalMembers] at h
    obtain ⟨key, hkey, h⟩ := Option.bind_eq_some_iff.mp h
    obtain ⟨v, -, h⟩ := Option.bind_eq_some_iff.mp h
    obtain ⟨rest, hrest, rfl⟩ := Option.map_eq_some_iff.mp h
    rcases List.mem_cons.mp hk with heq | hk
    · cases heq
      rw [stringText?_pieces] at hkey
      cases hkey
      exact ⟨v, List.mem_cons_self⟩
    · obtain ⟨w, hw⟩ := ih hrest hk
      exact ⟨w, List.mem_cons_of_mem _ hw⟩

/-- No key is lost when members are put in their places. -/
theorem isSome_member?_foldl {key : String} {v : Json} {ms acc : List (String × Json)}
    (h : (key, v) ∈ ms ∨ (member? key acc).isSome = true) :
    (member? key (ms.foldl (fun acc m => putMember m.1 m.2 acc) acc)).isSome = true := by
  induction ms generalizing acc with
  | nil => exact h.resolve_left List.not_mem_nil
  | cons m ms ih =>
    refine ih ?_
    rw [member?_putMember]
    split
    · exact Or.inr rfl
    · rename_i hne
      refine h.imp_left fun hmem => (List.mem_cons.mp hmem).resolve_left fun heq => hne ?_
      rw [← heq]

theorem mem_memberSources {k : String} {v : Json} {ms : List (String × Json)} (h : (k, v) ∈ ms) :
    (pieces k.toList, source v) ∈ memberSources ms := by
  induction ms with
  | nil => cases h
  | cons m ms ih =>
    rw [memberSources]
    rcases List.mem_cons.mp h with rfl | h
    · exact List.mem_cons_self
    · exact List.mem_cons_of_mem _ (ih h)

/-- **The first members of an object that is written are found** by whoever can read it, if they fit. -/
theorem get?_isSome_of_parse? {depth : Nat} {ms ns : List (String × Json)} {k : String} {v j : Json}
    (hms : MembersFit depth ms) (hk : (k, v) ∈ ms) (h : parse? (obj (ms ++ ns)).printBytes = some j) :
    (j.get? k).isSome = true := by
  obtain ⟨x, hx, hj⟩ := Option.bind_eq_some_iff.mp h
  obtain ⟨found, rfl, hfound⟩ := parse?_begin hms (List.ne_nil_of_mem hk) hx
  rw [Source.eval?, if_neg (by decide)] at hj
  obtain ⟨values, hvalues, rfl⟩ := Option.map_eq_some_iff.mp hj
  obtain ⟨w, hw⟩ := exists_mem_evalMembers hvalues (hfound.subset (mem_memberSources hk))
  exact isSome_member?_foldl (Or.inl hw)

end Json

/-! ## 2. Reading an answer -/

namespace Rpc

open Json (Fits MembersFit maxDepth)

/-- An answer, as whoever has asked reads it: a result, or the code and the message of an error. -/
structure Answer where
  id : Json
  outcome : Except (Int × String) Json

namespace Answer

/-- What an answer says: it has either a result or an error, and an error has a code and a message. -/
def outcome? (message : Json) : Option (Except (Int × String) Json) :=
  match message.get? "result", message.get? "error" with
  | some value, none => some (.ok value)
  | none, some error =>
    match error.get? "code", error.get? "message" with
    | some (.int code), some (.str text) => some (.error (code, text))
    | _, _ => none
  | _, _ => none

/-- Reads the body of a frame. What has a method, or no identifier, is no answer. -/
def ofBody? (body : List UInt8) : Option Answer :=
  (Json.parse? body).bind fun message =>
    if (message.get? "method").isSome then none
    else (message.get? "id").bind fun id => (outcome? message).map fun outcome => ⟨id, outcome⟩

theorem fits_id (id : MessageId) : id.toJson.Fits (maxDepth - 1) := by
  cases id with
  | number n => exact Json.bounds_toInt n
  | text s => trivial

theorem normal_id (id : MessageId) : id.toJson.normal = id.toJson := by
  cases id with
  | number n => exact Json.normal_int n.toInt
  | text s => exact Json.normal_str s

/-- What is read in an answer that is written with one more member than the identifier. -/
theorem ofBody?_obj (id : MessageId) {key : String} {value : Json} (hv : value.Fits (maxDepth - 1))
    (hkey : key = "result" ∨ key = "error") :
    ofBody? (Json.obj [Outgoing.version, ("id", id.toJson), (key, value)]).printBytes =
      (outcome? (Json.obj [(key, value.normal)])).map fun outcome => ⟨id.toJson, outcome⟩ := by
  have hfits : (Json.obj [Outgoing.version, ("id", id.toJson), (key, value)]).Fits maxDepth := by
    rw [Json.Fits, Json.MembersFit, Json.MembersFit, Json.MembersFit, Json.MembersFit]
    exact ⟨by decide, trivial, fits_id id, hv, trivial⟩
  have hkeys : (([Outgoing.version, ("id", id.toJson), (key, value)] :
      List (String × Json)).map Prod.fst).Nodup := by
    rcases hkey with rfl | rfl <;> simp [Outgoing.version]
  have hget (k : String) := Json.get?_normal k hkeys
  rw [ofBody?, Json.parse?_printBytes hfits, Option.bind_some, outcome?, outcome?, hget, hget, hget, hget]
  rcases hkey with rfl | rfl
  · simp [Json.member?_cons, Outgoing.version, normal_id, Json.get?]
  · simp [Json.member?_cons, Outgoing.version, normal_id, Json.get?]

/-- A result is read as it was sent. -/
theorem ofBody?_result (id : MessageId) {result : Json} (h : result.Fits (maxDepth - 1)) :
    ofBody? (Outgoing.response id (.ok result)).body = some ⟨id.toJson, .ok result.normal⟩ := by
  rw [Outgoing.body, Outgoing.toJson, ofBody?_obj id h (Or.inl rfl)]
  rfl

/-- An error is read as it was sent. -/
theorem ofBody?_error (id : MessageId) {e : ResponseError} (h : ∀ j ∈ e.data, j.Fits (maxDepth - 2)) :
    ofBody? (Outgoing.response id (.error e)).body = some ⟨id.toJson, .error (e.code.toInt, e.message)⟩ := by
  have hcode := Json.bounds_toInt e.code
  have hfits : e.toJson.Fits (maxDepth - 1) := by
    rw [ResponseError.toJson]
    cases hd : e.data with
    | none => simp [Json.Fits, Json.MembersFit, hcode, maxDepth]
    | some d => simpa [Json.Fits, Json.MembersFit, hcode, maxDepth] using h d hd
  have hget : e.toJson.normal.get? "code" = some (.int e.code.toInt) ∧
      e.toJson.normal.get? "message" = some (.str e.message) := by
    rw [ResponseError.toJson]
    cases e.data with
    | none => constructor <;> rw [Json.get?_normal _ (by simp)] <;> simp [Json.member?_cons]
    | some d => constructor <;> rw [Json.get?_normal _ (by simp)] <;> simp [Json.member?_cons]
  have hnone : (Json.obj [("error", e.toJson.normal)]).get? "result" = none := rfl
  have hmember : (Json.obj [("error", e.toJson.normal)]).get? "error" = some e.toJson.normal := rfl
  rw [Outgoing.body, Outgoing.toJson, ofBody?_obj id hfits (Or.inr rfl), outcome?, hnone, hmember]
  dsimp only
  rw [hget.1, hget.2]
  rfl

/-- A message with a method is read as no answer. -/
theorem ofBody?_of_method {ms ns : List (String × Json)} {method : Json} {depth : Nat}
    (hms : MembersFit depth ms) (hmethod : ("method", method) ∈ ms) :
    ofBody? (Json.obj (ms ++ ns)).printBytes = none := by
  rw [ofBody?, Option.bind_eq_none_iff]
  intro message hmessage
  rw [if_pos (Json.get?_isSome_of_parse? hms hmethod hmessage)]

end Answer

end Rpc

end EditorBridge
