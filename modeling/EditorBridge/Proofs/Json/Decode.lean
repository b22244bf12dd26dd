import EditorBridge.Protocol.Execution

/-!
# What decodes

A decoder gives a value for exactly one JSON value or for several. The scalar ones give a value for exactly
one, the value written (`string_eq_ok_iff`, `i64_eq_ok_iff`, `u32_eq_ok_iff`), and so does that of the
parameters of an execution, field by field:

* **`ExecuteParams.decode_eq_ok_iff`** -- what decodes to parameters is what is written for them;
* `ExecuteParams.isArguments_iff` -- four values are written for some parameters if the first is a string and
  the others are integers of the widths of a command's index, line and character.
-/

namespace EditorBridge

open Text

/-! ## 1. Chains of steps that may fail -/

theorem bind_eq_ok_iff {ε α β : Type} {x : Except ε α} {f : α → Except ε β} {b : β} :
    x >>= f = .ok b ↔ ∃ a, x = .ok a ∧ f a = .ok b := by
  cases x <;> simp [bind, Except.bind]

theorem bind_eq_error_iff {ε α β : Type} {x : Except ε α} {f : α → Except ε β} {e : ε} :
    x >>= f = .error e ↔ x = .error e ∨ ∃ a, x = .ok a ∧ f a = .error e := by
  cases x <;> simp [bind, Except.bind]

theorem map_eq_ok_iff {ε α β : Type} {x : Except ε α} {f : α → β} {b : β} :
    x.map f = .ok b ↔ ∃ a, x = .ok a ∧ f a = b := by
  cases x <;> simp [Except.map]

/-! ## 2. Scalars -/

namespace Decode

theorem string_eq_ok_iff {j : Json} {s : String} : string j = .ok s ↔ j = .str s := by
  cases j <;> simp [string, expected]

theorem integer_eq_ok_iff {what : String} {lo hi n : Int} {j : Json} :
    integer what lo hi j = .ok n ↔ j = .int n ∧ lo ≤ n ∧ n ≤ hi := by
  cases j with
  | int m =>
    rw [integer, Json.int.injEq]
    split
    · rename_i hm
      rw [Except.ok.injEq]
      exact ⟨fun e => ⟨e, e ▸ hm⟩, And.left⟩
    · rename_i hm
      exact ⟨nofun, fun ⟨e, hn⟩ => absurd (e ▸ hn) hm⟩
  | _ => simp [integer, expected]

/-- The integers of 64 bits with a sign. -/
theorem exists_toInt_iff {n : Int} :
    (∃ x : Int64, x.toInt = n) ↔ Numeral.minI64 ≤ n ∧ n ≤ Numeral.maxI64 := by
  constructor
  · rintro ⟨x, rfl⟩
    exact ⟨x.le_toInt, Int.le_of_lt_add_one x.toInt_lt⟩
  · rintro ⟨hlow, hhigh⟩
    exact ⟨Int64.ofInt n, Int64.toInt_ofInt_of_le hlow (Int.lt_add_one_of_le hhigh)⟩

/-- The integers of 32 bits with a sign. -/
theorem exists_toInt32_iff {n : Int} :
    (∃ x : Int32, x.toInt = n) ↔ Numeral.minI32 ≤ n ∧ n ≤ Numeral.maxI32 := by
  constructor
  · rintro ⟨x, rfl⟩
    exact ⟨x.le_toInt, Int.le_of_lt_add_one x.toInt_lt⟩
  · rintro ⟨hlow, hhigh⟩
    exact ⟨Int32.ofInt n, Int32.toInt_ofInt_of_le hlow (Int.lt_add_one_of_le hhigh)⟩

/-- The integers of 32 bits without a sign. -/
theorem exists_toNat_iff {n : Int} : (∃ x : UInt32, (x.toNat : Int) = n) ↔ 0 ≤ n ∧ n ≤ Numeral.maxU32 := by
  rw [Numeral.maxU32]
  constructor
  · rintro ⟨x, rfl⟩
    have hlt := x.toNat_lt
    omega
  · rintro ⟨hlow, hhigh⟩
    have hlt : n.toNat < UInt32.size := by
      rw [UInt32.size]
      omega
    exact ⟨UInt32.ofNat n.toNat, by rw [UInt32.toNat_ofNat_of_lt' hlt, Int.toNat_of_nonneg hlow]⟩

/-- A signed integer of 64 bits is written in one way. -/
theorem i64_eq_ok_iff {j : Json} {x : Int64} : i64 j = .ok x ↔ j = .int x.toInt := by
  simp only [i64, map_eq_ok_iff, integer_eq_ok_iff]
  constructor
  · rintro ⟨n, ⟨rfl, hn⟩, rfl⟩
    obtain ⟨x, rfl⟩ := exists_toInt_iff.mpr hn
    rw [Int64.ofInt_toInt]
  · rintro rfl
    exact ⟨x.toInt, ⟨rfl, exists_toInt_iff.mp ⟨x, rfl⟩⟩, Int64.ofInt_toInt x⟩

/-- A signed integer of 32 bits is written in one way. -/
theorem i32_eq_ok_iff {j : Json} {x : Int32} : i32 j = .ok x ↔ j = .int x.toInt := by
  simp only [i32, map_eq_ok_iff, integer_eq_ok_iff]
  constructor
  · rintro ⟨n, ⟨rfl, hn⟩, rfl⟩
    obtain ⟨x, rfl⟩ := exists_toInt32_iff.mpr hn
    rw [Int32.ofInt_toInt]
  · rintro rfl
    exact ⟨x.toInt, ⟨rfl, exists_toInt32_iff.mp ⟨x, rfl⟩⟩, Int32.ofInt_toInt x⟩

/-- An unsigned integer of 32 bits is written in one way. -/
theorem u32_eq_ok_iff {j : Json} {x : UInt32} : u32 j = .ok x ↔ j = .int x.toNat := by
  simp only [u32, map_eq_ok_iff, integer_eq_ok_iff]
  constructor
  · rintro ⟨n, ⟨rfl, hn⟩, rfl⟩
    obtain ⟨x, rfl⟩ := exists_toNat_iff.mpr hn
    rw [Int.toNat_natCast, UInt32.ofNat_toNat]
  · rintro rfl
    exact ⟨x.toNat, ⟨rfl, exists_toNat_iff.mp ⟨x, rfl⟩⟩, by rw [Int.toNat_natCast, UInt32.ofNat_toNat]⟩

/-! ## 3. Arrays -/

theorem element_eq_ok_iff {α : Type} {shape : String} {js : List Json} {i : Nat} {read : Decoder α} {x : α} :
    element shape js i read = .ok x ↔ ∃ j, js[i]? = some j ∧ read j = .ok x := by
  rw [element]
  cases js[i]? with
  | none => simp
  | some j => simp

theorem noMore_eq_ok_iff {js : List Json} {n : Nat} {u : Unit} : noMore js n = .ok u ↔ js.length ≤ n := by
  rw [noMore]
  split
  · rename_i h
    exact ⟨nofun, fun hle => absurd h (Nat.not_lt_of_le hle)⟩
  · rename_i h
    exact ⟨fun _ => Nat.le_of_not_lt h, fun _ => rfl⟩

/-- A list of four, by its places. -/
theorem eq_four_iff {α : Type} {xs : List α} {a b c d : α} :
    xs = [a, b, c, d] ↔
      xs[0]? = some a ∧ xs[1]? = some b ∧ xs[2]? = some c ∧ xs[3]? = some d ∧ xs.length ≤ 4 := by
  constructor
  · rintro rfl
    exact ⟨rfl, rfl, rfl, rfl, Nat.le_refl 4⟩
  · match xs with
    | [] | [_] | [_, _] | [_, _, _] => simp
    | [w, x, y, z] => simp
    | _ :: _ :: _ :: _ :: _ :: _ => simp

end Decode

/-! ## 4. The parameters of an execution -/

namespace ExecuteParams

open Decode

/-- **What decodes to parameters is what is written for them.** -/
theorem decode_eq_ok_iff {j : Json} {p : ExecuteParams} : decode j = .ok p ↔ j = p.toJson := by
  cases j with
  | arr js =>
    simp only [decode, bind_eq_ok_iff, element_eq_ok_iff, string_eq_ok_iff, i64_eq_ok_iff, u32_eq_ok_iff,
      noMore_eq_ok_iff, toJson, Json.arr.injEq, eq_four_iff]
    constructor
    · rintro ⟨uri, ⟨_, h0, rfl⟩, index, ⟨_, h1, rfl⟩, line, ⟨_, h2, rfl⟩, character, ⟨_, h3, rfl⟩, _, hall, hp⟩
      cases hp
      exact ⟨h0, h1, h2, h3, hall⟩
    · rintro ⟨h0, h1, h2, h3, hall⟩
      exact ⟨_, ⟨_, h0, rfl⟩, _, ⟨_, h1, rfl⟩, _, ⟨_, h2, rfl⟩, _, ⟨_, h3, rfl⟩, (), hall, rfl⟩
  | _ => simp [decode, expected, toJson]

theorem decode_toJson (p : ExecuteParams) : decode p.toJson = .ok p := decode_eq_ok_iff.mpr rfl

/-- Four arguments that name a command of a document: a string, an integer of 64 bits, and two of 32 bits
    that are not negative. -/
def IsArguments (arguments : List Json) : Prop :=
  ∃ (uri : String) (index line character : Int),
    arguments = [.str uri, .int index, .int line, .int character] ∧
      (-9223372036854775808 ≤ index ∧ index ≤ 9223372036854775807) ∧
      (0 ≤ line ∧ line ≤ 4294967295) ∧ (0 ≤ character ∧ character ≤ 4294967295)

/-- They are what is written for some parameters. -/
theorem isArguments_iff {arguments : List Json} :
    IsArguments arguments ↔ ∃ p : ExecuteParams, Json.arr arguments = p.toJson := by
  constructor
  · rintro ⟨uri, index, line, character, rfl, hindex, hline, hcharacter⟩
    obtain ⟨index, rfl⟩ := exists_toInt_iff.mpr hindex
    obtain ⟨line, rfl⟩ := exists_toNat_iff.mpr hline
    obtain ⟨character, rfl⟩ := exists_toNat_iff.mpr hcharacter
    exact ⟨⟨uri, index, line, character⟩, rfl⟩
  · rintro ⟨p, hp⟩
    exact ⟨p.uri, p.index.toInt, p.line.toNat, p.character.toNat, Json.arr.inj hp,
      exists_toInt_iff.mp ⟨p.index, rfl⟩, exists_toNat_iff.mp ⟨p.line, rfl⟩,
      exists_toNat_iff.mp ⟨p.character, rfl⟩⟩

/-- All other arguments are refused. -/
theorem exists_decode_error {arguments : List Json} (h : ¬ IsArguments arguments) :
    ∃ cause, decode (.arr arguments) = .error cause := by
  cases hd : decode (.arr arguments) with
  | error cause => exact ⟨cause, rfl⟩
  | ok p => exact absurd (isArguments_iff.mpr ⟨p, decode_eq_ok_iff.mp hd⟩) h

end ExecuteParams

end EditorBridge
