import EditorBridge.Text.Utf8

/-!
# Reading UTF-8 is the inverse of writing it

`Utf8.decodeChars` goes by the leading byte of a sequence, `Utf8.encodeChars` by the size of the
character. Here both are read as arithmetic on the numbers of bytes and characters:

* `following_eq`, `secondOk_iff`, `isContinuation_iff` -- the byte classes as bounds;
* `encodeChar_one` … `encodeChar_four` -- the bytes of a character, by its size;
* `decodeFrom_encodeChar` -- the bytes of a character are read as that character;
* **`decodeChars_eq_ok_iff`** -- so bytes read as characters exactly if they are what these characters
  are written as.
-/

namespace EditorBridge.Text.Utf8

/-! ## 1. Numbers of bytes and characters -/

theorem toNat_charOfNat {n : Nat} (h : n < 0xD800 ∨ 0xDFFF < n ∧ n < 0x110000) :
    (Char.ofNat n).toNat = n := by
  unfold Char.ofNat
  rw [dif_pos h]
  rfl

/-- A character is no surrogate and not above `10FFFF`. -/
theorem toNat_range (c : Char) : c.toNat < 0xD800 ∨ 0xDFFF < c.toNat ∧ c.toNat < 0x110000 := c.valid

theorem toNat_byte {n : Nat} (h : n < 256) : (UInt8.ofNat n).toNat = n := by
  rw [UInt8.toNat_ofNat']
  omega

theorem eq_byte_iff {b : UInt8} {n : Nat} (h : n < 256) : b = UInt8.ofNat n ↔ b.toNat = n := by
  rw [← UInt8.toNat_inj, toNat_byte h]

/-! ## 2. The byte classes as bounds -/

theorem following_eq (b : UInt8) :
    following b =
      if b.toNat < 0x80 then some 0
      else if 0xC2 ≤ b.toNat ∧ b.toNat ≤ 0xDF then some 1
      else if 0xE0 ≤ b.toNat ∧ b.toNat ≤ 0xEF then some 2
      else if 0xF0 ≤ b.toNat ∧ b.toNat ≤ 0xF4 then some 3
      else none := by
  simp only [following, UInt8.lt_iff_toNat_lt, UInt8.le_iff_toNat_le, Bool.and_eq_true,
    decide_eq_true_eq]
  rfl

theorem isContinuation_iff (b : UInt8) :
    isContinuation b = true ↔ 0x80 ≤ b.toNat ∧ b.toNat ≤ 0xBF := by
  simp only [isContinuation, UInt8.le_iff_toNat_le, Bool.and_eq_true, decide_eq_true_eq]
  rfl

/-- A second byte is a continuation byte, and four leading bytes narrow its range. -/
theorem secondOk_iff (b c : UInt8) :
    secondOk b c = true ↔
      (0x80 ≤ c.toNat ∧ c.toNat ≤ 0xBF) ∧ (b.toNat = 0xE0 → 0xA0 ≤ c.toNat) ∧
      (b.toNat = 0xED → c.toNat ≤ 0x9F) ∧ (b.toNat = 0xF0 → 0x90 ≤ c.toNat) ∧
      (b.toNat = 0xF4 → c.toNat ≤ 0x8F) := by
  have hE0 : b = 0xE0 ↔ b.toNat = 0xE0 := eq_byte_iff (n := 0xE0) (by decide)
  have hED : b = 0xED ↔ b.toNat = 0xED := eq_byte_iff (n := 0xED) (by decide)
  have hF0 : b = 0xF0 ↔ b.toNat = 0xF0 := eq_byte_iff (n := 0xF0) (by decide)
  have hF4 : b = 0xF4 ↔ b.toNat = 0xF4 := eq_byte_iff (n := 0xF4) (by decide)
  have bounds (lo hi : UInt8) : (decide (lo ≤ c) && decide (c ≤ hi)) = true ↔
      lo.toNat ≤ c.toNat ∧ c.toNat ≤ hi.toNat := by
    simp only [UInt8.le_iff_toNat_le, Bool.and_eq_true, decide_eq_true_eq]
  have h80 : UInt8.toNat 0x80 = 0x80 := rfl
  have h8F : UInt8.toNat 0x8F = 0x8F := rfl
  have h90 : UInt8.toNat 0x90 = 0x90 := rfl
  have h9F : UInt8.toNat 0x9F = 0x9F := rfl
  have hA0 : UInt8.toNat 0xA0 = 0xA0 := rfl
  have hBF : UInt8.toNat 0xBF = 0xBF := rfl
  simp only [secondOk, isContinuation, hE0, hED, hF0, hF4]
  split
  · rw [bounds]; omega
  split
  · rw [bounds]; omega
  split
  · rw [bounds]; omega
  split
  · rw [bounds]; omega
  · rw [bounds]; omega

/-! ## 3. The bytes of a character, by its size -/

theorem encodeChar_one {c : Char} (h : c.toNat < 0x80) :
    String.utf8EncodeChar c = [UInt8.ofNat c.toNat] := by
  have h1 : c.val.toNat ≤ 0x7F := Nat.le_of_lt_succ h
  simp only [String.utf8EncodeChar, h1, if_true]
  rfl

theorem encodeChar_two {c : Char} (h : 0x80 ≤ c.toNat) (h' : c.toNat < 0x800) :
    String.utf8EncodeChar c =
      [UInt8.ofNat (c.toNat / 64 + 0xC0), UInt8.ofNat (c.toNat % 64 + 0x80)] := by
  have h1 : ¬ c.val.toNat ≤ 0x7F := Nat.not_le_of_lt h
  have h2 : c.val.toNat ≤ 0x7FF := Nat.le_of_lt_succ h'
  have e : c.toNat / 64 % 32 = c.toNat / 64 := by omega
  simp only [String.utf8EncodeChar, h1, h2, if_true, if_false]
  rw [← e]
  rfl

theorem encodeChar_three {c : Char} (h : 0x800 ≤ c.toNat) (h' : c.toNat < 0x10000) :
    String.utf8EncodeChar c =
      [UInt8.ofNat (c.toNat / 4096 + 0xE0), UInt8.ofNat (c.toNat / 64 % 64 + 0x80),
        UInt8.ofNat (c.toNat % 64 + 0x80)] := by
  have h1 : ¬ c.val.toNat ≤ 0x7F := Nat.not_le_of_lt (Nat.lt_of_lt_of_le (by decide) h)
  have h2 : ¬ c.val.toNat ≤ 0x7FF := Nat.not_le_of_lt h
  have h3 : c.val.toNat ≤ 0xFFFF := Nat.le_of_lt_succ h'
  have e : c.toNat / 4096 % 16 = c.toNat / 4096 := by omega
  simp only [String.utf8EncodeChar, h1, h2, h3, if_true, if_false]
  rw [← e]
  rfl

theorem encodeChar_four {c : Char} (h : 0x10000 ≤ c.toNat) :
    String.utf8EncodeChar c =
      [UInt8.ofNat (c.toNat / 262144 + 0xF0), UInt8.ofNat (c.toNat / 4096 % 64 + 0x80),
        UInt8.ofNat (c.toNat / 64 % 64 + 0x80), UInt8.ofNat (c.toNat % 64 + 0x80)] := by
  have hc := toNat_range c
  have h1 : ¬ c.val.toNat ≤ 0x7F := Nat.not_le_of_lt (Nat.lt_of_lt_of_le (by decide) h)
  have h2 : ¬ c.val.toNat ≤ 0x7FF := Nat.not_le_of_lt (Nat.lt_of_lt_of_le (by decide) h)
  have h3 : ¬ c.val.toNat ≤ 0xFFFF := Nat.not_le_of_lt h
  have e : c.toNat / 262144 % 8 = c.toNat / 262144 := by omega
  simp only [String.utf8EncodeChar, h1, h2, h3, if_false]
  rw [← e]
  rfl

theorem le_toNat_byte {n : Nat} (h : 0x80 ≤ n) (h' : n < 256) : 0x80 ≤ (UInt8.ofNat n).toNat := by
  rw [toNat_byte h']
  exact h

/-- The bytes of a character beyond ASCII lie beyond ASCII. -/
theorem le_of_mem_encodeChar {c : Char} (h : 0x80 ≤ c.toNat) {b : UInt8}
    (hb : b ∈ String.utf8EncodeChar c) : 0x80 ≤ b.toNat := by
  have hc := toNat_range c
  by_cases h2 : c.toNat < 0x800
  · rw [encodeChar_two h h2] at hb
    simp only [List.mem_cons, List.not_mem_nil, or_false] at hb
    rcases hb with rfl | rfl <;> exact le_toNat_byte (by omega) (by omega)
  by_cases h3 : c.toNat < 0x10000
  · rw [encodeChar_three (by omega) h3] at hb
    simp only [List.mem_cons, List.not_mem_nil, or_false] at hb
    rcases hb with rfl | rfl | rfl <;> exact le_toNat_byte (by omega) (by omega)
  · rw [encodeChar_four (by omega)] at hb
    simp only [List.mem_cons, List.not_mem_nil, or_false] at hb
    rcases hb with rfl | rfl | rfl | rfl <;> exact le_toNat_byte (by omega) (by omega)

/-- Only an ASCII character holds a byte below `80`, and then no other byte. -/
theorem encodeChar_of_mem {c : Char} {b : UInt8} (hb : b.toNat < 0x80)
    (h : b ∈ String.utf8EncodeChar c) : c.toNat = b.toNat := by
  by_cases hc : c.toNat < 0x80
  · rw [encodeChar_one hc, List.mem_singleton] at h
    rw [h, toNat_byte (by omega)]
  · have hle := le_of_mem_encodeChar (Nat.le_of_not_lt hc) h
    omega

theorem encodeChar_ne_nil (c : Char) : String.utf8EncodeChar c ≠ [] := by
  rw [← List.length_pos_iff, String.length_utf8EncodeChar]
  exact c.utf8Size_pos

/-! ## 4. Reading one sequence -/

section Sequences

variable {b c d e : UInt8} (i : Nat) (r : List UInt8)

theorem decodeFrom_one (hf : following b = some 0) :
    decodeFrom i (b :: r) = (decodeFrom (i + 1) r).map (Char.ofNat b.toNat :: ·) := by
  rw [decodeFrom.eq_def]
  simp only [hf]

theorem decodeFrom_two (hf : following b = some 1) (hs : secondOk b c = true) :
    decodeFrom i (b :: c :: r) = (decodeFrom (i + 2) r).map (char₂ b c :: ·) := by
  rw [decodeFrom.eq_def]
  simp only [hf, hs, if_true]

theorem decodeFrom_three (hf : following b = some 2) (hs : secondOk b c = true)
    (hd : isContinuation d = true) :
    decodeFrom i (b :: c :: d :: r) = (decodeFrom (i + 3) r).map (char₃ b c d :: ·) := by
  rw [decodeFrom.eq_def]
  simp only [hf, hs, hd, if_true]

theorem decodeFrom_four (hf : following b = some 3) (hs : secondOk b c = true)
    (hd : isContinuation d = true) (he : isContinuation e = true) :
    decodeFrom i (b :: c :: d :: e :: r) = (decodeFrom (i + 4) r).map (char₄ b c d e :: ·) := by
  rw [decodeFrom.eq_def]
  simp only [hf, hs, hd, he, if_true]

end Sequences

/-- **The bytes of a character are read as that character.** -/
theorem decodeFrom_encodeChar (i : Nat) (x : Char) (r : List UInt8) :
    decodeFrom i (String.utf8EncodeChar x ++ r) =
      (decodeFrom (i + (String.utf8EncodeChar x).length) r).map (x :: ·) := by
  have hx := toNat_range x
  by_cases h1 : x.toNat < 0x80
  · have hb := toNat_byte (n := x.toNat) (by omega)
    rw [encodeChar_one h1]
    generalize UInt8.ofNat x.toNat = b at *
    have hf : following b = some 0 := by rw [following_eq, if_pos (by omega)]
    rw [List.singleton_append, decodeFrom_one i r hf, hb, Char.ofNat_toNat]
    rfl
  by_cases h2 : x.toNat < 0x800
  · have hb := toNat_byte (n := x.toNat / 64 + 0xC0) (by omega)
    have hc := toNat_byte (n := x.toNat % 64 + 0x80) (by omega)
    rw [encodeChar_two (by omega) h2]
    generalize UInt8.ofNat (x.toNat / 64 + 0xC0) = b at *
    generalize UInt8.ofNat (x.toNat % 64 + 0x80) = c at *
    have hf : following b = some 1 := by
      rw [following_eq, if_neg (by omega), if_pos (by omega)]
    have hs : secondOk b c = true := (secondOk_iff b c).mpr (by omega)
    have hv : char₂ b c = x := by
      rw [char₂, low6, show b.toNat % 32 * 64 + c.toNat % 64 = x.toNat by omega, Char.ofNat_toNat]
    exact hv ▸ decodeFrom_two i r hf hs
  by_cases h3 : x.toNat < 0x10000
  · have hb := toNat_byte (n := x.toNat / 4096 + 0xE0) (by omega)
    have hc := toNat_byte (n := x.toNat / 64 % 64 + 0x80) (by omega)
    have hd := toNat_byte (n := x.toNat % 64 + 0x80) (by omega)
    rw [encodeChar_three (by omega) h3]
    generalize UInt8.ofNat (x.toNat / 4096 + 0xE0) = b at *
    generalize UInt8.ofNat (x.toNat / 64 % 64 + 0x80) = c at *
    generalize UInt8.ofNat (x.toNat % 64 + 0x80) = d at *
    have hf : following b = some 2 := by
      rw [following_eq, if_neg (by omega), if_neg (by omega), if_pos (by omega)]
    have hs : secondOk b c = true := (secondOk_iff b c).mpr (by omega)
    have ht : isContinuation d = true := (isContinuation_iff d).mpr (by omega)
    have hv : char₃ b c d = x := by
      rw [char₃, low6, low6,
        show (b.toNat % 16 * 64 + c.toNat % 64) * 64 + d.toNat % 64 = x.toNat by omega,
        Char.ofNat_toNat]
    exact hv ▸ decodeFrom_three i r hf hs ht
  · have hb := toNat_byte (n := x.toNat / 262144 + 0xF0) (by omega)
    have hc := toNat_byte (n := x.toNat / 4096 % 64 + 0x80) (by omega)
    have hd := toNat_byte (n := x.toNat / 64 % 64 + 0x80) (by omega)
    have he := toNat_byte (n := x.toNat % 64 + 0x80) (by omega)
    rw [encodeChar_four (by omega)]
    generalize UInt8.ofNat (x.toNat / 262144 + 0xF0) = b at *
    generalize UInt8.ofNat (x.toNat / 4096 % 64 + 0x80) = c at *
    generalize UInt8.ofNat (x.toNat / 64 % 64 + 0x80) = d at *
    generalize UInt8.ofNat (x.toNat % 64 + 0x80) = e at *
    have hf : following b = some 3 := by
      rw [following_eq, if_neg (by omega), if_neg (by omega), if_neg (by omega), if_pos (by omega)]
    have hs : secondOk b c = true := (secondOk_iff b c).mpr (by omega)
    have ht : isContinuation d = true := (isContinuation_iff d).mpr (by omega)
    have hu : isContinuation e = true := (isContinuation_iff e).mpr (by omega)
    have hv : char₄ b c d e = x := by
      rw [char₄, low6, low6, low6,
        show ((b.toNat % 8 * 64 + c.toNat % 64) * 64 + d.toNat % 64) * 64 + e.toNat % 64 = x.toNat
          by omega,
        Char.ofNat_toNat]
    exact hv ▸ decodeFrom_four i r hf hs ht hu

/-! ## 5. A sequence that is read is what its character is written as -/

section Sequences

variable {b c d e : UInt8}

/-- The leading byte tells how many bytes follow. -/
theorem following_cases {n : Nat} (hf : following b = some n) :
    (n = 0 ∧ b.toNat < 0x80) ∨ (n = 1 ∧ 0xC2 ≤ b.toNat ∧ b.toNat ≤ 0xDF) ∨
      (n = 2 ∧ 0xE0 ≤ b.toNat ∧ b.toNat ≤ 0xEF) ∨ (n = 3 ∧ 0xF0 ≤ b.toNat ∧ b.toNat ≤ 0xF4) := by
  rw [following_eq] at hf
  split at hf
  · cases hf; omega
  split at hf
  · cases hf; omega
  split at hf
  · cases hf; omega
  split at hf
  · cases hf; omega
  · cases hf

theorem encodeChar_ofNat (hf : following b = some 0) :
    String.utf8EncodeChar (Char.ofNat b.toNat) = [b] := by
  have hb := following_cases hf
  have hn : (Char.ofNat b.toNat).toNat = b.toNat := toNat_charOfNat (by omega)
  rw [encodeChar_one (by omega), hn, UInt8.ofNat_toNat]

theorem encodeChar_char₂ (hf : following b = some 1) (hs : secondOk b c = true) :
    String.utf8EncodeChar (char₂ b c) = [b, c] := by
  have hb := following_cases hf
  rw [secondOk_iff] at hs
  have hn : (char₂ b c).toNat = b.toNat % 32 * 64 + c.toNat % 64 := by
    rw [char₂, low6, toNat_charOfNat (by omega)]
  rw [encodeChar_two (by omega) (by omega)]
  congr 1
  · exact ((eq_byte_iff (by omega)).mpr (by omega)).symm
  congr 1
  exact ((eq_byte_iff (by omega)).mpr (by omega)).symm

theorem encodeChar_char₃ (hf : following b = some 2) (hs : secondOk b c = true)
    (hd : isContinuation d = true) : String.utf8EncodeChar (char₃ b c d) = [b, c, d] := by
  have hb := following_cases hf
  rw [secondOk_iff] at hs
  rw [isContinuation_iff] at hd
  have hn : (char₃ b c d).toNat = (b.toNat % 16 * 64 + c.toNat % 64) * 64 + d.toNat % 64 := by
    rw [char₃, low6, low6, toNat_charOfNat (by omega)]
  rw [encodeChar_three (by omega) (by omega)]
  congr 1
  · exact ((eq_byte_iff (by omega)).mpr (by omega)).symm
  congr 1
  · exact ((eq_byte_iff (by omega)).mpr (by omega)).symm
  congr 1
  exact ((eq_byte_iff (by omega)).mpr (by omega)).symm

theorem encodeChar_char₄ (hf : following b = some 3) (hs : secondOk b c = true)
    (hd : isContinuation d = true) (he : isContinuation e = true) :
    String.utf8EncodeChar (char₄ b c d e) = [b, c, d, e] := by
  have hb := following_cases hf
  rw [secondOk_iff] at hs
  rw [isContinuation_iff] at hd he
  have hn : (char₄ b c d e).toNat =
      ((b.toNat % 8 * 64 + c.toNat % 64) * 64 + d.toNat % 64) * 64 + e.toNat % 64 := by
    rw [char₄, low6, low6, low6, toNat_charOfNat (by omega)]
  rw [encodeChar_four (by omega)]
  congr 1
  · exact ((eq_byte_iff (by omega)).mpr (by omega)).symm
  congr 1
  · exact ((eq_byte_iff (by omega)).mpr (by omega)).symm
  congr 1
  · exact ((eq_byte_iff (by omega)).mpr (by omega)).symm
  congr 1
  exact ((eq_byte_iff (by omega)).mpr (by omega)).symm

end Sequences

/-! ## 6. Whole byte lists -/

theorem decodeFrom_encodeChars (i : Nat) (cs : List Char) :
    decodeFrom i (encodeChars cs) = .ok cs := by
  induction cs generalizing i with
  | nil => rfl
  | cons c cs ih =>
    rw [encodeChars_cons, decodeFrom_encodeChar, ih]
    rfl

theorem map_cons_eq_ok {x : Char} {o : Except Broken (List Char)} {cs : List Char}
    (h : o.map (x :: ·) = .ok cs) : ∃ ds, o = .ok ds ∧ cs = x :: ds := by
  cases o with
  | error e => cases h
  | ok ds => cases h; exact ⟨ds, rfl, rfl⟩

theorem eq_encodeChars_of_decodeFrom {i : Nat} {bs : List UInt8} {cs : List Char}
    (h : decodeFrom i bs = .ok cs) : bs = encodeChars cs := by
  -- the cases are those of the reader; only five of them end in characters
  fun_induction decodeFrom i bs generalizing cs with
  | case1 => cases h; rfl
  | case3 i b r hf ih =>
    obtain ⟨ds, hds, rfl⟩ := map_cons_eq_ok h
    rw [encodeChars_cons, encodeChar_ofNat hf, ← ih hds]
    rfl
  | case5 i b hf c r hs ih =>
    obtain ⟨ds, hds, rfl⟩ := map_cons_eq_ok h
    rw [encodeChars_cons, encodeChar_char₂ hf hs, ← ih hds]
    rfl
  | case9 i b hf c hs d r hd ih =>
    obtain ⟨ds, hds, rfl⟩ := map_cons_eq_ok h
    rw [encodeChars_cons, encodeChar_char₃ hf hs hd, ← ih hds]
    rfl
  | case15 i b n h0 h1 h2 hf c hs d hd e r he ih =>
    obtain ⟨ds, hds, rfl⟩ := map_cons_eq_ok h
    have hn : n = 3 := by
      rcases following_cases hf with ⟨e0, -⟩ | ⟨e1, -⟩ | ⟨e2, -⟩ | ⟨e3, -⟩
      · exact (h0 e0).elim
      · exact (h1 e1).elim
      · exact (h2 e2).elim
      · exact e3
    rw [encodeChars_cons, encodeChar_char₄ (hn ▸ hf) hs hd he, ← ih hds]
    rfl
  | _ => cases h

/-- **Bytes read as characters exactly if they are what these characters are written as.** -/
theorem decodeChars_eq_ok_iff {bs : List UInt8} {cs : List Char} :
    decodeChars bs = .ok cs ↔ bs = encodeChars cs :=
  ⟨eq_encodeChars_of_decodeFrom, fun h => h ▸ decodeFrom_encodeChars 0 cs⟩

/-- So they read as a text exactly if they are what this text is written as. -/
theorem decode?_eq_some_iff {bs : List UInt8} {s : String} : decode? bs = some s ↔ bs = encode s := by
  rw [decode?, decode, encode, ← decodeChars_eq_ok_iff]
  cases decodeChars bs with
  | error e => exact ⟨fun h => (by cases h), fun h => (by cases h)⟩
  | ok cs =>
    simp only [Except.map, Except.toOption, Option.some.injEq, Except.ok.injEq]
    exact ⟨fun h => h ▸ (String.toList_ofList).symm, fun h => h ▸ String.ofList_toList⟩

theorem encodeChars_append (cs ds : List Char) :
    encodeChars (cs ++ ds) = encodeChars cs ++ encodeChars ds := List.flatMap_append

/-- A character is at least one byte. -/
theorem length_le_encodeChars (cs : List Char) : cs.length ≤ (encodeChars cs).length := by
  induction cs with
  | nil => exact Nat.le_refl 0
  | cons c cs ih =>
    have hpos := List.length_pos_iff.mpr (encodeChar_ne_nil c)
    rw [encodeChars_cons, List.length_append, List.length_cons]
    omega

/-- An ASCII byte is in the bytes of characters only if its character is among them. -/
theorem not_mem_encodeChars {b : UInt8} (hb : b.toNat < 0x80) {cs : List Char}
    (h : ∀ c ∈ cs, c.toNat ≠ b.toNat) : b ∉ encodeChars cs := by
  intro hm
  obtain ⟨c, hc, hbc⟩ := List.mem_flatMap.mp hm
  exact h c hc (encodeChar_of_mem hb hbc)

/-- Text that ends in an ASCII byte ends in the character of that byte. -/
theorem exists_last_char {b : UInt8} (hb : b.toNat < 0x80) {q : List UInt8} {cs : List Char}
    (h : q ++ [b] = encodeChars cs) :
    ∃ ds c, cs = ds ++ [c] ∧ c.toNat = b.toNat ∧ q = encodeChars ds := by
  rcases List.eq_nil_or_concat cs with rfl | ⟨ds, c, rfl⟩
  · exact absurd (congrArg List.length h) (by simp)
  · rw [List.concat_eq_append, encodeChars_append, encodeChars_cons, encodeChars_nil,
      List.append_nil] at h
    have hmem : b ∈ String.utf8EncodeChar c := by
      have hall := congrArg List.getLast? h
      rw [List.getLast?_concat, List.getLast?_append] at hall
      cases hlast : (String.utf8EncodeChar c).getLast? with
      | none => exact absurd (List.getLast?_eq_none_iff.mp hlast) (encodeChar_ne_nil c)
      | some d =>
        rw [hlast, Option.some_or] at hall
        exact Option.some.inj hall ▸ List.mem_of_getLast? hlast
    have hc : c.toNat = b.toNat := encodeChar_of_mem hb hmem
    rw [encodeChar_one (hc ▸ hb)] at h
    exact ⟨ds, c, List.concat_eq_append, hc, List.append_inj_left' h rfl⟩

end EditorBridge.Text.Utf8
