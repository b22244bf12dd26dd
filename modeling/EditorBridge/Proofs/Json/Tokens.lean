import EditorBridge.Json.Printer
import EditorBridge.Json.Reader
import EditorBridge.Proofs.Text.Numeral
import EditorBridge.Proofs.Text.Utf8

/-!
# Strings and integers of JSON, written and read

What the printer writes for a string or an integer is one token for the reader, whatever follows it, and
this token has the value that was written.

* `pieces`, **`stringRest?_stringChars`**, **`stringText?_pieces`** -- a string;
* `digitValues`, **`literal?_digits`**, **`value?_literal`** -- an integer that fits 64 bits.
-/

namespace EditorBridge.Json

open EditorBridge.Text

/-! ## 1. Strings -/

/-- A control that is written with its number. -/
def isNumbered (c : Char) : Bool :=
  decide (c.toNat < 32 ∧ c ≠ '\n' ∧ c ≠ '\r' ∧ c ≠ '\t' ∧ c ≠ '\x08' ∧ c ≠ '\x0c')

/-- What the reader finds for a character that has been written. -/
def charPieces (c : Char) : List Piece :=
  if isNumbered c then [.unit c.toNat] else (String.utf8EncodeChar c).map .byte

/-- What the reader finds for characters that have been written. -/
def pieces (cs : List Char) : List Piece := cs.flatMap charPieces

/-- The rest of a string behind pieces that have been found. -/
def behind (ps : List Piece) (o : Option (List Piece × List UInt8)) : Option (List Piece × List UInt8) :=
  o.map fun (qs, r) => (ps ++ qs, r)

theorem behind_append (ps qs : List Piece) (o : Option (List Piece × List UInt8)) :
    behind (ps ++ qs) o = behind ps (behind qs o) := by
  cases o with
  | none => rfl
  | some x => simp [behind, List.append_assoc]

/-- A character below `80` is one byte. -/
theorem encodeChars_ascii {c : Char} (h : c.toNat < 0x80) (cs : List Char) :
    Utf8.encodeChars (c :: cs) = UInt8.ofNat c.toNat :: Utf8.encodeChars cs := by
  rw [Utf8.encodeChars_cons, Utf8.encodeChar_one h]
  rfl

theorem stringRest?_escape {e x : UInt8} (he : e ≠ 0x75) (hx : escaped? e = some x) (r : List UInt8) :
    stringRest? (0x5C :: e :: r) = behind [.byte x] (stringRest? r) := by
  have hslash : ¬ (0x5C : UInt8) = 0x22 := by decide
  rw [stringRest?.eq_def]
  simp only [if_neg hslash, if_true, if_neg he, hx, Option.bind_some]
  rfl

theorem stringRest?_unit {h₁ h₂ : UInt8} {a b : Nat} (ha : hexValue? h₁ = some a) (hb : hexValue? h₂ = some b)
    (r : List UInt8) :
    stringRest? (0x5C :: 0x75 :: 0x30 :: 0x30 :: h₁ :: h₂ :: r) =
      behind [.unit (a * 16 + b)] (stringRest? r) := by
  have hslash : ¬ (0x5C : UInt8) = 0x22 := by decide
  have hzero : hexValue? 0x30 = some 0 := by decide
  rw [stringRest?.eq_def]
  simp only [if_neg hslash, if_true, hzero, ha, hb, Nat.zero_mul, Nat.zero_add]
  rfl

theorem stringRest?_byte {b : UInt8} (hquote : b ≠ 0x22) (hslash : b ≠ 0x5C) (hcontrol : ¬ b < 0x20)
    (r : List UInt8) : stringRest? (b :: r) = behind [.byte b] (stringRest? r) := by
  rw [stringRest?.eq_def]
  simp only [if_neg hquote, if_neg hslash, if_neg hcontrol]
  rfl

theorem stringRest?_bytes {bs : List UInt8} (h : ∀ b ∈ bs, b ≠ 0x22 ∧ b ≠ 0x5C ∧ ¬ b < 0x20)
    (r : List UInt8) : stringRest? (bs ++ r) = behind (bs.map .byte) (stringRest? r) := by
  induction bs with
  | nil => cases hr : stringRest? r <;> simp [behind, hr]
  | cons b bs ih =>
    obtain ⟨hquote, hslash, hcontrol⟩ := h b List.mem_cons_self
    have hrest := ih fun x hx => h x (List.mem_cons_of_mem _ hx)
    rw [List.cons_append, stringRest?_byte hquote hslash hcontrol, hrest]
    exact (behind_append [.byte b] (bs.map .byte) (stringRest? r)).symm

/-- A digit that is written is read. -/
theorem hexValue?_hexDigit {d : Nat} (h : d < 16) :
    hexValue? (UInt8.ofNat (Quoted.hexDigit d).toNat) = some d ∧ (Quoted.hexDigit d).toNat < 0x80 := by
  revert h
  revert d
  decide

/-- A control that is written with its number is found again. -/
theorem stringRest?_numbered {c : Char} (h : c.toNat < 32) (r : List UInt8) :
    stringRest? (Utf8.encodeChars
        ['\\', 'u', '0', '0', Quoted.hexDigit (c.toNat / 16), Quoted.hexDigit (c.toNat % 16)] ++ r) =
      behind [.unit c.toNat] (stringRest? r) := by
  obtain ⟨ha, hasmall⟩ := hexValue?_hexDigit (d := c.toNat / 16) (by omega)
  obtain ⟨hb, hbsmall⟩ := hexValue?_hexDigit (d := c.toNat % 16) (by omega)
  have hread := stringRest?_unit ha hb r
  rw [show c.toNat / 16 * 16 + c.toNat % 16 = c.toNat by omega] at hread
  rw [encodeChars_ascii (by decide), encodeChars_ascii (by decide), encodeChars_ascii (by decide),
    encodeChars_ascii (by decide), encodeChars_ascii hasmall, encodeChars_ascii hbsmall]
  exact hread

/-- A character that stands for itself is found again. -/
theorem stringRest?_plain {c : Char} (hquote : c ≠ '"') (hslash : c ≠ '\\') (hcontrol : ¬ c.toNat < 32)
    (r : List UInt8) :
    stringRest? (String.utf8EncodeChar c ++ r) =
      behind ((String.utf8EncodeChar c).map .byte) (stringRest? r) := by
  refine stringRest?_bytes (fun b hb => ?_) r
  by_cases hsmall : c.toNat < 0x80
  · rw [Utf8.encodeChar_one hsmall, List.mem_singleton] at hb
    have hvalue : b.toNat = c.toNat := by rw [hb]; exact Utf8.toNat_byte (by omega)
    have hne : ∀ {x : Char}, c ≠ x → c.toNat ≠ x.toNat := fun hx h => hx (Char.toNat_inj.mp h)
    refine ⟨fun h => ?_, fun h => ?_, fun h => ?_⟩
    · exact hne hquote (hvalue.symm.trans (congrArg UInt8.toNat h))
    · exact hne hslash (hvalue.symm.trans (congrArg UInt8.toNat h))
    · have hlt : b.toNat < 32 := UInt8.lt_iff_toNat_lt.mp h
      omega
  · have hlarge : 0x80 ≤ b.toNat := Utf8.le_of_mem_encodeChar (by omega) hb
    refine ⟨fun h => ?_, fun h => ?_, fun h => ?_⟩
    · rw [h] at hlarge
      exact absurd hlarge (by decide)
    · rw [h] at hlarge
      exact absurd hlarge (by decide)
    · have hlt : b.toNat < 32 := UInt8.lt_iff_toNat_lt.mp h
      omega

/-- A character that has been written is found again. -/
theorem stringRest?_escapeChar (c : Char) (r : List UInt8) :
    stringRest? (Utf8.encodeChars (escapeChar c) ++ r) = behind (charPieces c) (stringRest? r) := by
  have hletter : ∀ {e : Char} {x : UInt8}, e.toNat < 0x80 → UInt8.ofNat e.toNat ≠ 0x75 →
      escaped? (UInt8.ofNat e.toNat) = some x → charPieces c = [.byte x] →
      stringRest? (Utf8.encodeChars ['\\', e] ++ r) = behind (charPieces c) (stringRest? r) := by
    intro e x he hu hx hc
    rw [encodeChars_ascii (by decide), encodeChars_ascii he, hc]
    exact stringRest?_escape hu hx r
  -- the seven characters that have a letter, the other controls, and all others
  rw [escapeChar]
  by_cases h₁ : c = '"'
  · subst h₁
    exact hletter (x := 0x22) (by decide) (by decide) (by decide) (by decide)
  by_cases h₂ : c = '\\'
  · subst h₂
    exact hletter (x := 0x5C) (by decide) (by decide) (by decide) (by decide)
  by_cases h₃ : c = '\n'
  · subst h₃
    exact hletter (x := 0x0A) (by decide) (by decide) (by decide) (by decide)
  by_cases h₄ : c = '\r'
  · subst h₄
    exact hletter (x := 0x0D) (by decide) (by decide) (by decide) (by decide)
  by_cases h₅ : c = '\t'
  · subst h₅
    exact hletter (x := 0x09) (by decide) (by decide) (by decide) (by decide)
  by_cases h₆ : c = '\x08'
  · subst h₆
    exact hletter (x := 0x08) (by decide) (by decide) (by decide) (by decide)
  by_cases h₇ : c = '\x0c'
  · subst h₇
    exact hletter (x := 0x0C) (by decide) (by decide) (by decide) (by decide)
  rw [if_neg h₁, if_neg h₂, if_neg h₃, if_neg h₄, if_neg h₅, if_neg h₆, if_neg h₇]
  have hnumbered : isNumbered c = decide (c.toNat < 32) := by
    rw [isNumbered, decide_eq_decide]
    exact ⟨fun h => h.1, fun h => ⟨h, h₃, h₄, h₅, h₆, h₇⟩⟩
  rw [charPieces, hnumbered]
  by_cases hcontrol : c.toNat < 32
  · rw [if_pos hcontrol, if_pos (decide_eq_true hcontrol)]
    exact stringRest?_numbered hcontrol r
  · have hbytes : Utf8.encodeChars [c] = String.utf8EncodeChar c := List.append_nil _
    rw [if_neg hcontrol, if_neg (by simpa using hcontrol), hbytes]
    exact stringRest?_plain h₁ h₂ hcontrol r

/-- **A string that has been written is found again**, up to its closing quote. -/
theorem stringRest?_stringChars (cs : List Char) (r : List UInt8) :
    stringRest? (Utf8.encodeChars (cs.flatMap escapeChar ++ ['"']) ++ r) = some (pieces cs, r) := by
  induction cs with
  | nil =>
    have hquote : stringRest? (0x22 :: r) = some ([], r) := by
      rw [stringRest?.eq_def]
      rfl
    exact hquote
  | cons c cs ih =>
    rw [List.flatMap_cons, List.append_assoc, Utf8.encodeChars_append, List.append_assoc,
      stringRest?_escapeChar, ih]
    rfl

theorem pieceBytes_bytes (bs : List UInt8) (ps : List Piece) :
    pieceBytes (bs.map .byte ++ ps) = (pieceBytes ps).map (bs ++ ·) := by
  induction bs with
  | nil => cases h : pieceBytes ps <;> simp [h]
  | cons b bs ih =>
    rw [List.map_cons, List.cons_append, pieceBytes, ih]
    cases pieceBytes ps <;> rfl

theorem pieceBytes_pieces (cs : List Char) : pieceBytes (pieces cs) = some (Utf8.encodeChars cs) := by
  induction cs with
  | nil => rfl
  | cons c cs ih =>
    have hcons : pieces (c :: cs) = charPieces c ++ pieces cs := rfl
    rw [hcons, Utf8.encodeChars_cons, charPieces]
    by_cases hc : isNumbered c = true
    · have hsmall : c.toNat < 32 := by
        exact (of_decide_eq_true hc).1
      rw [if_pos hc, List.singleton_append, pieceBytes.eq_def]
      simp only [if_neg (show ¬ (0xDC00 ≤ c.toNat ∧ c.toNat ≤ 0xDFFF) by omega),
        if_neg (show ¬ (0xD800 ≤ c.toNat ∧ c.toNat ≤ 0xDBFF) by omega), ih, Char.ofNat_toNat]
      rfl
    · rw [if_neg hc, pieceBytes_bytes, ih]
      rfl

/-- **What is found for a string is its text.** -/
theorem stringText?_pieces (s : String) : stringText? (pieces s.toList) = some s := by
  rw [stringText?, pieceBytes_pieces, Option.bind_some, Utf8.decode?, Utf8.decode,
    Utf8.decodeChars_eq_ok_iff.mpr rfl]
  exact congrArg some String.ofList_toList

/-! ## 2. Integers -/

/-- The values of digits. -/
def digitValues (ds : List Char) : List Nat := ds.map fun c => c.toNat - 48

/-- What the reader finds for an integer that has been written. -/
def literal : Int → Literal
  | .ofNat n => ⟨false, digitValues (Numeral.digits n), [], none⟩
  | .negSucc n => ⟨true, digitValues (Numeral.digits (n + 1)), [], none⟩

/-- Whether a number ends before these bytes. -/
def endsNumber : List UInt8 → Bool
  | [] => true
  | b :: _ => !isDigit b && b != 0x2E && b != 0x65 && b != 0x45

theorem toNat_of_isDigit {c : Char} (h : c.isDigit = true) : 48 ≤ c.toNat ∧ c.toNat ≤ 57 := by
  simp only [Char.isDigit, Bool.and_eq_true, decide_eq_true_eq, ge_iff_le] at h
  exact ⟨UInt32.le_iff_toNat_le.mp h.1, UInt32.le_iff_toNat_le.mp h.2⟩

theorem isDigit_byte {n : Nat} (h : 48 ≤ n ∧ n ≤ 57) : isDigit (UInt8.ofNat n) = true := by
  have hn : (UInt8.ofNat n).toNat = n := Utf8.toNat_byte (by omega)
  have hlow : (0x30 : UInt8) ≤ UInt8.ofNat n := UInt8.le_iff_toNat_le.mpr (hn.symm ▸ h.1)
  have hhigh : UInt8.ofNat n ≤ (0x39 : UInt8) := UInt8.le_iff_toNat_le.mpr (hn.symm ▸ h.2)
  rw [isDigit, decide_eq_true hlow, decide_eq_true hhigh]
  rfl

/-- Digits that have been written are found, up to what is none. -/
theorem spanDigits_encodeChars {ds : List Char} (h : ∀ c ∈ ds, c.isDigit = true) {r : List UInt8}
    (hr : endsNumber r = true) : spanDigits (Utf8.encodeChars ds ++ r) = (digitValues ds, r) := by
  induction ds with
  | nil =>
    cases r with
    | nil => rfl
    | cons b r =>
      have hb : isDigit b = false := by
        simp only [endsNumber, Bool.and_eq_true, Bool.not_eq_true'] at hr
        exact hr.1.1.1
      show spanDigits (b :: r) = ([], b :: r)
      rw [spanDigits, List.takeWhile_cons_of_neg (by simp [hb]), List.dropWhile_cons_of_neg (by simp [hb])]
      rfl
  | cons c ds ih =>
    have hc := toNat_of_isDigit (h c List.mem_cons_self)
    have hbyte : isDigit (UInt8.ofNat c.toNat) = true := isDigit_byte hc
    have hvalue : (UInt8.ofNat c.toNat).toNat = c.toNat := Utf8.toNat_byte (by omega)
    have hrest := ih fun x hx => h x (List.mem_cons_of_mem _ hx)
    rw [spanDigits, Prod.mk.injEq] at hrest
    rw [encodeChars_ascii (by omega), List.cons_append, spanDigits, List.takeWhile_cons_of_pos hbyte,
      List.dropWhile_cons_of_pos hbyte, List.map_cons, hrest.1, hrest.2, hvalue]
    rfl

/-- No number but zero begins with a zero. -/
theorem exists_digits_of_ne_zero {n : Nat} (h : n ≠ 0) :
    ∃ c cs, Numeral.digits n = c :: cs ∧ c.toNat ≠ 48 := by
  induction n using Numeral.digits.induct with
  | case1 n hn =>
    refine ⟨Numeral.digitChar n, [], by rw [Numeral.digits, if_pos hn], ?_⟩
    rw [Numeral.toNat_digitChar hn]
    omega
  | case2 n hn ih =>
    obtain ⟨c, cs, hcs, hc⟩ := ih (by omega)
    refine ⟨c, cs ++ [Numeral.digitChar (n % 10)], ?_, hc⟩
    rw [Numeral.digits, if_neg hn, hcs]
    rfl

theorem wholeDigits?_digits (n : Nat) {r : List UInt8} (hr : endsNumber r = true) :
    wholeDigits? (Utf8.encodeChars (Numeral.digits n) ++ r) = some (digitValues (Numeral.digits n), r) := by
  rw [wholeDigits?, spanDigits_encodeChars (fun c hc => Numeral.isDigit_of_mem_digits hc) hr]
  by_cases h : n = 0
  · have hzero : Numeral.digits 0 = ['0'] := by
      rw [Numeral.digits, if_pos (by decide)]
      rfl
    rw [h, hzero]
    rfl
  · obtain ⟨c, cs, hcs, hc⟩ := exists_digits_of_ne_zero h
    have hdigit : c.isDigit = true := Numeral.isDigit_of_mem_digits (hcs ▸ List.mem_cons_self)
    have hlow := (toNat_of_isDigit hdigit).1
    rw [hcs]
    have hvalues : digitValues (c :: cs) = (c.toNat - 48) :: digitValues cs := rfl
    rw [hvalues]
    cases hd : c.toNat - 48 with
    | zero => omega
    | succ d => rfl

/-- **A number that has been written is found again**, up to what cannot belong to it. -/
theorem literal?_digits (negative : Bool) (n : Nat) {r : List UInt8} (hr : endsNumber r = true) :
    literal? negative (Utf8.encodeChars (Numeral.digits n) ++ r) =
      some (⟨negative, digitValues (Numeral.digits n), [], none⟩, r) := by
  have hfraction : fractionDigits? r = some ([], r) := by
    unfold fractionDigits?
    split
    · cases hr
    · rfl
  have hexponent : exponentDigits? r = some (none, r) := by
    unfold exponentDigits?
    dsimp only
    split
    · cases hr
    · cases hr
    · rfl
  rw [literal?, wholeDigits?_digits n hr]
  simp only [Option.bind_eq_bind, Option.bind_some, hfraction, hexponent]
  rfl

theorem le_positional (s : Nat) (ds : List Char) : s ≤ Numeral.positional s ds := by
  induction ds generalizing s with
  | nil => exact Nat.le_refl s
  | cons c ds ih =>
    have hnext : s * 10 + (c.toNat - 48) ≤ Numeral.positional s (c :: ds) := ih _
    omega

theorem takeWhole_digitValues {s : Nat} {ds : List Char} (h : Numeral.positional s ds ≤ Numeral.maxU64) :
    Literal.takeWhole s (digitValues ds) = (Numeral.positional s ds, 0) := by
  induction ds generalizing s with
  | nil => rfl
  | cons c ds ih =>
    have hfits : s * 10 + (c.toNat - 48) ≤ Numeral.maxU64 := Nat.le_trans (le_positional _ ds) h
    have hcons : digitValues (c :: ds) = (c.toNat - 48) :: digitValues ds := rfl
    rw [hcons, Literal.takeWhole, if_pos hfits, ih h]
    rfl

/-- **What is found for an integer is its value**, if it fits 64 bits. -/
theorem value?_literal {n : Int} (hlow : -9223372036854775808 ≤ n) (hhigh : n ≤ 18446744073709551615) :
    (literal n).value? = some (.int n) := by
  have hwhole : ∀ m : Nat, m ≤ 18446744073709551615 →
      Literal.takeWhole 0 (digitValues (Numeral.digits m)) = (m, 0) := by
    intro m hm
    have hvalue := Numeral.positional_digits m
    rw [takeWhole_digitValues (by rw [hvalue]; exact hm), hvalue]
  cases n with
  | ofNat n =>
    have hn : n ≤ 18446744073709551615 := by
      have hcast : ((n : Nat) : Int) ≤ 18446744073709551615 := hhigh
      omega
    rw [literal, Literal.value?]
    simp only [hwhole n hn]
    rfl
  | negSucc n =>
    have hn : n + 1 ≤ 9223372036854775808 := by omega
    have hguard : n + 1 ≠ 0 ∧ n + 1 ≤ 9223372036854775808 := ⟨Nat.succ_ne_zero n, hn⟩
    rw [literal, Literal.value?]
    simp only [hwhole (n + 1) (by omega)]
    show (if n + 1 ≠ 0 ∧ n + 1 ≤ 9223372036854775808 then some (Json.int (-((n + 1 : Nat) : Int))) else _) = _
    rw [if_pos hguard]
    rfl

end EditorBridge.Json
