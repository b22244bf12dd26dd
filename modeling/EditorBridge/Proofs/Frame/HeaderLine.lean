import Mathlib.Algebra.Group.Nat.Defs
import EditorBridge.Frame
import EditorBridge.Proofs.Text.Blank
import EditorBridge.Proofs.Text.Utf8

/-!
# What a header line says

The reader takes a header line apart from its end and from its first colon. Here the lines are
described as they are written, and the reader is shown to see exactly that:

* `NamesLength l value` -- the line `l` is a `Content-Length` line with this value: its name, up to
  the first colon, is `content-length` in any case, with white space around it;
* `GivesLength l n` -- moreover the value is a numeral of a 64-bit number `n`, with white space
  around it;
* `ofBytes_blank`, `ofBytes_length`, `ofBytes_other`, `ofBytes_badLength`, `ofBytes_of_not_isText` --
  what the reader finds in a line, and in a last line without a line feed.
-/

namespace EditorBridge.Frame

open EditorBridge.Text

/-! ## 1. Lines -/

/-- A carriage return. -/
def cr : UInt8 := 0x0D

/-- A line feed. -/
def lf : UInt8 := 0x0A

/-- Any bytes up to and including a line feed. -/
def IsLine (l : List UInt8) : Prop := ∃ t, lf ∉ t ∧ l = t ++ [lf]

/-- Only carriage returns before a line feed. -/
def IsBlankLine (l : List UInt8) : Prop := ∃ k, l = List.replicate k cr ++ [lf]

/-- The bytes are valid UTF-8. -/
def IsText (l : List UInt8) : Prop := ∃ cs, l = Utf8.encodeChars cs

/-- A `Content-Length` line with this value. -/
def NamesLength (l : List UInt8) (value : List Char) : Prop :=
  ∃ name, l = Utf8.encodeChars (name ++ ':' :: value) ∧ ':' ∉ name ∧
    ∃ core, Padded core name ∧ core.map lowerAscii = "content-length".toList

/-- A `Content-Length` line whose value is a numeral of the 64-bit number `n`. -/
def GivesLength (l : List UInt8) (n : Nat) : Prop :=
  ∃ value numeral, NamesLength l value ∧ Padded numeral value ∧ Numeral.Spells numeral n ∧ n < 2 ^ 64

/-- The bytes hold nothing but ends of lines. -/
def IsEmptyLine (l : List UInt8) : Prop := ∀ b ∈ l, b = cr ∨ b = lf

theorem isLine_of_isBlankLine {l : List UInt8} (h : IsBlankLine l) : IsLine l := by
  obtain ⟨k, rfl⟩ := h
  refine ⟨List.replicate k cr, fun hm => ?_, rfl⟩
  have e := List.eq_of_mem_replicate hm
  revert e
  decide

theorem eq_replicate_of_isEmptyLine {t : List UInt8} (ht : lf ∉ t) (h : IsEmptyLine t) :
    t = List.replicate t.length cr := by
  refine List.eq_replicate_iff.mpr ⟨rfl, fun b hb => ?_⟩
  rcases h b hb with e | e
  · exact e
  · exact absurd (e ▸ hb) ht

theorem isEmptyLine_replicate (k : Nat) : IsEmptyLine (List.replicate k cr) :=
  fun _ hb => Or.inl (List.eq_of_mem_replicate hb)

theorem isBlankLine_iff {l : List UInt8} (hl : IsLine l) : IsBlankLine l ↔ IsEmptyLine l := by
  constructor
  · rintro ⟨k, rfl⟩ b hb
    rcases List.mem_append.mp hb with hb | hb
    · exact isEmptyLine_replicate k b hb
    · exact Or.inr (List.mem_singleton.mp hb)
  · intro h
    obtain ⟨t, ht, rfl⟩ := hl
    have e := eq_replicate_of_isEmptyLine ht fun b hb => h b (List.mem_append_left _ hb)
    exact ⟨t.length, by rw [← e]⟩

/-! ## 2. Names -/

theorem lowerAscii_of_isBlank {c : Char} (h : isBlank c = true) : lowerAscii c = c := by
  refine if_neg fun hc => ?_
  have h1 : 65 ≤ c.toNat := hc.1
  have h2 : c.toNat ≤ 90 := hc.2
  simp only [isBlank, Bool.or_eq_true, Bool.and_eq_true, decide_eq_true_eq, beq_iff_eq] at h
  omega

theorem isBlank_of_lowerAscii_mem {c : Char} (h : lowerAscii c ∈ "content-length".toList) :
    isBlank c = false := by
  cases hb : isBlank c with
  | false => rfl
  | true =>
    rw [lowerAscii_of_isBlank hb] at h
    have hall : ("content-length".toList.all fun x => !isBlank x) = true := rfl
    have hc := List.all_eq_true.mp hall c h
    rw [hb] at hc
    cases hc

/-- **A name counts exactly if it is `content-length` in any case, with white space around it.** -/
theorem isLengthName_iff (name : List Char) :
    isLengthName name = true ↔
      ∃ core, Padded core name ∧ core.map lowerAscii = "content-length".toList := by
  rw [isLengthName, beq_iff_eq]
  constructor
  · exact fun h => ⟨trim name, padded_trim name, h⟩
  · rintro ⟨core, hp, hc⟩
    have hne : core ≠ [] := by
      rintro rfl
      exact absurd hc (by decide)
    have hcore : ∀ c ∈ core, isBlank c = false := fun c hm =>
      isBlank_of_lowerAscii_mem (hc ▸ List.mem_map_of_mem hm)
    rw [trim_of_padded hp hne hcore]
    exact hc

/-! ## 3. Characters of a line -/

/-- The characters that end a line. -/
def endsLine (c : Char) : Bool := c == '\r' || c == '\n'

theorem endsLine_iff (c : Char) : endsLine c = true ↔ c = '\r' ∨ c = '\n' := by
  simp [endsLine]

/-- Without the end of the line. -/
def withoutEnd (cs : List Char) : List Char := trimEndWhile endsLine cs

theorem withoutEnd_append (cs : List Char) : ∃ tail, cs = withoutEnd cs ++ tail ∧
    ∀ c ∈ tail, endsLine c = true := by
  refine ⟨(cs.reverse.takeWhile endsLine).reverse, ?_, fun c hc =>
    List.mem_takeWhile_imp (List.mem_reverse.mp hc)⟩
  unfold withoutEnd trimEndWhile
  rw [← List.reverse_append, List.takeWhile_append_dropWhile, List.reverse_reverse]

/-- A character that does not end the line keeps what is before it. -/
theorem withoutEnd_append_cons {x : Char} (hx : endsLine x = false) (as bs : List Char) :
    withoutEnd (as ++ x :: bs) = as ++ x :: withoutEnd bs := by
  unfold withoutEnd trimEndWhile
  rw [List.reverse_append, List.reverse_cons, List.append_assoc, List.dropWhile_append]
  split
  · rename_i h
    rw [List.isEmpty_iff] at h
    rw [h, List.singleton_append, List.dropWhile_cons, hx, if_neg Bool.false_ne_true]
    simp
  · simp

theorem withoutEnd_eq_nil_iff (cs : List Char) :
    withoutEnd cs = [] ↔ ∀ c ∈ cs, endsLine c = true := by
  unfold withoutEnd trimEndWhile
  rw [List.reverse_eq_nil_iff, List.dropWhile_eq_nil_iff]
  simp

theorem trim_append_of_isBlank {cs tail : List Char} (h : ∀ c ∈ tail, isBlank c = true) :
    trim (cs ++ tail) = trim cs := by
  unfold trim trimStartWhile
  rw [List.dropWhile_append]
  split
  · rename_i he
    rw [List.isEmpty_iff] at he
    rw [he, List.dropWhile_eq_nil_iff.mpr h]
  · unfold trimEndWhile
    rw [List.reverse_append, List.dropWhile_append_of_pos fun c hc => h c (List.mem_reverse.mp hc)]

theorem isBlank_of_endsLine {c : Char} (h : endsLine c = true) : isBlank c = true := by
  rcases (endsLine_iff c).mp h with rfl | rfl <;> rfl

/-- The end of the line is white space, which is trimmed off a value anyway. -/
theorem trim_withoutEnd (cs : List Char) : trim (withoutEnd cs) = trim cs := by
  obtain ⟨tail, e, ht⟩ := withoutEnd_append cs
  conv => rhs; rw [e]
  exact (trim_append_of_isBlank fun c hc => isBlank_of_endsLine (ht c hc)).symm

/-! ## 4. What the characters of a line say -/

theorem ofChars_eq (cs : List Char) :
    HeaderLine.ofChars cs =
      if (withoutEnd cs).isEmpty then .ok .blank
      else
        match (withoutEnd cs).dropWhile (· != ':') with
        | _ :: value =>
          if isLengthName ((withoutEnd cs).takeWhile (· != ':')) then
            match Numeral.readUnsigned Numeral.maxU64 (trim value) with
            | some n => .ok (.length n)
            | none => .error .badLength
          else .ok .other
        | [] => .ok .other := rfl

theorem ofChars_blank {cs : List Char} (h : ∀ c ∈ cs, endsLine c = true) :
    HeaderLine.ofChars cs = .ok .blank := by
  rw [ofChars_eq, (withoutEnd_eq_nil_iff cs).mpr h]
  rfl

theorem ofChars_noColon {cs : List Char} (hc : ':' ∉ cs) (h : ¬ ∀ c ∈ cs, endsLine c = true) :
    HeaderLine.ofChars cs = .ok .other := by
  have hne : ¬ (withoutEnd cs).isEmpty = true := fun e =>
    h ((withoutEnd_eq_nil_iff cs).mp (List.isEmpty_iff.mp e))
  have hd : (withoutEnd cs).dropWhile (· != ':') = [] := by
    obtain ⟨tail, e, -⟩ := withoutEnd_append cs
    refine List.dropWhile_eq_nil_iff.mpr fun c hm => ?_
    have hm' : c ∈ cs := by rw [e]; exact List.mem_append_left _ hm
    exact bne_iff_ne.mpr fun e => hc (e ▸ hm')
  rw [ofChars_eq, if_neg hne, hd]

/-- A line with a colon: its name says whether the value counts. -/
theorem ofChars_colon {name : List Char} (hn : ':' ∉ name) (value : List Char) :
    HeaderLine.ofChars (name ++ ':' :: value) =
      if isLengthName name then
        match Numeral.readUnsigned Numeral.maxU64 (trim value) with
        | some n => .ok (.length n)
        | none => .error .badLength
      else .ok .other := by
  have e : withoutEnd (name ++ ':' :: value) = name ++ ':' :: withoutEnd value :=
    withoutEnd_append_cons rfl name value
  have hp : ∀ c ∈ name, (c != ':') = true := fun c hc => bne_iff_ne.mpr fun e => hn (e ▸ hc)
  have ht : (name ++ ':' :: withoutEnd value).takeWhile (· != ':') = name := by
    rw [List.takeWhile_append_of_pos hp, List.takeWhile_cons, if_neg (by decide), List.append_nil]
  have hd : (name ++ ':' :: withoutEnd value).dropWhile (· != ':') = ':' :: withoutEnd value := by
    rw [List.dropWhile_append_of_pos hp, List.dropWhile_cons, if_neg (by decide)]
  rw [ofChars_eq, e, ht, hd, if_neg (by simp)]
  simp only [trim_withoutEnd]

/-! ## 5. What the bytes of a line say -/

theorem ofBytes_encodeChars (cs : List Char) :
    HeaderLine.ofBytes (Utf8.encodeChars cs) = HeaderLine.ofChars cs := by
  unfold HeaderLine.ofBytes
  rw [Utf8.decodeChars_eq_ok_iff.mpr rfl]

theorem ofBytes_of_not_isText {l : List UInt8} (h : ¬ IsText l) :
    ∃ broken, HeaderLine.ofBytes l = .error (.notText broken) := by
  unfold HeaderLine.ofBytes
  cases hd : Utf8.decodeChars l with
  | ok cs => exact absurd ⟨cs, Utf8.decodeChars_eq_ok_iff.mp hd⟩ h
  | error broken => exact ⟨broken, rfl⟩

theorem isEmptyLine_encodeChars (cs : List Char) :
    IsEmptyLine (Utf8.encodeChars cs) ↔ ∀ c ∈ cs, endsLine c = true := by
  constructor
  · intro h c hc
    obtain ⟨b, hb⟩ := List.exists_mem_of_ne_nil _ (Utf8.encodeChar_ne_nil c)
    refine (endsLine_iff c).mpr ?_
    rcases h b (List.mem_flatMap.mpr ⟨c, hc, hb⟩) with rfl | rfl
    · exact Or.inl (Char.toNat_inj.mp (Utf8.encodeChar_of_mem (by decide) hb))
    · exact Or.inr (Char.toNat_inj.mp (Utf8.encodeChar_of_mem (by decide) hb))
  · intro h b hb
    obtain ⟨c, hc, hb⟩ := List.mem_flatMap.mp hb
    rcases (endsLine_iff c).mp (h c hc) with rfl | rfl
    · exact Or.inl (List.mem_singleton.mp hb)
    · exact Or.inr (List.mem_singleton.mp hb)

theorem isText_of_isEmptyLine {l : List UInt8} (h : IsEmptyLine l) : IsText l := by
  induction l with
  | nil => exact ⟨[], rfl⟩
  | cons b l ih =>
    obtain ⟨cs, rfl⟩ := ih fun x hx => h x (List.mem_cons_of_mem _ hx)
    rcases h b List.mem_cons_self with rfl | rfl
    · exact ⟨'\r' :: cs, rfl⟩
    · exact ⟨'\n' :: cs, rfl⟩

theorem ofBytes_blank {l : List UInt8} (h : IsEmptyLine l) : HeaderLine.ofBytes l = .ok .blank := by
  obtain ⟨cs, rfl⟩ := isText_of_isEmptyLine h
  rw [ofBytes_encodeChars]
  exact ofChars_blank ((isEmptyLine_encodeChars cs).mp h)

/-- **A line that gives a length is read as that length.** -/
theorem ofBytes_length {l : List UInt8} {n : Nat} (h : GivesLength l n) :
    HeaderLine.ofBytes l = .ok (.length n) := by
  obtain ⟨value, numeral, ⟨name, rfl, hn, hc⟩, hp, hs, hlt⟩ := h
  have hr : Numeral.readUnsigned Numeral.maxU64 (trim value) = some n :=
    (readUnsigned_trim_eq_some_iff _ value n).mpr ⟨numeral, hp, hs, Nat.le_of_lt_succ hlt⟩
  rw [ofBytes_encodeChars, ofChars_colon hn, if_pos ((isLengthName_iff name).mpr hc), hr]

/-- **A `Content-Length` line without a number is refused.** -/
theorem ofBytes_badLength {l : List UInt8} {value : List Char} (h : NamesLength l value)
    (hg : ∀ n, ¬ GivesLength l n) : HeaderLine.ofBytes l = .error .badLength := by
  obtain ⟨name, rfl, hn, hc⟩ := id h
  rw [ofBytes_encodeChars, ofChars_colon hn, if_pos ((isLengthName_iff name).mpr hc)]
  cases hr : Numeral.readUnsigned Numeral.maxU64 (trim value) with
  | none => rfl
  | some n =>
    obtain ⟨numeral, hp, hs, hle⟩ := (readUnsigned_trim_eq_some_iff _ value n).mp hr
    exact absurd ⟨value, numeral, h, hp, hs, Nat.lt_succ_of_le hle⟩ (hg n)

/-- **Any other line of text says nothing.** -/
theorem ofBytes_other {l : List UInt8} (ht : IsText l) (he : ¬ IsEmptyLine l)
    (hn : ∀ value, ¬ NamesLength l value) : HeaderLine.ofBytes l = .ok .other := by
  obtain ⟨cs, rfl⟩ := ht
  rw [ofBytes_encodeChars]
  by_cases hc : ':' ∈ cs
  · obtain ⟨name, value, rfl, hname⟩ := List.eq_append_cons_of_mem hc
    have hl : ¬ isLengthName name = true := fun hl =>
      hn value ⟨name, rfl, hname, (isLengthName_iff name).mp hl⟩
    rw [ofChars_colon hname, if_neg hl]
  · exact ofChars_noColon hc fun h => he ((isEmptyLine_encodeChars cs).mpr h)

end EditorBridge.Frame
