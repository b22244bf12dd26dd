import Mathlib.Data.List.TakeWhile
import EditorBridge.Text.Blank
import EditorBridge.Proofs.Text.Numeral

/-!
# Words with white space around them

`Padded` says that a text is a core with white space around it; `trim` finds that core
(`trim_of_padded`), wherever it is free of white space itself.
-/

namespace EditorBridge.Text

/-- The characters are `core` with white space before and after it. -/
def Padded (core cs : List Char) : Prop :=
  ∃ before after, cs = before ++ core ++ after ∧ (∀ c ∈ before, isBlank c = true) ∧
    ∀ c ∈ after, isBlank c = true

theorem padded_trim (cs : List Char) : Padded (trim cs) cs := by
  refine ⟨cs.takeWhile isBlank, ((cs.dropWhile isBlank).reverse.takeWhile isBlank).reverse, ?_, ?_, ?_⟩
  · have h : cs.dropWhile isBlank =
        trim cs ++ ((cs.dropWhile isBlank).reverse.takeWhile isBlank).reverse := by
      unfold trim trimEndWhile trimStartWhile
      rw [← List.reverse_append, List.takeWhile_append_dropWhile, List.reverse_reverse]
    rw [List.append_assoc, ← h, List.takeWhile_append_dropWhile]
  · exact fun c hc => List.mem_takeWhile_imp hc
  · exact fun c hc => List.mem_takeWhile_imp (List.mem_reverse.mp hc)

/-- Leading characters that satisfy `p` are dropped, up to one that does not. -/
theorem dropWhile_append_of_all {p : Char → Bool} {before cs : List Char}
    (hb : ∀ c ∈ before, p c = true) (hc : ∀ c ∈ cs.head?, p c = false) :
    (before ++ cs).dropWhile p = cs := by
  induction before with
  | nil =>
    cases cs with
    | nil => rfl
    | cons c cs => rw [List.nil_append, List.dropWhile_cons, hc c rfl]; rfl
  | cons b before ih =>
    rw [List.cons_append, List.dropWhile_cons, hb b List.mem_cons_self, if_pos rfl]
    exact ih fun c h => hb c (List.mem_cons_of_mem _ h)

/-- **The core of a padded text is found, if it holds no white space and is not empty.** -/
theorem trim_of_padded {core cs : List Char} (h : Padded core cs) (hne : core ≠ [])
    (hcore : ∀ c ∈ core, isBlank c = false) : trim cs = core := by
  obtain ⟨before, after, rfl, hb, ha⟩ := h
  unfold trim trimEndWhile trimStartWhile
  rw [List.append_assoc, dropWhile_append_of_all hb, List.reverse_append, dropWhile_append_of_all,
    List.reverse_reverse]
  · exact fun c hc => ha c (List.mem_reverse.mp hc)
  · intro c hc
    rw [List.head?_reverse] at hc
    exact hcore c (List.mem_of_getLast? hc)
  · intro c hc
    cases core with
    | nil => exact absurd rfl hne
    | cons d core => exact hcore c (by cases hc; exact List.mem_cons_self)

/-! ## Numerals -/

theorem isBlank_of_isDigit {c : Char} (h : c.isDigit = true) : isBlank c = false := by
  simp only [Char.isDigit, Bool.and_eq_true, decide_eq_true_eq, ge_iff_le, UInt32.le_iff_toNat_le] at h
  have h1 : 48 ≤ c.toNat := h.1
  have h2 : c.toNat ≤ 57 := h.2
  simp only [isBlank, Bool.or_eq_false_iff, Bool.and_eq_false_iff, decide_eq_false_iff_not,
    beq_eq_false_iff_ne]
  omega

theorem isBlank_of_mem_numeral {cs : List Char} {n : Nat} (h : Numeral.Spells cs n) :
    cs ≠ [] ∧ ∀ c ∈ cs, isBlank c = false := by
  obtain ⟨ds, rfl | rfl, hne, hd, -⟩ := h
  · exact ⟨hne, fun c hc => isBlank_of_isDigit (hd c hc)⟩
  · refine ⟨List.cons_ne_nil _ _, fun c hc => ?_⟩
    rcases List.mem_cons.mp hc with rfl | hc
    · decide
    · exact isBlank_of_isDigit (hd c hc)

/-- **Reading a trimmed text as a number accepts exactly a padded numeral.** -/
theorem readUnsigned_trim_eq_some_iff (max : Nat) (cs : List Char) (n : Nat) :
    Numeral.readUnsigned max (trim cs) = some n ↔
      ∃ numeral, Padded numeral cs ∧ Numeral.Spells numeral n ∧ n ≤ max := by
  rw [Numeral.readUnsigned_eq_some_iff]
  constructor
  · exact fun h => ⟨trim cs, padded_trim cs, h⟩
  · rintro ⟨numeral, hp, hs, hn⟩
    obtain ⟨hne, hb⟩ := isBlank_of_mem_numeral hs
    rw [trim_of_padded hp hne hb]
    exact ⟨hs, hn⟩

end EditorBridge.Text
