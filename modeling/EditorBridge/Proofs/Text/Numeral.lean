import EditorBridge.Text.Numeral

/-!
# What a decimal numeral is

`Spells` says which characters are a numeral of a number, without a reader: one or more ASCII digits,
perhaps after one plus sign, and their positional value.

`SpellsInt` says the same of integers: a minus sign may stand before the digits instead.

* `readUnsigned_eq_some_iff`, `readSigned_eq_some_iff` -- the readers accept exactly the numerals of the
  numbers in their range;
* **`spells_digits`**, **`spellsInt_ofInt`** -- what is written for a number is a numeral of it.
-/

namespace EditorBridge.Text.Numeral

/-! ## 1. Numerals -/

/-- The number that digits spell when they follow the digits of `n`. -/
def positional (n : Nat) (ds : List Char) : Nat := ds.foldl (fun n c => n * 10 + (c.toNat - 48)) n

/-- The characters are a decimal numeral of `n`. -/
def Spells (cs : List Char) (n : Nat) : Prop :=
  ∃ ds, (cs = ds ∨ cs = '+' :: ds) ∧ ds ≠ [] ∧ (∀ c ∈ ds, c.isDigit = true) ∧ positional 0 ds = n

/-- The characters are a decimal numeral of the integer `n`. -/
def SpellsInt (cs : List Char) (n : Int) : Prop :=
  (∃ m : Nat, Spells cs m ∧ n = m) ∨
    ∃ ds, cs = '-' :: ds ∧ ds ≠ [] ∧ (∀ c ∈ ds, c.isDigit = true) ∧ n = -(positional 0 ds : Int)

/-! ## 2. Reading -/

theorem digitValue?_eq (c : Char) :
    digitValue? c = if c.isDigit = true then some (c.toNat - 48) else none := by
  have h : ('0' ≤ c ∧ c ≤ '9') ↔ c.isDigit = true := by
    simp only [Char.isDigit, Bool.and_eq_true, decide_eq_true_eq, ge_iff_le]
    exact Iff.rfl
  simp only [digitValue?, h]

theorem valueFrom_eq_some_iff (acc : Nat) (cs : List Char) (n : Nat) :
    valueFrom acc cs = some n ↔ (∀ c ∈ cs, c.isDigit = true) ∧ positional acc cs = n := by
  induction cs generalizing acc with
  | nil => simp [valueFrom, positional]
  | cons c cs ih =>
    rw [valueFrom, digitValue?_eq]
    by_cases hc : c.isDigit = true
    · rw [if_pos hc, Option.bind_some, ih]
      simp only [List.forall_mem_cons, hc, true_and]
      rfl
    · rw [if_neg hc, Option.bind_none]
      simp [hc]

theorem value?_eq_some_iff (ds : List Char) (n : Nat) :
    value? ds = some n ↔ ds ≠ [] ∧ (∀ c ∈ ds, c.isDigit = true) ∧ positional 0 ds = n := by
  cases ds with
  | nil => simp [value?]
  | cons c cs =>
    rw [value?, if_neg (by simp), valueFrom_eq_some_iff]
    simp

/-- A plus sign is no digit, so that only one can be dropped. -/
theorem spells_iff_dropPlus (cs : List Char) (n : Nat) :
    Spells cs n ↔ value? (dropPlus cs) = some n := by
  rw [value?_eq_some_iff]
  constructor
  · rintro ⟨ds, rfl | rfl, hne, hd, hn⟩
    · have e : dropPlus cs = cs := by
        unfold dropPlus
        split
        · exact absurd (hd '+' List.mem_cons_self) (by decide)
        · rfl
      rw [e]
      exact ⟨hne, hd, hn⟩
    · exact ⟨hne, hd, hn⟩
  · rintro ⟨hne, hd, hn⟩
    refine ⟨dropPlus cs, ?_, hne, hd, hn⟩
    unfold dropPlus
    split
    · exact Or.inr rfl
    · exact Or.inl rfl

/-- **The reader accepts exactly the numerals of the numbers in its range.** -/
theorem readUnsigned_eq_some_iff (max : Nat) (cs : List Char) (n : Nat) :
    readUnsigned max cs = some n ↔ Spells cs n ∧ n ≤ max := by
  rw [readUnsigned, Option.filter_eq_some_iff, spells_iff_dropPlus, decide_eq_true_eq]

/-- A minus sign is neither a digit nor a plus sign. -/
theorem not_spells_minus (ds : List Char) (n : Nat) : ¬ Spells ('-' :: ds) n := by
  rintro ⟨es, rfl | he, -, hd, -⟩
  · exact absurd (hd '-' List.mem_cons_self) (by decide)
  · cases he

/-- **So does the reader of integers.** -/
theorem readSigned_eq_some_iff (lo hi : Int) (cs : List Char) (n : Int) :
    readSigned lo hi cs = some n ↔ SpellsInt cs n ∧ lo ≤ n ∧ n ≤ hi := by
  by_cases hminus : ∃ ds, cs = '-' :: ds
  · obtain ⟨ds, rfl⟩ := hminus
    rw [readSigned, Option.filter_eq_some_iff, decide_eq_true_eq]
    refine and_congr_left fun _ => ?_
    simp only [SpellsInt, Option.map_eq_some_iff, bind, Option.bind_eq_some_iff, pure, Option.some.injEq,
      value?_eq_some_iff, List.cons.injEq, true_and, not_spells_minus, false_and, exists_false, false_or]
    constructor
    · rintro ⟨_, ⟨m, ⟨hne, hd, rfl⟩, rfl⟩, rfl⟩
      exact ⟨ds, rfl, hne, hd, rfl⟩
    · rintro ⟨_, rfl, hne, hd, rfl⟩
      exact ⟨_, ⟨_, ⟨hne, hd, rfl⟩, rfl⟩, rfl⟩
  · rw [readSigned, Option.filter_eq_some_iff, decide_eq_true_eq]
    · refine and_congr_left fun _ => ?_
      simp only [Option.map_eq_some_iff, ← spells_iff_dropPlus]
      constructor
      · rintro ⟨m, hm, rfl⟩
        exact Or.inl ⟨m, hm, rfl⟩
      · rintro (⟨m, hm, rfl⟩ | ⟨ds, hcs, -⟩)
        · exact ⟨m, hm, rfl⟩
        · exact absurd ⟨ds, hcs⟩ hminus
    · exact fun ds hcs => hminus ⟨ds, hcs⟩

/-! ## 3. Writing -/

theorem isDigit_digitChar {d : Nat} (h : d < 10) : (digitChar d).isDigit = true := by
  revert h
  revert d
  decide

theorem toNat_digitChar {d : Nat} (h : d < 10) : (digitChar d).toNat = 48 + d := by
  revert h
  revert d
  decide

theorem isDigit_of_mem_digits {n : Nat} {c : Char} (h : c ∈ digits n) : c.isDigit = true := by
  induction n using digits.induct with
  | case1 n hn =>
    rw [digits, if_pos hn, List.mem_singleton] at h
    exact h ▸ isDigit_digitChar hn
  | case2 n hn ih =>
    rw [digits, if_neg hn, List.mem_append, List.mem_singleton] at h
    rcases h with h | h
    · exact ih h
    · exact h ▸ isDigit_digitChar (by omega)

theorem digits_ne_nil (n : Nat) : digits n ≠ [] := by
  rw [digits]
  split
  · exact List.cons_ne_nil _ _
  · exact List.append_ne_nil_of_right_ne_nil _ (List.cons_ne_nil _ _)

theorem positional_append (n : Nat) (ds es : List Char) :
    positional n (ds ++ es) = positional (positional n ds) es := List.foldl_append

theorem positional_digits (n : Nat) : positional 0 (digits n) = n := by
  induction n using digits.induct with
  | case1 n hn =>
    rw [digits, if_pos hn]
    show 0 * 10 + ((digitChar n).toNat - 48) = n
    rw [toNat_digitChar hn]
    omega
  | case2 n hn ih =>
    rw [digits, if_neg hn, positional_append, ih]
    show n / 10 * 10 + ((digitChar (n % 10)).toNat - 48) = n
    rw [toNat_digitChar (by omega)]
    omega

/-- **The digits that are written for a number are a numeral of it.** -/
theorem spells_digits (n : Nat) : Spells (digits n) n :=
  ⟨digits n, Or.inl rfl, digits_ne_nil n, fun _ h => isDigit_of_mem_digits h, positional_digits n⟩

theorem spellsInt_ofInt (n : Int) : SpellsInt (ofInt n).toList n := by
  cases n with
  | ofNat n =>
    rw [ofInt, ofNat, String.toList_ofList]
    exact Or.inl ⟨n, spells_digits n, rfl⟩
  | negSucc n =>
    rw [ofInt, String.toList_ofList]
    refine Or.inr ⟨digits (n + 1), rfl, digits_ne_nil _, fun _ h => isDigit_of_mem_digits h, ?_⟩
    rw [positional_digits]
    rfl

end EditorBridge.Text.Numeral
