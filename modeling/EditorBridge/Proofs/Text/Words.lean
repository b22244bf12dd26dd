import EditorBridge.Proofs.Text.Blank

/-!
# What the words of a line are

`Separated ws cs` says that a line consists of the words `ws`: they are not empty and free of white space,
and white space stands between them and perhaps at both ends. Every line is separated in exactly one way.

* **`words_eq_iff`** -- `words` finds the words of which a line consists;
* `written`, `separated_written` -- words written with any white space between them.
-/

namespace EditorBridge.Text

/-! ## 1. Lines and their words -/

/-- All characters are white space. -/
def AllBlank (cs : List Char) : Prop := ∀ c ∈ cs, isBlank c = true

instance (cs : List Char) : Decidable (AllBlank cs) := List.decidableBAll _ cs

/-- A text without white space that is not empty. -/
def IsWord (w : List Char) : Prop := w ≠ [] ∧ ∀ c ∈ w, isBlank c = false

instance (w : List Char) : Decidable (IsWord w) :=
  @instDecidableAnd _ _ inferInstance (List.decidableBAll _ w)

theorem allBlank_nil : AllBlank [] := fun _ hc => absurd hc List.not_mem_nil

theorem isWord_reverse {w : List Char} (hne : w ≠ []) (hw : ∀ c ∈ w, isBlank c = false) : IsWord w.reverse :=
  ⟨List.reverse_ne_nil_iff.mpr hne, fun c hc => hw c (List.mem_reverse.mp hc)⟩

theorem isWord_of_spellsInt {cs : List Char} {n : Int} (h : Numeral.SpellsInt cs n) : IsWord cs := by
  rcases h with ⟨m, hm, -⟩ | ⟨ds, rfl, -, hd, -⟩
  · exact isBlank_of_mem_numeral hm
  · exact ⟨List.cons_ne_nil _ _,
      List.forall_mem_cons.mpr ⟨by decide, fun c hc => isBlank_of_isDigit (hd c hc)⟩⟩

/-- The line consists of these words. -/
inductive Separated : List (List Char) → List Char → Prop
  | blank {cs : List Char} (h : AllBlank cs) : Separated [] cs
  /-- White space or the end of the line follows a word. -/
  | word {before w rest : List Char} {ws : List (List Char)} (hbefore : AllBlank before) (hw : IsWord w)
      (hrest : ∀ c ∈ rest.head?, isBlank c = true) (h : Separated ws rest) :
      Separated (w :: ws) (before ++ w ++ rest)

/-! ## 2. Finding the words -/

theorem wordsFrom_blank {bs : List Char} (h : AllBlank bs) (cs : List Char) :
    wordsFrom [] (bs ++ cs) = wordsFrom [] cs := by
  induction bs with
  | nil => rfl
  | cons b bs ih =>
    rw [List.cons_append, wordsFrom, if_pos (h b List.mem_cons_self), if_pos List.isEmpty_nil]
    exact ih fun c hc => h c (List.mem_cons_of_mem b hc)

/-- The characters of a word join the word that has been begun. -/
theorem wordsFrom_append {w : List Char} (h : ∀ c ∈ w, isBlank c = false) (cur rest : List Char) :
    wordsFrom cur (w ++ rest) = wordsFrom (w.reverse ++ cur) rest := by
  induction w generalizing cur with
  | nil => rfl
  | cons c w ih =>
    have hc : ¬ isBlank c = true := by
      rw [h c List.mem_cons_self]
      exact Bool.false_ne_true
    rw [List.cons_append, wordsFrom, if_neg hc, ih fun d hd => h d (List.mem_cons_of_mem c hd),
      List.reverse_cons, List.append_assoc]
    rfl

/-- A word that has been begun ends where white space follows. -/
theorem wordsFrom_ended {cur rest : List Char} (hcur : cur ≠ [])
    (hrest : ∀ c ∈ rest.head?, isBlank c = true) : wordsFrom cur rest = cur.reverse :: words rest := by
  have hopen : ¬ cur.isEmpty = true := fun h => hcur (List.isEmpty_iff.mp h)
  cases rest with
  | nil => rw [wordsFrom, if_neg hopen]; rfl
  | cons c rest =>
    have hc : isBlank c = true := hrest c rfl
    rw [wordsFrom, if_pos hc, if_neg hopen, words, wordsFrom, if_pos hc, if_pos List.isEmpty_nil]

theorem Separated.words_eq {ws : List (List Char)} {cs : List Char} (h : Separated ws cs) :
    words cs = ws := by
  induction h with
  | @blank cs h =>
    have hall := wordsFrom_blank h []
    rw [List.append_nil] at hall
    exact hall
  | @word before w rest ws hbefore hw hrest _ ih =>
    have hne : w.reverse ++ [] ≠ [] := by
      rw [List.append_nil]
      exact List.reverse_ne_nil_iff.mpr hw.1
    rw [words, List.append_assoc, wordsFrom_blank hbefore, wordsFrom_append hw.2,
      wordsFrom_ended hne hrest, List.append_nil, List.reverse_reverse, ih]

/-- More white space in front makes no difference. -/
theorem Separated.cons {ws : List (List Char)} {cs : List Char} {b : Char} (hb : isBlank b = true)
    (h : Separated ws cs) : Separated ws (b :: cs) := by
  cases h with
  | blank h => exact .blank (List.forall_mem_cons.mpr ⟨hb, h⟩)
  | word hbefore hw hrest h => exact .word (List.forall_mem_cons.mpr ⟨hb, hbefore⟩) hw hrest h

/-- What is found belongs to the word that has been begun and the rest of the line. -/
theorem separated_wordsFrom {cur : List Char} (hcur : ∀ c ∈ cur, isBlank c = false) (cs : List Char) :
    Separated (wordsFrom cur cs) (cur.reverse ++ cs) := by
  induction cs generalizing cur with
  | nil =>
    rw [wordsFrom]
    split
    · rename_i hempty
      rw [List.isEmpty_iff.mp hempty]
      exact .blank allBlank_nil
    · rename_i hopen
      have hne : cur ≠ [] := fun h => hopen (List.isEmpty_iff.mpr h)
      exact .word allBlank_nil (isWord_reverse hne hcur) (fun c hc => absurd hc (Option.not_mem_none c))
        (.blank allBlank_nil)
  | cons b cs ih =>
    rw [wordsFrom]
    split
    · rename_i hb
      have hrest : Separated (wordsFrom [] cs) (b :: cs) :=
        .cons hb (ih fun c hc => absurd hc List.not_mem_nil)
      split
      · rename_i hempty
        rw [List.isEmpty_iff.mp hempty]
        exact hrest
      · rename_i hopen
        have hne : cur ≠ [] := fun h => hopen (List.isEmpty_iff.mpr h)
        exact .word allBlank_nil (isWord_reverse hne hcur) (fun c hc => Option.some.inj hc ▸ hb) hrest
    · rename_i hb
      have hrest : Separated (wordsFrom (b :: cur) cs) ((b :: cur).reverse ++ cs) :=
        ih (List.forall_mem_cons.mpr ⟨Bool.eq_false_iff.mpr hb, hcur⟩)
      rw [List.reverse_cons, List.append_assoc] at hrest
      exact hrest

/-- **`words` finds the words of which a line consists.** -/
theorem words_eq_iff {cs : List Char} {ws : List (List Char)} : words cs = ws ↔ Separated ws cs := by
  have hfound : Separated (words cs) cs := separated_wordsFrom (fun c hc => absurd hc List.not_mem_nil) cs
  exact ⟨fun h => h ▸ hfound, Separated.words_eq⟩

/-! ## 3. Writing words -/

/-- Words written out, each behind its own white space, and white space behind the last one. -/
def written (after : List Char) : List (List Char × List Char) → List Char
  | [] => after
  | (gap, w) :: ps => gap ++ w ++ written after ps

/-- White space between words is not empty; before the first word it may be. -/
theorem separated_written {ws gaps : List (List Char)} {after : List Char} (hlen : gaps.length = ws.length)
    (hws : ∀ w ∈ ws, IsWord w) (hgaps : ∀ gap ∈ gaps, AllBlank gap) (hbetween : ∀ gap ∈ gaps.tail, gap ≠ [])
    (hafter : AllBlank after) : Separated ws (written after (gaps.zip ws)) := by
  induction ws generalizing gaps with
  | nil =>
    rw [List.zip_nil_right]
    exact .blank hafter
  | cons w ws ih =>
    cases gaps with
    | nil => cases hlen
    | cons gap gaps =>
      have hrest := ih (Nat.succ.inj hlen) (fun v hv => hws v (List.mem_cons_of_mem w hv))
        (fun g hg => hgaps g (List.mem_cons_of_mem gap hg)) (fun g hg => hbetween g (List.mem_of_mem_tail hg))
      refine .word (hgaps gap List.mem_cons_self) (hws w List.mem_cons_self) ?_ hrest
      -- the next word stands behind white space that is not empty
      intro c hc
      cases gaps with
      | nil => exact hafter c (List.mem_of_mem_head? hc)
      | cons g gaps =>
        cases ws with
        | nil => cases hlen
        | cons v ws =>
          obtain ⟨_, g, rfl⟩ := List.exists_cons_of_ne_nil (hbetween g List.mem_cons_self)
          cases hc
          exact hgaps (c :: g) (List.mem_cons_of_mem gap List.mem_cons_self) c List.mem_cons_self

end EditorBridge.Text
