import Mathlib.Data.List.Induction
import EditorBridge.Proofs.Frame.HeaderLine

/-!
# The grammar of frames

What a byte stream is, said by what it consists of and without a reader:

* `Framed s body rest` -- the stream begins with a frame: blank lines, header lines, an end of the
  header and a body of the length that the last `Content-Length` line gives; `rest` follows it;
* `OnlyBlank s` -- the stream holds blank lines only;
* `Malformed s` -- a header line, or a whole header, holds something wrong;
* `Truncated s` -- the stream ends inside a header or a body.

Every stream is one of these (`grammar_total`): it is cut into its leading blank lines, the header lines
after them and what follows (`exists_lines`), and what follows tells the four apart.
-/

namespace EditorBridge.Frame

open EditorBridge.Text

/-! ## 1. Headers -/

/-- A header line: it is not blank, it is valid UTF-8, and if it is a `Content-Length` line then its
    value is a number. -/
structure IsHeaderLine (l : List UInt8) : Prop where
  line : IsLine l
  filled : ¬ IsBlankLine l
  text : IsText l
  number : ∀ value, NamesLength l value → ∃ n, GivesLength l n

/-- The last `Content-Length` line among these gives `n`. -/
def LastLength (hs : List (List UInt8)) (n : Nat) : Prop :=
  ∃ before l after, hs = before ++ l :: after ∧ GivesLength l n ∧
    ∀ l' ∈ after, ∀ value, ¬ NamesLength l' value

/-- None of these is a `Content-Length` line. -/
def NoLength (hs : List (List UInt8)) : Prop := ∀ l ∈ hs, ∀ value, ¬ NamesLength l value

/-- The end of a header before `rest`: a blank line, or carriage returns with which the stream ends. -/
def EndsHeader (e rest : List UInt8) : Prop :=
  IsBlankLine e ∨ (∃ k, e = List.replicate (k + 1) cr) ∧ rest = []

/-- The stream begins with blank lines and the header lines `hs`; `rest` follows them. -/
def Begins (s : List UInt8) (hs : List (List UInt8)) (rest : List UInt8) : Prop :=
  ∃ bs : List (List UInt8), s = bs.flatten ++ hs.flatten ++ rest ∧ (∀ b ∈ bs, IsBlankLine b) ∧
    ∀ l ∈ hs, IsHeaderLine l

/-! ## 2. Streams -/

/-- The stream begins with a frame around `body`, and `rest` follows it. -/
def Framed (s body rest : List UInt8) : Prop :=
  ∃ bs hs : List (List UInt8), ∃ e, s = bs.flatten ++ hs.flatten ++ e ++ body ++ rest ∧
    (∀ b ∈ bs, IsBlankLine b) ∧ hs ≠ [] ∧ (∀ l ∈ hs, IsHeaderLine l) ∧ EndsHeader e (body ++ rest) ∧
    LastLength hs body.length ∧ body.length ≤ maxBodyBytes

/-- The stream holds blank lines only; the last may lack its line feed. -/
def OnlyBlank (s : List UInt8) : Prop :=
  ∃ bs : List (List UInt8), ∃ k, s = bs.flatten ++ List.replicate k cr ∧ ∀ b ∈ bs, IsBlankLine b

/-- The next header line, or a last one without a line feed, is not valid UTF-8, or it is a
    `Content-Length` line without a number. -/
def BadLine (s : List UInt8) : Prop :=
  ∃ l rest, s = l ++ rest ∧ (IsLine l ∨ lf ∉ l ∧ rest = []) ∧
    (¬ IsText l ∨ (∃ value, NamesLength l value) ∧ ∀ n, ¬ GivesLength l n)

/-- A header line holds something wrong, or a whole header has no length or one that is too large. -/
def Malformed (s : List UInt8) : Prop :=
  ∃ hs rest, Begins s hs rest ∧
    (BadLine rest ∨
      hs ≠ [] ∧ ∃ e t, rest = e ++ t ∧ EndsHeader e t ∧
        (NoLength hs ∨ ∃ n, LastLength hs n ∧ maxBodyBytes < n))

/-- The stream ends after a header line, inside one that holds nothing wrong, or inside a body. -/
def Truncated (s : List UInt8) : Prop :=
  ∃ hs rest, Begins s hs rest ∧
    (hs ≠ [] ∧ rest = [] ∨
      lf ∉ rest ∧ ¬ IsEmptyLine rest ∧ ¬ BadLine rest ∨
      hs ≠ [] ∧ ∃ e t n, rest = e ++ t ∧ EndsHeader e t ∧ LastLength hs n ∧ n ≤ maxBodyBytes ∧
        t.length < n)

/-! ## 3. Every stream is one of these -/

/-- The stream is cut after its leading lines that satisfy `p`. -/
theorem exists_lines (p : List UInt8 → Prop) (s : List UInt8) :
    ∃ (ls : List (List UInt8)) (rest : List UInt8), s = ls.flatten ++ rest ∧
      (∀ l ∈ ls, IsLine l ∧ p l) ∧ ∀ l t, rest = l ++ t → IsLine l → ¬ p l := by
  induction h : s.length using Nat.strong_induction_on generalizing s with
  | _ n ih =>
    by_cases hs : ∃ l t, s = l ++ t ∧ IsLine l ∧ p l
    · obtain ⟨l, t, rfl, hl, hp⟩ := hs
      have hpos : 0 < l.length := by
        obtain ⟨u, -, rfl⟩ := hl
        simp
      have hlt : t.length < n := by
        rw [← h, List.length_append]
        omega
      obtain ⟨ls, rest, rfl, hls, hr⟩ := ih t.length hlt t rfl
      refine ⟨l :: ls, rest, ?_, ?_, hr⟩
      · rw [List.flatten_cons, List.append_assoc]
      · exact List.forall_mem_cons.mpr ⟨⟨hl, hp⟩, hls⟩
    · exact ⟨[], s, rfl, fun _ hm => absurd hm List.not_mem_nil,
        fun l t e hl hp => hs ⟨l, t, e, hl, hp⟩⟩

/-- A stream without a line feed is no line; any other begins with one. -/
theorem line_cases (s : List UInt8) : lf ∉ s ∨ ∃ l t, s = l ++ t ∧ IsLine l := by
  by_cases h : lf ∈ s
  · obtain ⟨t, r, rfl, ht⟩ := List.eq_append_cons_of_mem h
    exact Or.inr ⟨t ++ [lf], r, by simp, t, ht, rfl⟩
  · exact Or.inl h

theorem lastLength_or_noLength {hs : List (List UInt8)} (h : ∀ l ∈ hs, IsHeaderLine l) :
    NoLength hs ∨ ∃ n, LastLength hs n := by
  induction hs using List.reverseRecOn with
  | nil => exact Or.inl fun _ hm => absurd hm List.not_mem_nil
  | append_singleton hs l ih =>
    by_cases hl : ∃ value, NamesLength l value
    · obtain ⟨value, hv⟩ := hl
      obtain ⟨n, hn⟩ := (h l (by simp)).number value hv
      exact Or.inr ⟨n, hs, l, [], rfl, hn, fun _ hm => absurd hm List.not_mem_nil⟩
    · rcases ih fun l hm => h l (List.mem_append_left _ hm) with hno | ⟨n, before, k, after, rfl, hk, ha⟩
      · refine Or.inl fun l' hm value hv => ?_
        rcases List.mem_append.mp hm with hm | hm
        · exact hno l' hm value hv
        · exact hl ⟨value, List.mem_singleton.mp hm ▸ hv⟩
      · refine Or.inr ⟨n, before, k, after ++ [l], by simp, hk, fun l' hm value hv => ?_⟩
        rcases List.mem_append.mp hm with hm | hm
        · exact ha l' hm value hv
        · exact hl ⟨value, List.mem_singleton.mp hm ▸ hv⟩

/-- After a whole header there is a frame, or the length is missing, too large, or more than what is
    left of the stream. -/
theorem grammar_of_ended {s rest e t : List UInt8} {hs : List (List UInt8)} (h : Begins s hs rest)
    (hne : hs ≠ []) (er : rest = e ++ t) (he : EndsHeader e t) :
    (∃ body rest, Framed s body rest) ∨ Malformed s ∨ Truncated s := by
  subst er
  rcases lastLength_or_noLength h.choose_spec.2.2 with hno | ⟨n, hn⟩
  · exact Or.inr (Or.inl ⟨hs, _, h, Or.inr ⟨hne, e, t, rfl, he, Or.inl hno⟩⟩)
  by_cases hmax : maxBodyBytes < n
  · exact Or.inr (Or.inl ⟨hs, _, h, Or.inr ⟨hne, e, t, rfl, he, Or.inr ⟨n, hn, hmax⟩⟩⟩)
  by_cases hlen : t.length < n
  · exact Or.inr (Or.inr ⟨hs, _, h, Or.inr (Or.inr ⟨hne, e, t, n, rfl, he, hn, by omega, hlen⟩)⟩)
  · obtain ⟨bs, hs', hb, hh⟩ := h
    have hl : (t.take n).length = n := by rw [List.length_take]; omega
    refine Or.inl ⟨t.take n, t.drop n, bs, hs, e, ?_, hb, hne, hh, ?_, hl.symm ▸ hn, by omega⟩
    · rw [hs', List.append_assoc _ (t.take n), List.take_append_drop]
      simp
    · rw [List.take_append_drop]
      exact he

/-- **Every stream begins with a frame, holds only blank lines, is malformed or is truncated.** -/
theorem grammar_total (s : List UInt8) :
    (∃ body rest, Framed s body rest) ∨ OnlyBlank s ∨ Malformed s ∨ Truncated s := by
  obtain ⟨bs, s', rfl, hbs, hmaxB⟩ := exists_lines IsBlankLine s
  obtain ⟨hs, rest, rfl, hhs, hmaxH⟩ := exists_lines IsHeaderLine s'
  have hb : ∀ b ∈ bs, IsBlankLine b := fun b hm => (hbs b hm).2
  have hbegin : Begins (bs.flatten ++ (hs.flatten ++ rest)) hs rest :=
    ⟨bs, (List.append_assoc _ _ _).symm, hb, fun l hm => (hhs l hm).2⟩
  by_cases hbad : BadLine rest
  · exact Or.inr (Or.inr (Or.inl ⟨hs, rest, hbegin, Or.inl hbad⟩))
  rcases line_cases rest with hlf | ⟨l, t, er, hl⟩
  · by_cases hempty : IsEmptyLine rest
    · have er := eq_replicate_of_isEmptyLine hlf hempty
      by_cases hne : hs = []
      · exact Or.inr (Or.inl ⟨bs, rest.length, by rw [← er, hne]; rfl, hb⟩)
      · cases hk : rest.length with
        | zero =>
          have e0 : rest = [] := List.length_eq_zero_iff.mp hk
          exact Or.inr (Or.inr (Or.inr ⟨hs, rest, hbegin, Or.inl ⟨hne, e0⟩⟩))
        | succ k =>
          rw [hk] at er
          have he : EndsHeader rest [] := Or.inr ⟨⟨k, er⟩, rfl⟩
          exact (grammar_of_ended hbegin hne (List.append_nil _).symm he).imp_right Or.inr
    · exact Or.inr (Or.inr (Or.inr ⟨hs, rest, hbegin, Or.inr (Or.inl ⟨hlf, hempty, hbad⟩)⟩))
  · -- a line that is neither wrong nor a header line is blank
    have hblank : IsBlankLine l := by
      by_contra hnb
      refine hmaxH l t er hl ⟨hl, hnb, ?_, fun value hv => ?_⟩
      · by_contra ht
        exact hbad ⟨l, t, er, Or.inl hl, Or.inl ht⟩
      · by_contra hn
        exact hbad ⟨l, t, er, Or.inl hl, Or.inr ⟨⟨value, hv⟩, fun n hg => hn ⟨n, hg⟩⟩⟩
    by_cases hne : hs = []
    · subst hne
      exact absurd hblank (hmaxB l t er hl)
    · exact (grammar_of_ended hbegin hne er (Or.inl hblank)).imp_right Or.inr

end EditorBridge.Frame
