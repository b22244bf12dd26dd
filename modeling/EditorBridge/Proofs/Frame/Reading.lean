import EditorBridge.Proofs.Frame.Grammar

/-!
# Reading frames off a stream

`Frame.read` goes over the bytes once, with the line that it has begun and the last length that it has
seen. Here its run over a stream is followed along the grammar:

* `readHeader_line`, `readHeader_last` -- what it does at the end of a line, and at the end of the stream;
* `readHeader_blankLines`, `readHeader_headerLines` -- what it knows after the blank lines and the header
  lines with which a stream begins;
* **`read_eq_iff`** -- so on a stream to which nothing more comes it finds a frame, a clean end, something
  wrong or an early end exactly where the grammar says so.
-/

namespace EditorBridge.Frame

open EditorBridge.Text

section Lines

variable (ended seen : Bool) (o : Option Nat)

/-! ## 1. One line -/

/-- What the reader does with a whole line. -/
def afterLine (line : Except Error HeaderLine) (rest : List UInt8) : Step :=
  match line with
  | .error e => .failed e
  | .ok .blank => if seen then readBody ended o rest else readHeader ended false o [] rest
  | .ok (.length n) => readHeader ended true (some n) [] rest
  | .ok .other => readHeader ended true o [] rest

/-- What the reader does with the last bytes, if no line feed ends them. -/
def afterLast (line : Except Error HeaderLine) : Step :=
  match line with
  | .error e => .failed e
  | .ok .blank => if seen then readBody true o [] else .finished
  | .ok _ => .failed .endInHeader

theorem readHeader_begun (t cur rest : List UInt8) (ht : lf ∉ t) :
    readHeader ended seen o cur (t ++ lf :: rest) =
      afterLine ended seen o (HeaderLine.ofBytes (cur.reverse ++ t ++ [lf])) rest := by
  induction t generalizing cur with
  | nil =>
    rw [List.nil_append, readHeader, if_pos (by rfl), List.reverse_cons, List.append_nil]
    unfold afterLine
    rfl
  | cons b t ih =>
    have hb : b ≠ 0x0A := fun e => ht (e ▸ List.mem_cons_self)
    rw [List.cons_append, readHeader, if_neg hb, ih (b :: cur) fun h => ht (List.mem_cons_of_mem _ h)]
    simp

theorem readHeader_line {l : List UInt8} (hl : IsLine l) (rest : List UInt8) :
    readHeader ended seen o [] (l ++ rest) = afterLine ended seen o (HeaderLine.ofBytes l) rest := by
  obtain ⟨t, ht, rfl⟩ := hl
  rw [List.append_assoc, List.singleton_append, readHeader_begun ended seen o t [] rest ht]
  rfl

theorem readHeader_unfinished (t cur : List UInt8) (ht : lf ∉ t) (hne : cur.reverse ++ t ≠ []) :
    readHeader true seen o cur t = afterLast seen o (HeaderLine.ofBytes (cur.reverse ++ t)) := by
  induction t generalizing cur with
  | nil =>
    have hc : cur.isEmpty = false := by
      cases cur with
      | nil => exact absurd rfl hne
      | cons b cur => rfl
    rw [readHeader, List.append_nil]
    simp only [Bool.not_true, Bool.false_eq_true, if_false, hc]
    unfold afterLast
    rfl
  | cons b t ih =>
    have hb : b ≠ 0x0A := fun e => ht (e ▸ List.mem_cons_self)
    have e : (b :: cur).reverse ++ t = cur.reverse ++ b :: t := by simp
    rw [readHeader, if_neg hb, ih (b :: cur) (fun h => ht (List.mem_cons_of_mem _ h)) (e ▸ hne), e]

theorem readHeader_last {t : List UInt8} (ht : lf ∉ t) (hne : t ≠ []) :
    readHeader true seen o [] t = afterLast seen o (HeaderLine.ofBytes t) :=
  readHeader_unfinished seen o t [] ht hne

/-! ## 2. Blank lines, header lines and the end of the header -/

theorem ofBytes_isBlankLine {l : List UInt8} (h : IsBlankLine l) :
    HeaderLine.ofBytes l = .ok .blank :=
  ofBytes_blank ((isBlankLine_iff (isLine_of_isBlankLine h)).mp h)

theorem readHeader_blankLines {bs : List (List UInt8)} (hb : ∀ b ∈ bs, IsBlankLine b)
    (rest : List UInt8) :
    readHeader ended false none [] (bs.flatten ++ rest) = readHeader ended false none [] rest := by
  induction bs with
  | nil => rfl
  | cons b bs ih =>
    have hbl := hb b List.mem_cons_self
    rw [List.flatten_cons, List.append_assoc, readHeader_line _ _ _ (isLine_of_isBlankLine hbl),
      ofBytes_isBlankLine hbl]
    exact ih fun x hx => hb x (List.mem_cons_of_mem _ hx)

/-- At the end of a header line the reader knows the last length so far. -/
def HasLength (hs : List (List UInt8)) : Option Nat → Prop
  | none => NoLength hs
  | some n => LastLength hs n

theorem givesLength_unique {l : List UInt8} {n m : Nat} (hn : GivesLength l n) (hm : GivesLength l m) :
    n = m := by
  have e := (ofBytes_length hn).symm.trans (ofBytes_length hm)
  cases e
  rfl

theorem hasLength_snoc_given {hs : List (List UInt8)} {l : List UInt8} {n : Nat}
    (hl : GivesLength l n) {o : Option Nat} (h : HasLength (hs ++ [l]) o) : o = some n := by
  have hname : ∃ value, NamesLength l value := by
    obtain ⟨value, -, hv, -⟩ := hl
    exact ⟨value, hv⟩
  obtain ⟨value, hv⟩ := hname
  cases o with
  | none => exact absurd hv (h l (by simp) value)
  | some m =>
    obtain ⟨before, k, after, e, hk, ha⟩ := h
    rcases List.eq_nil_or_concat after with rfl | ⟨after', x, rfl⟩
    · have ek : l = k := by simpa using List.append_inj_right' e rfl
      rw [givesLength_unique hl (ek ▸ hk)]
    · rw [List.concat_eq_append] at e ha
      rw [← List.cons_append, ← List.append_assoc] at e
      have ex : l = x := by simpa using List.append_inj_right' e rfl
      exact absurd (ex ▸ hv) (ha x (by simp) value)

theorem hasLength_snoc_other {hs : List (List UInt8)} {l : List UInt8}
    (hl : ∀ value, ¬ NamesLength l value) {o : Option Nat} (h : HasLength (hs ++ [l]) o) :
    HasLength hs o := by
  cases o with
  | none => exact fun k hk => h k (List.mem_append_left _ hk)
  | some m =>
    obtain ⟨before, k, after, e, hk, ha⟩ := h
    rcases List.eq_nil_or_concat after with rfl | ⟨after', x, rfl⟩
    · have ek : l = k := by simpa using List.append_inj_right' e rfl
      obtain ⟨value, -, hv, -⟩ := hk
      exact absurd (ek ▸ hv) (hl value)
    · rw [List.concat_eq_append] at e ha
      rw [← List.cons_append, ← List.append_assoc] at e
      exact ⟨before, k, after', List.append_inj_left' e rfl, hk, fun l' hm =>
        ha l' (List.mem_append_left _ hm)⟩

theorem not_isEmptyLine_of_isHeaderLine {l : List UInt8} (h : IsHeaderLine l) : ¬ IsEmptyLine l :=
  fun he => h.filled ((isBlankLine_iff h.line).mpr he)

/-- **After the header lines the reader has seen a header, and it knows the last length in it.** -/
theorem readHeader_headerLines {hs : List (List UInt8)} (hh : ∀ l ∈ hs, IsHeaderLine l)
    {o : Option Nat} (ho : HasLength hs o) (rest : List UInt8) :
    readHeader ended false none [] (hs.flatten ++ rest) =
      readHeader ended (!hs.isEmpty) o [] rest := by
  induction hs using List.reverseRecOn generalizing o rest with
  | nil =>
    cases o with
    | none => rfl
    | some n =>
      obtain ⟨before, l, after, e, -⟩ := ho
      exact absurd e (by simp)
  | append_singleton hs l ih =>
    have hl := hh l (by simp)
    have hhs : ∀ k ∈ hs, IsHeaderLine k := fun k hk => hh k (List.mem_append_left _ hk)
    have e : (hs ++ [l]).flatten ++ rest = hs.flatten ++ (l ++ rest) := by simp
    have hseen : (!(hs ++ [l]).isEmpty) = true := by simp
    rw [e, hseen]
    by_cases hname : ∃ value, NamesLength l value
    · obtain ⟨value, hv⟩ := hname
      obtain ⟨n, hn⟩ := hl.number value hv
      rw [hasLength_snoc_given hn ho]
      rcases lastLength_or_noLength hhs with hp | ⟨p, hp⟩
      · rw [ih hhs (o := none) hp, readHeader_line _ _ _ hl.line, ofBytes_length hn]
        rfl
      · rw [ih hhs (o := some p) hp, readHeader_line _ _ _ hl.line, ofBytes_length hn]
        rfl
    · have hno : ∀ value, ¬ NamesLength l value := fun value hv => hname ⟨value, hv⟩
      rw [ih hhs (hasLength_snoc_other hno ho), readHeader_line _ _ _ hl.line,
        ofBytes_other hl.text (not_isEmptyLine_of_isHeaderLine hl) hno]
      rfl

/-- After a header and a blank line the reader takes the body. -/
theorem readHeader_blankLine {e rest : List UInt8} (he : IsBlankLine e) (o : Option Nat) :
    readHeader ended true o [] (e ++ rest) = readBody ended o rest := by
  rw [readHeader_line _ _ _ (isLine_of_isBlankLine he), ofBytes_isBlankLine he]
  rfl

/-- The reader at the end of the lines with which a stream begins. -/
theorem read_of_begins {s rest : List UInt8} {hs : List (List UInt8)} (h : Begins s hs rest)
    {o : Option Nat} (ho : HasLength hs o) :
    read ended s = readHeader ended (!hs.isEmpty) o [] rest := by
  obtain ⟨bs, rfl, hb, hh⟩ := h
  rw [read, List.append_assoc, readHeader_blankLines _ hb, readHeader_headerLines _ hh ho]

end Lines

theorem readHeader_endsHeader {e rest : List UInt8} (he : EndsHeader e rest) (o : Option Nat) :
    readHeader true true o [] (e ++ rest) = readBody true o rest := by
  rcases he with hb | ⟨⟨k, rfl⟩, rfl⟩
  · exact readHeader_blankLine true hb o
  · have hlf : lf ∉ List.replicate (k + 1) cr := fun hm =>
      absurd (List.eq_of_mem_replicate hm) (by decide)
    rw [List.append_nil, readHeader_last _ _ hlf (by simp), ofBytes_blank (isEmptyLine_replicate _)]
    rfl

theorem not_isEmpty_of_ne_nil {hs : List (List UInt8)} (hne : hs ≠ []) : (!hs.isEmpty) = true := by
  rw [Bool.not_eq_true', List.isEmpty_eq_false_iff]
  exact hne

theorem read_of_endsHeader {s rest e t : List UInt8} {hs : List (List UInt8)} (h : Begins s hs rest)
    (hne : hs ≠ []) (er : rest = e ++ t) (he : EndsHeader e t) {o : Option Nat}
    (ho : HasLength hs o) : read true s = readBody true o t := by
  rw [read_of_begins true h ho, not_isEmpty_of_ne_nil hne, er, readHeader_endsHeader he]

theorem exists_hasLength {hs : List (List UInt8)} (hh : ∀ l ∈ hs, IsHeaderLine l) :
    ∃ o, HasLength hs o := by
  rcases lastLength_or_noLength hh with h | ⟨n, h⟩
  · exact ⟨none, h⟩
  · exact ⟨some n, h⟩

/-! ## 3. The four kinds of streams -/

/-- **A frame is read, and nothing behind it.** -/
theorem read_of_framed {s body rest : List UInt8} (h : Framed s body rest) :
    read true s = .frame body rest := by
  obtain ⟨bs, hs, e, rfl, hb, hne, hh, he, hn, hmax⟩ := h
  have hbegin : Begins (bs.flatten ++ hs.flatten ++ e ++ body ++ rest) hs (e ++ (body ++ rest)) :=
    ⟨bs, by simp, hb, hh⟩
  rw [read_of_endsHeader hbegin hne rfl he (o := some body.length) hn, readBody,
    if_neg (by omega), if_pos (by simp)]
  simp

theorem read_of_onlyBlank {s : List UInt8} (h : OnlyBlank s) : read true s = .finished := by
  obtain ⟨bs, k, rfl, hb⟩ := h
  have hlf : lf ∉ List.replicate k cr := fun hm => absurd (List.eq_of_mem_replicate hm) (by decide)
  rw [read, readHeader_blankLines _ hb]
  cases k with
  | zero => rfl
  | succ k =>
    rw [readHeader_last _ _ hlf (by simp), ofBytes_blank (isEmptyLine_replicate _)]
    rfl

theorem ofBytes_of_badLine {l : List UInt8}
    (h : ¬ IsText l ∨ (∃ value, NamesLength l value) ∧ ∀ n, ¬ GivesLength l n) :
    ∃ e, HeaderLine.ofBytes l = .error e ∧ e.isEarlyEnd = false := by
  rcases h with ht | ⟨⟨value, hv⟩, hg⟩
  · obtain ⟨broken, hb⟩ := ofBytes_of_not_isText ht
    exact ⟨_, hb, rfl⟩
  · exact ⟨_, ofBytes_badLength hv hg, rfl⟩

theorem readHeader_of_badLine {s : List UInt8} (h : BadLine s) (seen : Bool) (o : Option Nat) :
    ∃ e, readHeader true seen o [] s = .failed e ∧ e.isEarlyEnd = false := by
  obtain ⟨l, rest, rfl, hl, hbad⟩ := h
  obtain ⟨e, he, hk⟩ := ofBytes_of_badLine hbad
  refine ⟨e, ?_, hk⟩
  rcases hl with hl | ⟨hlf, rfl⟩
  · rw [readHeader_line _ _ _ hl, he]
    rfl
  · have hne : l ≠ [] := by
      rintro rfl
      cases he
    rw [List.append_nil, readHeader_last _ _ hlf hne, he]
    rfl

/-- **A stream that holds something wrong is refused as such.** -/
theorem read_of_malformed {s : List UInt8} (h : Malformed s) :
    ∃ e, read true s = .failed e ∧ e.isEarlyEnd = false := by
  obtain ⟨hs, rest, hbegin, hbad | ⟨hne, e, t, er, he, hno | ⟨n, hn, hmax⟩⟩⟩ := h
  · obtain ⟨o, ho⟩ := exists_hasLength hbegin.choose_spec.2.2
    rw [read_of_begins true hbegin ho]
    exact readHeader_of_badLine hbad _ o
  · rw [read_of_endsHeader hbegin hne er he (o := none) hno]
    exact ⟨.noLength, rfl, rfl⟩
  · rw [read_of_endsHeader hbegin hne er he (o := some n) hn, readBody, if_pos hmax]
    exact ⟨.tooLong n, rfl, rfl⟩

/-- The line that is not ended says something, but nothing wrong. -/
theorem readHeader_of_unfinished {t : List UInt8} (hlf : lf ∉ t) (hempty : ¬ IsEmptyLine t)
    (hgood : ¬ BadLine t) (seen : Bool) (o : Option Nat) :
    readHeader true seen o [] t = .failed .endInHeader := by
  have hne : t ≠ [] := by
    rintro rfl
    exact hempty fun _ hm => absurd hm List.not_mem_nil
  have hfine : ¬ (¬ IsText t ∨ (∃ value, NamesLength t value) ∧ ∀ n, ¬ GivesLength t n) := fun hb =>
    hgood ⟨t, [], (List.append_nil t).symm, Or.inr ⟨hlf, rfl⟩, hb⟩
  rw [readHeader_last _ _ hlf hne]
  by_cases hname : ∃ value, NamesLength t value
  · by_cases hg : ∃ n, GivesLength t n
    · obtain ⟨n, hn⟩ := hg
      rw [ofBytes_length hn]
      rfl
    · exact absurd (Or.inr ⟨hname, fun n hn => hg ⟨n, hn⟩⟩) hfine
  · have ht : IsText t := by
      by_contra ht
      exact hfine (Or.inl ht)
    rw [ofBytes_other ht hempty fun value hv => hname ⟨value, hv⟩]
    rfl

/-- **A stream that stops too early is refused as such.** -/
theorem read_of_truncated {s : List UInt8} (h : Truncated s) :
    ∃ e, read true s = .failed e ∧ e.isEarlyEnd = true := by
  obtain ⟨hs, rest, hbegin, hcase⟩ := h
  rcases hcase with ⟨hne, rfl⟩ | ⟨hlf, hempty, hgood⟩ | ⟨hne, e, t, n, er, he, hn, hmax, hlen⟩
  · obtain ⟨o, ho⟩ := exists_hasLength hbegin.choose_spec.2.2
    rw [read_of_begins true hbegin ho, not_isEmpty_of_ne_nil hne]
    exact ⟨.endInHeader, rfl, rfl⟩
  · obtain ⟨o, ho⟩ := exists_hasLength hbegin.choose_spec.2.2
    rw [read_of_begins true hbegin ho, readHeader_of_unfinished hlf hempty hgood]
    exact ⟨.endInHeader, rfl, rfl⟩
  · rw [read_of_endsHeader hbegin hne er he (o := some n) hn, readBody, if_neg (by omega),
      if_neg (by omega)]
    exact ⟨.endInBody, rfl, rfl⟩

/-! ## 4. Exactly these -/

/-- What a stream is, beside what the reader finds in it. -/
theorem read_cases (s : List UInt8) :
    (∃ body rest, Framed s body rest ∧ read true s = .frame body rest) ∨
    (OnlyBlank s ∧ read true s = .finished) ∨
    (Malformed s ∧ ∃ e, read true s = .failed e ∧ e.isEarlyEnd = false) ∨
    (Truncated s ∧ ∃ e, read true s = .failed e ∧ e.isEarlyEnd = true) := by
  rcases grammar_total s with ⟨body, rest, h⟩ | h | h | h
  · exact Or.inl ⟨body, rest, h, read_of_framed h⟩
  · exact Or.inr (Or.inl ⟨h, read_of_onlyBlank h⟩)
  · exact Or.inr (Or.inr (Or.inl ⟨h, read_of_malformed h⟩))
  · exact Or.inr (Or.inr (Or.inr ⟨h, read_of_truncated h⟩))

/-- **The reader follows the grammar.** On a stream to which nothing more comes it finds a frame exactly
    where the stream begins with one, the end exactly if there are only blank lines, something wrong
    exactly in a malformed stream and an early end exactly in a truncated one; and it waits for
    nothing. -/
theorem read_eq_iff (s : List UInt8) :
    (∀ body rest, read true s = .frame body rest ↔ Framed s body rest) ∧
    (read true s = .finished ↔ OnlyBlank s) ∧
    ((∃ e, read true s = .failed e ∧ e.isEarlyEnd = false) ↔ Malformed s) ∧
    ((∃ e, read true s = .failed e ∧ e.isEarlyEnd = true) ↔ Truncated s) ∧
    read true s ≠ .wait := by
  refine ⟨fun body rest => ⟨fun hr => ?_, read_of_framed⟩, ⟨fun hr => ?_, read_of_onlyBlank⟩,
    ⟨fun ⟨e, hr, hk⟩ => ?_, read_of_malformed⟩, ⟨fun ⟨e, hr, hk⟩ => ?_, read_of_truncated⟩,
    fun hr => ?_⟩
  all_goals
    rcases read_cases s with ⟨b, r, h, hs⟩ | ⟨h, hs⟩ | ⟨h, e', hs, hk'⟩ | ⟨h, e', hs, hk'⟩ <;>
      cases hr.symm.trans hs
  · exact h
  · exact h
  · exact h
  · exact absurd (hk.symm.trans hk') (by decide)
  · exact absurd (hk.symm.trans hk') (by decide)
  · exact h

end EditorBridge.Frame
