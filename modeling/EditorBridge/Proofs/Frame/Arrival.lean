import EditorBridge.Frame

/-!
# Reading while bytes arrive

The reader works on the bytes that have arrived so far. What it has found in them it finds as well when
more bytes follow (`read_append`): a frame stays the same frame, and something wrong stays wrong. So the
frames that have been cut off the front of a stream, one after another, are the first frames of the
whole stream, however the stream arrives in pieces.

* `Cut ended s bodies rest` -- the frames with these bodies have been cut off `s`, and `rest` is left;
* **`readMany_of_cut`** -- reading the whole stream yields these bodies first;
* `Broken s` -- something wrong comes behind the frames at the front of `s`.
-/

namespace EditorBridge.Frame

/-! ## 1. More bytes -/

/-- The same finding when more bytes follow. -/
def Step.before (more : List UInt8) : Step → Step
  | .frame body rest => .frame body (rest ++ more)
  | .finished => .finished
  | .wait => .wait
  | .failed e => .failed e

section Append

variable (ended : Bool) (more : List UInt8)

theorem readBody_append {length : Option Nat} {bs : List UInt8}
    (h : readBody false length bs ≠ .wait) :
    readBody ended length (bs ++ more) = (readBody false length bs).before more := by
  cases length with
  | none => rfl
  | some n =>
    unfold readBody at h ⊢
    by_cases hmax : maxBodyBytes < n
    · simp only [hmax, if_true, Step.before]
    · by_cases hn : n ≤ bs.length
      · have hn' : n ≤ (bs ++ more).length := by
          rw [List.length_append]
          omega
        simp only [hmax, hn, hn', if_true, if_false, Step.before, List.take_append_of_le_length hn,
          List.drop_append_of_le_length hn]
      · simp only [hmax, hn, if_false, Bool.false_eq_true] at h
        exact absurd rfl h

theorem readHeader_append {seen : Bool} {length : Option Nat} {cur bs : List UInt8}
    (h : readHeader false seen length cur bs ≠ .wait) :
    readHeader ended seen length cur (bs ++ more) =
      (readHeader false seen length cur bs).before more := by
  induction bs generalizing seen length cur with
  | nil => exact absurd rfl h
  | cons b bs ih =>
    rw [List.cons_append]
    unfold readHeader at h ⊢
    by_cases hb : b = 0x0A
    · simp only [hb, if_true] at h ⊢
      cases hl : HeaderLine.ofBytes (0x0A :: cur).reverse with
      | error e => rfl
      | ok line =>
        rw [hl] at h
        cases line with
        | blank =>
          cases seen with
          | true => exact readBody_append ended more h
          | false => exact ih h
        | length n => exact ih h
        | other => exact ih h
    · simp only [hb, if_false] at h ⊢
      exact ih h

/-- **What has been found stays found when more bytes follow.** -/
theorem read_append {bs : List UInt8} (h : read false bs ≠ .wait) :
    read ended (bs ++ more) = (read false bs).before more :=
  readHeader_append ended more h

theorem read_append_of_frame {bs body rest : List UInt8} (h : read false bs = .frame body rest) :
    read ended (bs ++ more) = .frame body (rest ++ more) := by
  rw [read_append ended more (by rw [h]; exact fun e => nomatch e), h]
  rfl

theorem read_append_of_failed {bs : List UInt8} {e : Error} (h : read false bs = .failed e) :
    read ended (bs ++ more) = .failed e := by
  rw [read_append ended more (by rw [h]; exact fun e => nomatch e), h]
  rfl

end Append

/-! ## 2. A frame takes bytes -/

theorem length_le_of_readBody {ended : Bool} {length : Option Nat} {bs body rest : List UInt8}
    (h : readBody ended length bs = .frame body rest) : rest.length ≤ bs.length := by
  cases length with
  | none => cases h
  | some n =>
    unfold readBody at h
    by_cases hmax : maxBodyBytes < n
    · simp only [hmax, if_true] at h
      cases h
    · by_cases hn : n ≤ bs.length
      · simp only [hmax, hn, if_true, if_false] at h
        cases h
        exact (List.drop_sublist n bs).length_le
      · simp only [hmax, hn, if_false] at h
        cases ended <;> cases h

/-- The line that has been begun counts as well: carriage returns with which the stream ends are an end
    of the header. -/
theorem length_lt_of_readHeader {ended seen : Bool} {length : Option Nat} {cur bs body rest : List UInt8}
    (h : readHeader ended seen length cur bs = .frame body rest) :
    rest.length < cur.length + bs.length := by
  induction bs generalizing seen length cur with
  | nil =>
    cases cur with
    | nil =>
      unfold readHeader at h
      cases ended <;> cases seen <;> cases h
    | cons b cur =>
      have hnil : rest.length ≤ ([] : List UInt8).length := by
        unfold readHeader at h
        split at h
        · cases h
        · split at h
          · rename_i hc
            cases hc
          · split at h
            · cases h
            · split at h
              · exact length_le_of_readBody h
              · cases h
            · cases h
      simp only [List.length_nil, List.length_cons] at hnil ⊢
      omega
  | cons b bs ih =>
    rw [List.length_cons]
    unfold readHeader at h
    split at h
    · split at h
      · cases h
      · split at h
        · have := length_le_of_readBody h
          omega
        · have := ih h
          simp only [List.length_nil] at this
          omega
      · have := ih h
        simp only [List.length_nil] at this
        omega
      · have := ih h
        simp only [List.length_nil] at this
        omega
    · have := ih h
      simp only [List.length_cons] at this
      omega

theorem length_lt_of_read {ended : Bool} {bs body rest : List UInt8}
    (h : read ended bs = .frame body rest) : rest.length < bs.length := by
  have hlt := length_lt_of_readHeader h
  rwa [List.length_nil, Nat.zero_add] at hlt

/-! ## 3. Frames cut off a stream -/

/-- The frames with these bodies are cut off the front of a stream one after another; the last list is
    what is left. -/
inductive Cut (ended : Bool) : List UInt8 → List (List UInt8) → List UInt8 → Prop
  | none (s : List UInt8) : Cut ended s [] s
  | frame {s body rest left : List UInt8} {bodies : List (List UInt8)}
      (h : read ended s = .frame body rest) (hs : Cut ended rest bodies left) :
      Cut ended s (body :: bodies) left

namespace Cut

variable {ended : Bool} {s left : List UInt8} {bodies : List (List UInt8)}

/-- One more frame. -/
theorem snoc (h : Cut ended s bodies left) {body rest : List UInt8}
    (hr : read ended left = .frame body rest) : Cut ended s (bodies ++ [body]) rest := by
  induction h with
  | none s => exact .frame hr (.none rest)
  | frame h _ ih => exact .frame h (ih hr)

/-- More bytes follow. -/
theorem append (h : Cut false s bodies left) (ended : Bool) (more : List UInt8) :
    Cut ended (s ++ more) bodies (left ++ more) := by
  induction h with
  | none s => exact .none _
  | frame h _ ih => exact .frame (read_append_of_frame ended more h) ih

theorem length_le (h : Cut ended s bodies left) : bodies.length + left.length ≤ s.length := by
  induction h with
  | none s => exact Nat.le_of_eq (Nat.zero_add _)
  | frame h _ ih =>
    have := length_lt_of_read h
    rw [List.length_cons]
    omega

end Cut

/-- Behind some frames there is something wrong. -/
def Broken (s : List UInt8) : Prop :=
  ∃ bodies left e, Cut false s bodies left ∧ read false left = .failed e

/-- **Reading the whole stream yields the frames that have been cut off it, then those of the rest.** -/
theorem readMany_of_cut {ended : Bool} {s left : List UInt8} {bodies : List (List UInt8)}
    (h : Cut ended s bodies left) (fuel : Nat) :
    readMany ended (bodies.length + fuel) s =
      (bodies ++ (readMany ended fuel left).1, (readMany ended fuel left).2) := by
  induction h with
  | none s =>
    rw [List.length_nil, Nat.zero_add, List.nil_append]
  | frame h _ ih =>
    rw [List.length_cons, Nat.add_right_comm, readMany, h]
    simp only [ih, List.cons_append]

/-- The bodies of all frames in the bytes that have arrived. -/
def bodiesIn (ended : Bool) (s : List UInt8) : List (List UInt8) :=
  (readMany ended (s.length + 1) s).1

theorem Cut.bodiesIn_eq {ended : Bool} {s left : List UInt8} {bodies : List (List UInt8)}
    (h : Cut ended s bodies left) :
    ∃ fuel, bodiesIn ended s = bodies ++ (readMany ended (fuel + 1) left).1 := by
  have hlen := h.length_le
  obtain ⟨fuel, hfuel⟩ := Nat.exists_eq_add_of_le (Nat.le_of_add_right_le hlen)
  refine ⟨fuel, ?_⟩
  rw [bodiesIn, hfuel, Nat.add_assoc, readMany_of_cut h]

/-- The frames that have been cut off are the first frames. -/
theorem Cut.prefix_bodiesIn {ended : Bool} {s left : List UInt8} {bodies : List (List UInt8)}
    (h : Cut ended s bodies left) : bodies <+: bodiesIn ended s := by
  obtain ⟨fuel, hf⟩ := h.bodiesIn_eq
  exact ⟨_, hf.symm⟩

/-- If no frame is left, they are all frames. -/
theorem Cut.eq_bodiesIn {ended : Bool} {s left : List UInt8} {bodies : List (List UInt8)}
    (h : Cut ended s bodies left) (hno : ∀ body rest, read ended left ≠ .frame body rest) :
    bodies = bodiesIn ended s := by
  obtain ⟨fuel, hf⟩ := h.bodiesIn_eq
  rw [hf, readMany]
  cases hr : read ended left with
  | frame body rest => exact absurd hr (hno body rest)
  | finished => exact (List.append_nil _).symm
  | wait => exact (List.append_nil _).symm
  | failed e => exact (List.append_nil _).symm

end EditorBridge.Frame
