import EditorBridge.Proofs.Frame.Reading

/-!
# Streams of frames

What `Frame.encode` writes begins with a `Content-Length` line, which gives the length of the body in
the sense of the grammar; so a frame is read back together with exactly what follows it, whatever the
body holds. A stream of frames, with blank lines before each and behind the last, is read back whole
(**`readAll_stream`**).

That is so for bodies that are not longer than what is read. Of any bodies, written one behind the other,
those before the first that is longer are read back (`readAll_frames`).
-/

namespace EditorBridge.Frame

open EditorBridge.Text

/-! ## 1. The header that is written -/

/-- The `Content-Length` line for `n` bytes. -/
def lengthLine (n : Nat) : List UInt8 :=
  Utf8.encodeChars ("Content-Length".toList ++ ':' :: (' ' :: Numeral.digits n ++ "\r\n".toList))

theorem encode_eq (body : List UInt8) :
    encode body = lengthLine body.length ++ [cr, lf] ++ body := by
  have h : Utf8.encodeChars "\r\n".toList = [cr, lf] := rfl
  rw [← h, lengthLine, ← Utf8.encodeChars_append, encode]
  simp

theorem namesLength_lengthLine (n : Nat) :
    NamesLength (lengthLine n) (' ' :: Numeral.digits n ++ "\r\n".toList) := by
  refine ⟨"Content-Length".toList, rfl, by decide, "Content-Length".toList,
    ⟨[], [], by simp, ?_, ?_⟩, by decide⟩
  · exact fun _ hm => absurd hm List.not_mem_nil
  · exact fun _ hm => absurd hm List.not_mem_nil

theorem givesLength_lengthLine {n : Nat} (h : n < 2 ^ 64) : GivesLength (lengthLine n) n := by
  refine ⟨_, Numeral.digits n, namesLength_lengthLine n, ⟨[' '], "\r\n".toList, rfl, ?_, ?_⟩,
    Numeral.spells_digits n, h⟩
  · exact List.all_eq_true.mp (rfl : [' '].all isBlank = true)
  · exact List.all_eq_true.mp (rfl : "\r\n".toList.all isBlank = true)

theorem isLine_lengthLine (n : Nat) : IsLine (lengthLine n) := by
  refine ⟨Utf8.encodeChars ("Content-Length: ".toList ++ Numeral.digits n ++ ['\r']), ?_, ?_⟩
  · refine Utf8.not_mem_encodeChars (by decide) fun c hc => ?_
    rcases List.mem_append.mp hc with hc | hc
    · rcases List.mem_append.mp hc with hc | hc
      · have hall : ("Content-Length: ".toList.all fun x => x.toNat != lf.toNat) = true := rfl
        exact bne_iff_ne.mp (List.all_eq_true.mp hall c hc)
      · have hd := Numeral.isDigit_of_mem_digits hc
        intro e
        have hc : c = '\n' := Char.toNat_inj.mp e
        rw [hc] at hd
        exact absurd hd (by decide)
    · rw [List.mem_singleton.mp hc]
      decide
  · have h : Utf8.encodeChars ['\n'] = [lf] := rfl
    rw [← h, ← Utf8.encodeChars_append, lengthLine]
    simp

theorem isHeaderLine_lengthLine {n : Nat} (h : n < 2 ^ 64) : IsHeaderLine (lengthLine n) := by
  refine ⟨isLine_lengthLine n, fun hb => ?_, ⟨_, rfl⟩, fun _ _ => ⟨n, givesLength_lengthLine h⟩⟩
  have he := (isBlankLine_iff (isLine_lengthLine n)).mp hb
  have hC := (isEmptyLine_encodeChars _).mp he 'C' (by simp)
  exact absurd hC (by decide)

/-- A line ends at its only line feed. -/
theorem append_inj_of_isLine {l l' x y : List UInt8} (hl : IsLine l) (hl' : IsLine l') (h : l ++ x = l' ++ y) :
    l = l' ∧ x = y := by
  have hshort : ∀ {k k' : List UInt8}, IsLine k → IsLine k' → k <+: k' → k = k' := by
    rintro k k' ⟨t, -, hk⟩ ⟨t', ht', rfl⟩ hprefix
    refine (List.prefix_concat_iff.mp hprefix).resolve_right fun hbefore => ht' (hbefore.subset ?_)
    rw [hk]
    exact List.mem_append_right t List.mem_cons_self
  have hline : l = l' := by
    rcases List.prefix_or_prefix_of_prefix ⟨x, h⟩ (List.prefix_append l' y) with hp | hp
    · exact hshort hl hl' hp
    · exact (hshort hl' hl hp).symm
  exact ⟨hline, List.append_cancel_left (hline ▸ h)⟩

/-- **Different bodies have different frames**, also those that are not read back. -/
theorem encode_inj {body body' : List UInt8} (h : encode body = encode body') : body = body' := by
  rw [encode_eq, encode_eq, List.append_assoc, List.append_assoc] at h
  exact List.append_cancel_left (append_inj_of_isLine (isLine_lengthLine _) (isLine_lengthLine _) h).2

/-! ## 2. One frame -/

/-- Blank lines, given by their numbers of carriage returns. -/
def blankLines (gap : List Nat) : List UInt8 :=
  (gap.map fun k => List.replicate k cr ++ [lf]).flatten

theorem isBlankLine_of_mem_gap {gap : List Nat} :
    ∀ b ∈ gap.map fun k => List.replicate k cr ++ [lf], IsBlankLine b := by
  intro b hb
  obtain ⟨k, -, rfl⟩ := List.mem_map.mp hb
  exact ⟨k, rfl⟩

/-- What is written begins with the header line, whatever the body holds and whatever follows it. -/
theorem begins_encode {body : List UInt8} (h : body.length ≤ maxBodyBytes) (gap : List Nat)
    (rest : List UInt8) :
    Begins (blankLines gap ++ encode body ++ rest) [lengthLine body.length]
      ([cr, lf] ++ (body ++ rest)) := by
  refine ⟨gap.map fun k => List.replicate k cr ++ [lf], ?_, isBlankLine_of_mem_gap, fun l hl => ?_⟩
  · rw [encode_eq]
    simp [blankLines]
  · rw [List.mem_singleton.mp hl]
    exact isHeaderLine_lengthLine (Nat.lt_of_le_of_lt h (by decide))

theorem lastLength_lengthLine {n : Nat} (h : n ≤ maxBodyBytes) : LastLength [lengthLine n] n :=
  ⟨[], _, [], rfl, givesLength_lengthLine (Nat.lt_of_le_of_lt h (by decide)),
    fun _ hm => absurd hm List.not_mem_nil⟩

/-- **A frame that is written is read as soon as it has arrived**, and nothing behind it. -/
theorem read_encode (ended : Bool) {body : List UInt8} (h : body.length ≤ maxBodyBytes)
    (gap : List Nat) (rest : List UInt8) :
    read ended (blankLines gap ++ encode body ++ rest) = .frame body rest := by
  have hlast : HasLength [lengthLine body.length] (some body.length) := lastLength_lengthLine h
  have hblank : IsBlankLine [cr, lf] := ⟨1, rfl⟩
  rw [read_of_begins ended (begins_encode h gap rest) hlast,
    not_isEmpty_of_ne_nil (List.cons_ne_nil _ _), readHeader_blankLine ended hblank, readBody,
    if_neg (by omega), if_pos (by simp)]
  simp

theorem onlyBlank_blankLines (gap : List Nat) : OnlyBlank (blankLines gap) :=
  ⟨_, 0, (List.append_nil _).symm, isBlankLine_of_mem_gap⟩

/-! ## 3. Whole streams -/

/-- Frames, each with the blank lines before it. -/
abbrev Frames := List (List Nat × List UInt8)

/-- The stream of these frames and of the blank lines after the last. -/
def stream (frames : Frames) (last : List Nat) : List UInt8 :=
  frames.flatMap (fun f => blankLines f.1 ++ encode f.2) ++ blankLines last

theorem stream_cons (f : List Nat × List UInt8) (frames : Frames) (last : List Nat) :
    stream (f :: frames) last = blankLines f.1 ++ encode f.2 ++ stream frames last := by
  simp [stream]

/-- Any fuel that exceeds the number of bytes will do: each frame takes one unit and some bytes. -/
theorem readMany_stream {frames : Frames} (h : ∀ f ∈ frames, f.2.length ≤ maxBodyBytes)
    (last : List Nat) (fuel : Nat) (hf : (stream frames last).length < fuel) :
    readMany true fuel (stream frames last) = (frames.map Prod.snd, .clean) := by
  induction frames generalizing fuel with
  | nil =>
    cases fuel with
    | zero => exact absurd hf (Nat.not_lt_zero _)
    | succ fuel =>
      have hr : read true (stream [] last) = .finished :=
        read_of_onlyBlank (onlyBlank_blankLines last)
      rw [readMany, hr]
      rfl
  | cons f frames ih =>
    cases fuel with
    | zero => exact absurd hf (Nat.not_lt_zero _)
    | succ fuel =>
      have hread := read_encode true (h f List.mem_cons_self) f.1 (stream frames last)
      have hlt : (stream frames last).length < (stream (f :: frames) last).length := by
        rw [stream_cons, encode_eq]
        simp only [List.length_append, List.length_cons]
        omega
      have hrest := ih (fun g hg => h g (List.mem_cons_of_mem _ hg)) fuel (by omega)
      rw [readMany, stream_cons, hread]
      simp only [hrest, List.map_cons]

/-- **What is written as frames is read back as these frames.** Blank lines may stand before each
    frame and after the last; the bodies come back in order, and the stream ends cleanly. -/
theorem readAll_stream (frames : Frames) (last : List Nat)
    (h : ∀ f ∈ frames, f.2.length ≤ maxBodyBytes) :
    readAll (stream frames last) = (frames.map Prod.snd, .clean) :=
  readMany_stream h last _ (Nat.lt_succ_self _)

/-- An empty body, and one that is no text and holds ends of lines. -/
theorem readAll_stream_two :
    readAll (stream [([], []), ([2, 0], [0x0D, 0x0A, 0x0D, 0x0A, 0xFF])] [1]) =
      ([[], [0x0D, 0x0A, 0x0D, 0x0A, 0xFF]], .clean) :=
  readAll_stream [([], []), ([2, 0], [0x0D, 0x0A, 0x0D, 0x0A, 0xFF])] [1] (by decide)

/-! ## 4. Bodies that are too long -/

/-- The number in a header line that is written is read back, if 64 bits can hold it. -/
theorem ofBytes_lengthLine (n : Nat) :
    HeaderLine.ofBytes (lengthLine n) = .ok (.length n) ∨
      HeaderLine.ofBytes (lengthLine n) = .error .badLength := by
  by_cases hn : n < 2 ^ 64
  · exact Or.inl (ofBytes_length (givesLength_lengthLine hn))
  · refine Or.inr ?_
    have hblank : ∀ c ∈ Numeral.digits n, isBlank c = false := fun c hc =>
      isBlank_of_isDigit (Numeral.isDigit_of_mem_digits hc)
    have htrim : trim (' ' :: Numeral.digits n ++ "\r\n".toList) = Numeral.digits n := by
      refine trim_of_padded ⟨[' '], "\r\n".toList, rfl, ?_, ?_⟩ (Numeral.digits_ne_nil n) hblank
      · exact List.all_eq_true.mp (rfl : [' '].all isBlank = true)
      · exact List.all_eq_true.mp (rfl : "\r\n".toList.all isBlank = true)
    have hread : Numeral.readUnsigned Numeral.maxU64 (Numeral.digits n) = none := by
      rw [Numeral.readUnsigned, Option.filter_eq_none_iff]
      intro m hm
      have hspell := (Numeral.spells_iff_dropPlus _ _).mp (Numeral.spells_digits n)
      cases hspell.symm.trans hm
      rw [decide_eq_true_eq, Numeral.maxU64]
      omega
    have hname : isLengthName "Content-Length".toList = true := by decide
    rw [lengthLine, ofBytes_encodeChars, ofChars_colon (by decide), if_pos hname, htrim, hread]

/-- **A body that is too long cannot be read back**, though it can be written. -/
theorem read_encode_of_lt (ended : Bool) {body : List UInt8} (h : maxBodyBytes < body.length)
    (rest : List UInt8) : ∃ e, read ended (encode body ++ rest) = .failed e := by
  have hblank : IsBlankLine [cr, lf] := ⟨1, rfl⟩
  have he : encode body ++ rest = lengthLine body.length ++ ([cr, lf] ++ (body ++ rest)) := by
    rw [encode_eq]
    simp
  rw [he, read, readHeader_line ended false none (isLine_lengthLine _)]
  rcases ofBytes_lengthLine body.length with hl | hl
  · refine ⟨.tooLong body.length, ?_⟩
    rw [hl]
    show readHeader ended true (some body.length) [] ([cr, lf] ++ (body ++ rest)) = _
    rw [readHeader_blankLine ended hblank, readBody, if_pos h]
  · exact ⟨.badLength, by rw [hl]; rfl⟩

/-- Whether a body can be read back. -/
def fits (body : List UInt8) : Bool := body.length ≤ maxBodyBytes

/-- Reading stops at the first body that is too long. -/
theorem readMany_frames (bodies : List (List UInt8)) (fuel : Nat)
    (hf : (bodies.flatMap encode).length < fuel) :
    (readMany true fuel (bodies.flatMap encode)).1 = bodies.takeWhile fits ∧
      ((readMany true fuel (bodies.flatMap encode)).2 = .clean ↔ ∀ b ∈ bodies, fits b = true) := by
  induction bodies generalizing fuel with
  | nil =>
    cases fuel with
    | zero => exact absurd hf (Nat.not_lt_zero _)
    | succ fuel =>
      have hread : read true [] = .finished := rfl
      rw [List.flatMap_nil, readMany, hread]
      exact ⟨rfl, fun _ _ hb => absurd hb List.not_mem_nil, fun _ => rfl⟩
  | cons b bodies ih =>
    cases fuel with
    | zero => exact absurd hf (Nat.not_lt_zero _)
    | succ fuel =>
      rw [List.flatMap_cons] at hf ⊢
      by_cases hb : b.length ≤ maxBodyBytes
      · have hread : read true (encode b ++ bodies.flatMap encode) = .frame b (bodies.flatMap encode) :=
          read_encode true hb [] _
        have hlt : (bodies.flatMap encode).length < fuel := by
          rw [encode_eq] at hf
          simp only [List.length_append, List.length_cons] at hf
          omega
        obtain ⟨hbodies, hending⟩ := ih fuel hlt
        have hfit : fits b = true := decide_eq_true hb
        rw [readMany, hread, List.takeWhile_cons, if_pos hfit, List.forall_mem_cons]
        exact ⟨congrArg (b :: ·) hbodies, hending.trans (and_iff_right hfit).symm⟩
      · obtain ⟨e, hread⟩ := read_encode_of_lt true (Nat.lt_of_not_le hb) (bodies.flatMap encode)
        have hfit : ¬ fits b = true := fun h => hb (of_decide_eq_true h)
        rw [readMany, hread, List.takeWhile_cons, if_neg hfit, List.forall_mem_cons]
        exact ⟨rfl, fun h => (nomatch h), fun h => absurd h.1 hfit⟩

/-- **What is written is read back up to the first body that is too long**, and the stream ends cleanly
    exactly if there is none. -/
theorem readAll_frames (bodies : List (List UInt8)) :
    (readAll (bodies.flatMap encode)).1 = bodies.takeWhile fits ∧
      ((readAll (bodies.flatMap encode)).2 = .clean ↔ ∀ b ∈ bodies, fits b = true) :=
  readMany_frames bodies _ (Nat.lt_succ_self _)

end EditorBridge.Frame
