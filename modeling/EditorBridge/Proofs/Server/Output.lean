import Mathlib.Data.List.Forall2
import EditorBridge.Proofs.Frame.HeaderLine
import EditorBridge.Server.Process

/-!
# The lines that a process prints

A stream is cut at its line feeds (`Printout`), in one way only, without a reader. The reader is shown to
find exactly the segments of that cut, and to log them up to the first that is no text:

* `segments_bytes` -- the lines that the reader finds are those of the cut;
* `isText_withoutReturn` -- the carriage return that it drops does not matter for whether a segment is text;
* `textsBefore_spec` -- what comes before the first segment that is no text.

**`outputLines_exact`** -- the log of any stream, and of texts that are printed as lines.
-/

namespace EditorBridge

open Text
open EditorBridge.Frame (cr lf IsText)

/-! ## 1. Streams, cut at their line feeds -/

/-- A stream in pieces: the segments that a line feed ends, without it, and what is left after them. -/
structure Printout where
  ended : List (List UInt8)
  left : List UInt8

namespace Printout

/-- The stream. -/
def bytes (c : Printout) : List UInt8 := c.ended.flatMap (· ++ [lf]) ++ c.left

/-- The stream is cut at every line feed. -/
structure Full (c : Printout) : Prop where
  ended : ∀ p ∈ c.ended, lf ∉ p
  left : lf ∉ c.left

/-- What is left is a segment unless it is empty. -/
def unended (c : Printout) : List (List UInt8) := if c.left = [] then [] else [c.left]

/-- The segments of the stream. -/
def segments (c : Printout) : List (List UInt8) := c.ended ++ c.unended

/-- A segment without one carriage return at its end. -/
def withoutReturn (p : List UInt8) : List UInt8 := if p.getLast? = some cr then p.dropLast else p

/-- The lines of the stream: a carriage return is dropped only where a line feed follows it. -/
def lines (c : Printout) : List (List UInt8) := c.ended.map withoutReturn ++ c.unended

variable {c : Printout}

theorem Full.of_cons {p : List UInt8} {ps : List (List UInt8)} {l : List UInt8}
    (h : Full ⟨p :: ps, l⟩) : lf ∉ p ∧ Full ⟨ps, l⟩ :=
  ⟨h.ended p List.mem_cons_self, fun q hq => h.ended q (List.mem_cons_of_mem p hq), h.left⟩

/-- Every stream can be cut. -/
theorem exists_full (bs : List UInt8) : ∃ c : Printout, c.Full ∧ c.bytes = bs := by
  induction bs with
  | nil => exact ⟨⟨[], []⟩, ⟨fun _ h => absurd h List.not_mem_nil, List.not_mem_nil⟩, rfl⟩
  | cons b bs ih =>
    obtain ⟨⟨ended, left⟩, hfull, rfl⟩ := ih
    by_cases hb : b = lf
    · subst hb
      refine ⟨⟨[] :: ended, left⟩, ⟨?_, hfull.left⟩, rfl⟩
      exact List.forall_mem_cons.mpr ⟨List.not_mem_nil, hfull.ended⟩
    · cases ended with
      | nil =>
        have hleft := List.not_mem_cons_of_ne_of_not_mem (Ne.symm hb) hfull.left
        exact ⟨⟨[], b :: left⟩, ⟨hfull.ended, hleft⟩, rfl⟩
      | cons p ps =>
        obtain ⟨hp, hrest⟩ := hfull.of_cons
        refine ⟨⟨(b :: p) :: ps, left⟩, ⟨?_, hrest.left⟩, rfl⟩
        exact List.forall_mem_cons.mpr ⟨List.not_mem_cons_of_ne_of_not_mem (Ne.symm hb) hp, hrest.ended⟩

end Printout

/-! ## 2. What the reader finds -/

open Printout

theorem reverse_dropReturn (p : List UInt8) : (dropReturn p.reverse).reverse = withoutReturn p := by
  rcases List.eq_nil_or_concat p with rfl | ⟨q, b, rfl⟩
  · rfl
  · rw [List.concat_eq_append, withoutReturn, List.getLast?_concat, List.dropLast_concat, List.reverse_concat]
    by_cases hb : b = cr
    · subst hb
      rw [if_pos rfl]
      exact List.reverse_reverse q
    · rw [if_neg fun h => hb (Option.some.inj h), dropReturn, List.reverse_cons, List.reverse_reverse]
      exact fun _ h => hb (List.cons.inj h).1

/-- A segment that a line feed ends, begun with `cur` (reversed). -/
theorem segmentsFrom_ended {p : List UInt8} (hp : lf ∉ p) (cur r : List UInt8) :
    segmentsFrom cur (p ++ lf :: r) = withoutReturn (cur.reverse ++ p) :: segmentsFrom [] r := by
  induction p generalizing cur with
  | nil =>
    rw [List.append_nil, ← reverse_dropReturn, List.reverse_reverse]
    rfl
  | cons b p ih =>
    have hb := List.ne_of_not_mem_cons hp
    have hstep : segmentsFrom cur (b :: (p ++ lf :: r)) = segmentsFrom (b :: cur) (p ++ lf :: r) :=
      if_neg (Ne.symm hb)
    rw [List.cons_append, hstep, ih (List.not_mem_of_not_mem_cons hp), List.reverse_cons, List.append_assoc]
    rfl

/-- What is left at the end of the stream. -/
theorem segmentsFrom_left {p : List UInt8} (hp : lf ∉ p) (cur : List UInt8) :
    segmentsFrom cur p = if cur.reverse ++ p = [] then [] else [cur.reverse ++ p] := by
  induction p generalizing cur with
  | nil => cases cur <;> simp [segmentsFrom]
  | cons b p ih =>
    have hb := List.ne_of_not_mem_cons hp
    have hstep : segmentsFrom cur (b :: p) = segmentsFrom (b :: cur) p := if_neg (Ne.symm hb)
    rw [hstep, ih (List.not_mem_of_not_mem_cons hp), List.reverse_cons, List.append_assoc]
    rfl

/-- **The lines that the reader finds** are those of the cut. -/
theorem segments_bytes {c : Printout} (h : c.Full) : segments c.bytes = c.lines := by
  obtain ⟨ended, left⟩ := c
  rw [segments, bytes, lines, unended]
  induction ended with
  | nil => exact segmentsFrom_left h.left []
  | cons p ps ih =>
    obtain ⟨hp, hrest⟩ := h.of_cons
    rw [List.flatMap_cons, List.append_assoc, List.append_assoc, List.singleton_append,
      segmentsFrom_ended hp, ih hrest]
    rfl

/-! ## 3. Texts among the segments -/

theorem isText_encode (s : String) : IsText (Utf8.encode s) := ⟨s.toList, rfl⟩

theorem isText_iff {l : List UInt8} : IsText l ↔ ∃ s, Utf8.decode? l = some s := by
  constructor
  · rintro ⟨cs, rfl⟩
    exact ⟨String.ofList cs, Utf8.decode?_eq_some_iff.mpr (by rw [Utf8.encode, String.toList_ofList])⟩
  · rintro ⟨s, hs⟩
    exact Utf8.decode?_eq_some_iff.mp hs ▸ isText_encode s

/-- **A carriage return at the end** does not matter for whether a segment is text. -/
theorem isText_withoutReturn (p : List UInt8) : IsText (withoutReturn p) ↔ IsText p := by
  rw [withoutReturn]
  split
  · rename_i hlast
    obtain ⟨q, rfl⟩ := List.getLast?_eq_some_iff.mp hlast
    rw [List.dropLast_concat]
    constructor
    · rintro ⟨cs, rfl⟩
      exact ⟨cs ++ ['\r'], (Utf8.encodeChars_append cs ['\r']).symm⟩
    · rintro ⟨cs, hcs⟩
      obtain ⟨ds, -, -, -, rfl⟩ := Utf8.exists_last_char (by decide) hcs
      exact ⟨ds, rfl⟩
  · rfl

/-- What comes before the first element of `ls` that is no text, where `ps` are texts at the same places. -/
theorem textsBefore_spec {ls ps : List (List UInt8)} (h : List.Forall₂ (fun l p => IsText l ↔ IsText p) ls ps) :
    (textsBefore ls).map Utf8.encode = ls.take (textsBefore ls).length ∧
      (∀ p ∈ ps.take (textsBefore ls).length, IsText p) ∧ ∀ p ∈ ps[(textsBefore ls).length]?, ¬ IsText p := by
  induction h with
  | nil => simp [textsBefore]
  | @cons l p ls ps hlp _ ih =>
    obtain ⟨hmap, htexts, hend⟩ := ih
    rw [textsBefore]
    cases hl : Utf8.decode? l with
    | none =>
      have hno : ¬ IsText p := fun hp => by
        obtain ⟨s, hs⟩ := isText_iff.mp (hlp.mpr hp)
        rw [hl] at hs
        cases hs
      exact ⟨rfl, fun q hq => absurd hq List.not_mem_nil, fun q hq => Option.some.inj hq ▸ hno⟩
    | some s =>
      have htext : IsText p := hlp.mp (isText_iff.mpr ⟨s, hl⟩)
      refine ⟨?_, ?_, hend⟩
      · rw [List.map_cons, hmap, List.length_cons, List.take_succ_cons, Utf8.decode?_eq_some_iff.mp hl]
      · exact List.forall_mem_cons.mpr ⟨htext, htexts⟩

/-- Texts are what comes before nothing. -/
theorem textsBefore_encode (ts : List String) : textsBefore (ts.map Utf8.encode) = ts := by
  induction ts with
  | nil => rfl
  | cons t ts ih => rw [List.map_cons, textsBefore, Utf8.decode?_eq_some_iff.mpr rfl, ih]

/-! ## 4. Texts that are printed as lines -/

/-- A text that can stand on a line of its own. -/
structure FitsLine (t : String) : Prop where
  oneLine : '\n' ∉ t.toList
  last : t.toList.getLast? ≠ some '\r'

/-- A text printed as a line, which a carriage return and a line feed end or a line feed alone. -/
def printedLine (t : String) (withReturn : Bool) : List UInt8 :=
  Utf8.encode t ++ if withReturn then [cr, lf] else [lf]

/-- The cut of texts that are printed as lines. -/
def printoutOf (ts : List (String × Bool)) : Printout :=
  ⟨ts.map fun t => Utf8.encode t.1 ++ if t.2 then [cr] else [], []⟩

theorem bytes_printoutOf (ts : List (String × Bool)) :
    (printoutOf ts).bytes = ts.flatMap fun t => printedLine t.1 t.2 := by
  rw [printoutOf, bytes, List.append_nil, List.flatMap_map]
  refine List.flatMap_congr fun t _ => ?_
  rw [printedLine, List.append_assoc]
  cases t.2 <;> rfl

theorem full_printoutOf {ts : List (String × Bool)} (h : ∀ t ∈ ts, FitsLine t.1) : (printoutOf ts).Full := by
  refine ⟨fun p hp => ?_, List.not_mem_nil⟩
  obtain ⟨t, ht, rfl⟩ := List.mem_map.mp hp
  have hnone : ∀ c ∈ t.1.toList, c.toNat ≠ lf.toNat := fun c hc e => by
    have hlf : c = '\n' := Char.toNat_inj.mp e
    exact (h t ht).oneLine (hlf ▸ hc)
  rw [List.mem_append, not_or]
  refine ⟨Utf8.not_mem_encodeChars (by decide) hnone, ?_⟩
  cases t.2 <;> decide

theorem withoutReturn_encode {t : String} (h : FitsLine t) (withReturn : Bool) :
    withoutReturn (Utf8.encode t ++ if withReturn then [cr] else []) = Utf8.encode t := by
  cases withReturn with
  | true =>
    rw [if_pos rfl, withoutReturn, List.getLast?_concat, if_pos rfl, List.dropLast_concat]
  | false =>
    rw [if_neg Bool.false_ne_true, List.append_nil, withoutReturn]
    refine if_neg fun hlast => ?_
    obtain ⟨q, hq⟩ := List.getLast?_eq_some_iff.mp hlast
    obtain ⟨ds, c, ht, hc, -⟩ := Utf8.exists_last_char (by decide) hq.symm
    have hcr : c = '\r' := Char.toNat_inj.mp hc
    rw [hcr] at ht
    exact h.last (ht ▸ List.getLast?_concat)

theorem lines_printoutOf {ts : List (String × Bool)} (h : ∀ t ∈ ts, FitsLine t.1) :
    (printoutOf ts).lines = (ts.map Prod.fst).map Utf8.encode := by
  rw [lines, printoutOf, unended, if_pos rfl, List.append_nil, List.map_map, List.map_map]
  exact List.map_congr_left fun t ht => withoutReturn_encode (h t ht) t.2

/-! ## 5. The log -/

/-- **The log of a stream.** Every stream can be cut at its line feeds, and however it is cut:
    the log holds the first lines of the cut, one after another, as they are but for the carriage return
    before a line feed;
    the segments of these lines are text, and the next one, if there is one, is not.
    So texts that are printed as lines, with or without a carriage return before the line feed, are logged
    as they are. -/
theorem outputLines_exact (bs : List UInt8) :
    (∃ c : Printout, c.Full ∧ c.bytes = bs) ∧
    (∀ c : Printout, c.Full → c.bytes = bs →
      (outputLines bs).map Utf8.encode = c.lines.take (outputLines bs).length ∧
      (∀ p ∈ c.segments.take (outputLines bs).length, IsText p) ∧
      ∀ p ∈ c.segments[(outputLines bs).length]?, ¬ IsText p) ∧
    ∀ ts : List (String × Bool), (∀ t ∈ ts, FitsLine t.1) → bs = (ts.flatMap fun t => printedLine t.1 t.2) →
      outputLines bs = ts.map Prod.fst := by
  refine ⟨exists_full bs, fun c hfull hbytes => ?_, fun ts hfit hbytes => ?_⟩
  · rw [outputLines, ← hbytes, segments_bytes hfull]
    refine textsBefore_spec (List.rel_append (List.forall₂_map_left_iff.mpr ?_) ?_)
    · exact List.forall₂_same.mpr fun p _ => isText_withoutReturn p
    · exact List.forall₂_same.mpr fun p _ => Iff.rfl
  · rw [outputLines, hbytes, ← bytes_printoutOf, segments_bytes (full_printoutOf hfit), lines_printoutOf hfit,
      textsBefore_encode]

/-- A line with a carriage return of its own and a segment that ends inside a character; and two texts, printed
    as lines in both ways. -/
theorem outputLines_exact_cut :
    let c : Printout := ⟨[[0x61, 0x0D, 0x0D], [], [0xC3]], [0x62]⟩
    (c.Full ∧ outputLines c.bytes = ["a\r", ""] ∧
      (outputLines c.bytes).map Utf8.encode = c.lines.take 2 ∧ ¬ IsText [0xC3]) ∧
    outputLines (printedLine "é" true ++ printedLine "" false) = ["é", ""] := by
  intro c
  have hfull : c.Full := ⟨by decide, by decide⟩
  have hlog : outputLines c.bytes = ["a\r", ""] := by decide +kernel
  obtain ⟨-, hcut, -⟩ := outputLines_exact c.bytes
  obtain ⟨hlines, -, hend⟩ := hcut c hfull rfl
  rw [hlog] at hlines hend
  obtain ⟨-, -, hprinted⟩ := outputLines_exact (printedLine "é" true ++ printedLine "" false)
  refine ⟨⟨hfull, hlog, hlog ▸ hlines, hend _ rfl⟩, hprinted [("é", true), ("", false)] (fun t ht => ?_) ?_⟩
  · rcases List.mem_pair.mp ht with rfl | rfl
    · exact ⟨by decide, by decide⟩
    · exact ⟨by decide, by decide⟩
  · rw [List.flatMap_cons, List.flatMap_cons, List.flatMap_nil, List.append_nil]

end EditorBridge
