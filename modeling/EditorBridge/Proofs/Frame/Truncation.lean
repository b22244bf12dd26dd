import EditorBridge.Proofs.Frame.Arrival
import EditorBridge.Proofs.Frame.Stream

/-!
# Streams that break off

A stream of frames that breaks off holds some whole frames and, unless it breaks off behind one of them, a
part of the next one (`exists_part`).

* `inside` -- the bodies whose frames have arrived whole;
* **`read_of_part`** -- a part of a frame is refused wherever it ends, in its header line, between the ends
  of lines or in its body. But where only the last byte of the frame around an empty body is missing, the
  carriage return before it ends the header as well as a blank line would;
* **`readAll_prefix`** -- so of a stream that breaks off exactly the whole frames are read, and then one
  error is found, or none behind a whole frame.
-/

namespace EditorBridge.Frame

/-- A prefix of two lists ends inside the first, or goes on in the second. -/
theorem prefix_append_cases {α : Type} {p xs ys : List α} (h : p <+: xs ++ ys) :
    (p <+: xs ∧ p ≠ xs) ∨ ∃ q, p = xs ++ q ∧ q <+: ys := by
  by_cases hx : xs <+: p
  · obtain ⟨q, rfl⟩ := hx
    exact Or.inr ⟨q, rfl, (List.prefix_append_right_inj xs).mp h⟩
  · have hp : p <+: xs := (List.prefix_or_prefix_of_prefix h (List.prefix_append xs ys)).resolve_right hx
    exact Or.inl ⟨hp, fun e => hx (e ▸ List.prefix_rfl)⟩

/-! ## 1. A part of a frame -/

section Part

variable {part body : List UInt8}

theorem length_encode (body : List UInt8) :
    (encode body).length = (lengthLine body.length).length + 2 + body.length := by
  rw [encode_eq, List.length_append, List.length_append]
  rfl

theorem length_encode_pos (body : List UInt8) : 0 < (encode body).length := by
  rw [length_encode]
  omega

/-- Bytes that say something, but end before a line feed, are no stream. -/
theorem read_of_unended {t : List UInt8} (hlf : lf ∉ t) (hfilled : ¬ IsEmptyLine t) :
    ∃ e, read true t = .failed e := by
  by_cases hbad : BadLine t
  · obtain ⟨e, he, -⟩ := readHeader_of_badLine hbad false none
    exact ⟨e, he⟩
  · exact ⟨.endInHeader, readHeader_of_unfinished hlf hfilled hbad false none⟩

/-- A part of the header line. -/
theorem read_of_lengthLine_part {n : Nat} (hp : part <+: lengthLine n) (hne : part ≠ [])
    (hall : part ≠ lengthLine n) : ∃ e, read true part = .failed e := by
  refine read_of_unended ?_ fun hempty => ?_
  · obtain ⟨t, ht, hline⟩ := isLine_lengthLine n
    rw [hline] at hp hall
    exact fun hm => ht (((List.prefix_concat_iff.mp hp).resolve_left hall).subset hm)
  · -- it begins with a letter
    obtain ⟨r, hr⟩ : ∃ r, lengthLine n = 0x43 :: r := ⟨_, rfl⟩
    obtain ⟨b, q, rfl⟩ := List.exists_cons_of_ne_nil hne
    rw [hr, List.cons_prefix_cons] at hp
    rcases hempty b List.mem_cons_self with hb | hb
    · exact absurd (hp.1.symm.trans hb) (by decide)
    · exact absurd (hp.1.symm.trans hb) (by decide)

/-- Behind the header line. -/
theorem read_lengthLine {n : Nat} (h : n ≤ maxBodyBytes) (q : List UInt8) :
    read true (lengthLine n ++ q) = readHeader true true (some n) [] q := by
  have hbegin : Begins (lengthLine n ++ q) [lengthLine n] q := by
    refine ⟨[], by simp, fun b hb => absurd hb List.not_mem_nil, fun l hl => ?_⟩
    rw [List.mem_singleton.mp hl]
    exact isHeaderLine_lengthLine (Nat.lt_of_le_of_lt h (by decide))
  have hlast : HasLength [lengthLine n] (some n) := lastLength_lengthLine h
  exact read_of_begins true hbegin hlast

/-- A part of the frame around a body: the first of its bytes, but not all of them. -/
structure IsPart (part body : List UInt8) : Prop where
  isPrefix : part <+: encode body
  ne_nil : part ≠ []
  ne_encode : part ≠ encode body

theorem IsPart.length_lt (hp : IsPart part body) : part.length < (encode body).length :=
  Nat.lt_of_le_of_ne hp.isPrefix.length_le fun e => hp.ne_encode (hp.isPrefix.eq_of_length e)

/-- Nothing but the last byte of a frame around an empty body is missing. -/
def LacksLastByte (part body : List UInt8) : Prop := body = [] ∧ part.length + 1 = (encode body).length

/-- **A part of a frame is refused**, but for one around an empty body of which only the last byte is
    missing. -/
theorem read_of_part (h : body.length ≤ maxBodyBytes) (hp : IsPart part body) :
    (LacksLastByte part body ∧ read true part = .frame [] []) ∨
      ¬ LacksLastByte part body ∧ ∃ e, read true part = .failed e := by
  obtain ⟨hp, hne, hall⟩ := hp
  have hlength := length_encode body
  rw [encode_eq, List.append_assoc] at hp hall
  rcases prefix_append_cases hp with ⟨hline, hshort⟩ | ⟨q, rfl, hq⟩
  · refine Or.inr ⟨fun hlacks => ?_, read_of_lengthLine_part hline hne hshort⟩
    have hle := hline.length_le
    have hlacks := hlacks.2
    omega
  rw [read_lengthLine h]
  match q, hq with
  | [], _ =>
    refine Or.inr ⟨fun hlacks => ?_, .endInHeader, rfl⟩
    have hlacks := hlacks.2
    rw [List.append_nil] at hlacks
    omega
  | [b], hq =>
    have hb : b = cr := (List.cons_prefix_cons.mp hq).1
    have hends : EndsHeader [b] [] := Or.inr ⟨⟨0, congrArg (fun x => [x]) hb⟩, rfl⟩
    have hread : readHeader true true (some body.length) [] [b] = readBody true (some body.length) [] :=
      readHeader_endsHeader hends _
    rw [hread, readBody, if_neg (by omega)]
    cases body with
    | nil =>
      refine Or.inl ⟨⟨rfl, ?_⟩, rfl⟩
      rw [hlength, List.length_append]
      rfl
    | cons x body => exact Or.inr ⟨fun hlacks => List.cons_ne_nil x body hlacks.1, .endInBody, rfl⟩
  | b :: b' :: r, hq =>
    obtain ⟨hb, hq⟩ := List.cons_prefix_cons.mp hq
    obtain ⟨hb', hr⟩ := List.cons_prefix_cons.mp hq
    have hread : readHeader true true (some body.length) [] (cr :: lf :: r) =
        readBody true (some body.length) r := readHeader_blankLine true ⟨1, rfl⟩ _
    have hlt : r.length < body.length := by
      refine Nat.lt_of_le_of_ne hr.length_le fun e => hall ?_
      rw [hb, hb', hr.eq_of_length e]
      rfl
    rw [hb, hb']
    refine Or.inr ⟨fun hlacks => ?_, .endInBody, ?_⟩
    · rw [hlacks.1] at hlt
      exact absurd hlt (Nat.not_lt_zero _)
    · rw [hread, readBody, if_neg (by omega), if_neg (by omega)]
      rfl

end Part

/-! ## 2. Whole frames and a part of one -/

variable {bodies whole later : List (List UInt8)} {p part : List UInt8}

/-- `part` is nothing, or a part of the frame around the first of these bodies. -/
def BeginsNext (part : List UInt8) (later : List (List UInt8)) : Prop :=
  part = [] ∨ ∃ body rest, later = body :: rest ∧ IsPart part body

/-- A stream that breaks off is whole frames and, perhaps, a part of the next one. -/
theorem exists_part (hp : p <+: bodies.flatMap encode) :
    ∃ whole later part, bodies = whole ++ later ∧ p = whole.flatMap encode ++ part ∧
      BeginsNext part later := by
  induction bodies generalizing p with
  | nil => exact ⟨[], [], p, rfl, rfl, Or.inl (List.prefix_nil.mp hp)⟩
  | cons body bodies ih =>
    rw [List.flatMap_cons] at hp
    rcases prefix_append_cases hp with ⟨hpart, hall⟩ | ⟨q, rfl, hq⟩
    · by_cases hne : p = []
      · exact ⟨[], body :: bodies, p, rfl, rfl, Or.inl hne⟩
      · exact ⟨[], body :: bodies, p, rfl, rfl, Or.inr ⟨body, bodies, rfl, hpart, hne, hall⟩⟩
    · obtain ⟨whole, later, part, rfl, rfl, hnext⟩ := ih hq
      exact ⟨body :: whole, later, part, rfl, by rw [List.flatMap_cons, List.append_assoc], hnext⟩

/-- The bodies whose frames lie wholly inside the first `n` bytes. -/
def inside (n : Nat) : List (List UInt8) → List (List UInt8)
  | [] => []
  | body :: bodies =>
    if (encode body).length ≤ n then body :: inside (n - (encode body).length) bodies else []

theorem inside_append (whole later : List (List UInt8)) (n : Nat) :
    inside ((whole.flatMap encode).length + n) (whole ++ later) = whole ++ inside n later := by
  induction whole with
  | nil => rw [List.flatMap_nil, List.length_nil, Nat.zero_add, List.nil_append, List.nil_append]
  | cons body whole ih =>
    rw [List.flatMap_cons, List.length_append, List.cons_append, inside, if_pos (by omega), Nat.add_assoc,
      Nat.add_sub_cancel_left, ih, List.cons_append]

theorem inside_of_lt {body : List UInt8} {n : Nat} (h : n < (encode body).length) :
    inside n (body :: later) = [] := if_neg (Nat.not_le_of_lt h)

theorem inside_of_beginsNext (h : BeginsNext part later) : inside part.length later = [] := by
  rcases h with rfl | ⟨body, rest, rfl, hpart⟩
  · cases later with
    | nil => rfl
    | cons body rest => exact inside_of_lt (length_encode_pos body)
  · exact inside_of_lt hpart.length_lt

/-- The whole frames are those that lie inside. -/
theorem inside_frames_append (h : BeginsNext part later) :
    inside (whole.flatMap encode ++ part).length (whole ++ later) = whole := by
  rw [List.length_append, inside_append, inside_of_beginsNext h, List.append_nil]

/-- Whole frames are cut off the front of what follows them. -/
theorem cut_frames (h : ∀ body ∈ whole, body.length ≤ maxBodyBytes) (left : List UInt8) :
    Cut true (whole.flatMap encode ++ left) whole left := by
  induction whole with
  | nil => exact .none left
  | cons body whole ih =>
    rw [List.flatMap_cons, List.append_assoc]
    exact .frame (read_encode true (h body List.mem_cons_self) [] _)
      (ih fun b hb => h b (List.mem_cons_of_mem body hb))

/-- Whole frames are read, and then what follows them; the fuel that is left exceeds its bytes. -/
theorem readAll_frames_append (h : ∀ body ∈ whole, body.length ≤ maxBodyBytes) (left : List UInt8) :
    ∃ fuel, left.length ≤ fuel ∧ readAll (whole.flatMap encode ++ left) =
      (whole ++ (readMany true (fuel + 1) left).1, (readMany true (fuel + 1) left).2) := by
  have hcut := cut_frames h left
  obtain ⟨fuel, hfuel⟩ := Nat.exists_eq_add_of_le (Nat.le_of_add_right_le hcut.length_le)
  refine ⟨fuel, ?_, ?_⟩
  · have hle := hcut.length_le
    omega
  · rw [readAll, hfuel, Nat.add_assoc, readMany_of_cut hcut]

/-! ## 3. The stream that breaks off -/

/-- The stream breaks off one byte before the end of a frame around an empty body. -/
def LacksByte (bodies : List (List UInt8)) (p : List UInt8) : Prop :=
  ∃ before after, bodies = before ++ [] :: after ∧
    p.length + 1 = ((before ++ [[]]).flatMap encode).length

theorem length_frames_snoc (whole : List (List UInt8)) (body : List UInt8) :
    ((whole ++ [body]).flatMap encode).length = (whole.flatMap encode).length + (encode body).length := by
  rw [List.flatMap_append, List.length_append, List.flatMap_singleton]

/-- That byte is the last one of the frame behind the whole ones. -/
theorem lacksByte_iff (h : BeginsNext part later) :
    LacksByte (whole ++ later) (whole.flatMap encode ++ part) ↔
      ∃ after, later = [] :: after ∧ LacksLastByte part [] := by
  constructor
  · rintro ⟨before, after, hbodies, hlength⟩
    rw [length_frames_snoc] at hlength
    obtain ⟨k, hk⟩ := Nat.exists_eq_add_of_lt (length_encode_pos [])
    have hinside : inside (whole.flatMap encode ++ part).length (before ++ [] :: after) = before := by
      have hp : (whole.flatMap encode ++ part).length = (before.flatMap encode).length + k := by omega
      rw [hp, inside_append, inside_of_lt (by omega), List.append_nil]
    rw [← hbodies, inside_frames_append h] at hinside
    subst hinside
    rw [List.length_append] at hlength
    exact ⟨after, List.append_cancel_left hbodies, rfl, by omega⟩
  · rintro ⟨after, rfl, -, hlength⟩
    refine ⟨whole, after, rfl, ?_⟩
    rw [length_frames_snoc, List.length_append, ← hlength, Nat.add_assoc]

/-- **What is read of a stream that breaks off.** A list of bodies, none of them longer than what is read, is
    written as frames, and the stream breaks off anywhere. Then exactly the bodies are read whose frames have
    arrived whole. The stream ends cleanly if it breaks off behind a frame, and else with one error. There is
    one exception: where only the last byte of the frame around an empty body is missing, this body is read
    as well and the stream ends cleanly. -/
theorem readAll_prefix (h : ∀ body ∈ bodies, body.length ≤ maxBodyBytes) (hp : p <+: bodies.flatMap encode) :
    let whole := inside p.length bodies
    (p = whole.flatMap encode → readAll p = (whole, .clean)) ∧
      (LacksByte bodies p → readAll p = (whole ++ [[]], .clean)) ∧
      (p ≠ whole.flatMap encode → ¬ LacksByte bodies p → ∃ e, readAll p = (whole, .failed e)) := by
  obtain ⟨whole, later, part, rfl, rfl, hnext⟩ := exists_part hp
  obtain ⟨fuel, hfuel, hread⟩ :=
    readAll_frames_append (fun body hb => h body (List.mem_append_left later hb)) part
  rw [inside_frames_append hnext, lacksByte_iff hnext, hread]
  rcases hnext with rfl | ⟨body, rest, rfl, hpart⟩
  · refine ⟨fun _ => ?_, ?_, fun hcut => absurd (List.append_nil _) hcut⟩
    · exact congrArg (·, _) (List.append_nil whole)
    · rintro ⟨after, -, -, hlength⟩
      rw [length_encode] at hlength
      exact absurd hlength (by simp)
  · have hcut : whole.flatMap encode ++ part ≠ whole.flatMap encode := fun e =>
      hpart.ne_nil (List.append_right_eq_self.mp e)
    refine ⟨fun e => absurd e hcut, ?_, fun _ hlacks => ?_⟩
    · rintro ⟨after, hbody, hlacks⟩
      obtain ⟨rfl, -⟩ := List.cons_eq_cons.mp hbody
      rcases read_of_part (Nat.zero_le _) hpart with ⟨-, hframe⟩ | ⟨hno, -⟩
      · obtain ⟨fuel, rfl⟩ := Nat.exists_eq_add_of_lt
          (Nat.lt_of_lt_of_le (List.length_pos_iff.mpr hpart.ne_nil) hfuel)
        rw [readMany, hframe]
        rfl
      · exact absurd hlacks hno
    · rcases read_of_part (h body (by simp)) hpart with ⟨hbody, -⟩ | ⟨-, e, hfailed⟩
      · obtain rfl := hbody.1
        exact absurd ⟨rest, rfl, hbody⟩ hlacks
      · refine ⟨e, ?_⟩
        rw [readMany, hfailed]
        exact congrArg (·, _) (List.append_nil whole)

/-- A frame around `{}` and one around nothing: without its last byte the second is read as well, without
    its last two it is not. -/
theorem readAll_prefix_two :
    let bodies : List (List UInt8) := [[0x7B, 0x7D], []]
    readAll ((bodies.flatMap encode).take 43) = ([[0x7B, 0x7D], []], .clean) ∧
      ∃ e, readAll ((bodies.flatMap encode).take 42) = ([[0x7B, 0x7D]], .failed e) := by
  intro bodies
  have hfits : ∀ body ∈ bodies, body.length ≤ maxBodyBytes := by decide
  have hinside : inside ((bodies.flatMap encode).take 43).length bodies = [[0x7B, 0x7D]] := by decide +kernel
  have hinside' : inside ((bodies.flatMap encode).take 42).length bodies = [[0x7B, 0x7D]] := by decide +kernel
  obtain ⟨-, hlacks, -⟩ := readAll_prefix hfits (List.take_prefix 43 (bodies.flatMap encode))
  obtain ⟨-, -, hfailed⟩ := readAll_prefix hfits (List.take_prefix 42 (bodies.flatMap encode))
  rw [hinside] at hlacks
  rw [hinside'] at hfailed
  refine ⟨hlacks ⟨[[0x7B, 0x7D]], [], rfl, by decide +kernel⟩, hfailed (by decide +kernel) ?_⟩
  rintro ⟨before, after, hbodies, hlength⟩
  match before, hbodies, hlength with
  | [], hbodies, _ => exact absurd (List.cons_eq_cons.mp hbodies).1 (by decide)
  | [body], hbodies, hlength =>
    rw [← (List.cons_eq_cons.mp hbodies).1] at hlength
    exact absurd hlength (by decide +kernel)
  | body :: body' :: before, hbodies, _ => exact absurd (congrArg List.length hbodies) (by simp [bodies])

end EditorBridge.Frame
