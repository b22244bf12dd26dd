import EditorBridge.Proofs.Json.Tokens

/-!
# JSON text, written and read

The text of a value is read back as that value, with the members of its objects in order (`normal`): if all
its numbers are integers that fit 64 bits, and it does not nest too deep (`Fits`).

* `source` -- what the reader finds before it evaluates anything; **`value?_chars`** -- and that it does;
* `eval?_source` -- the value of what it finds;
* **`parse?_printBytes`** -- the two together; `get?_normal` -- each member of an object is found again;
  `normal_obj` -- and those that are written in order stay in order.
-/

namespace EditorBridge.Json

open EditorBridge.Text

/-! ## 1. Values as the reader sees them -/

mutual

/-- What the reader finds for a value that has been written. -/
def source : Json → Source
  | .null => .null
  | .bool b => .bool b
  | .int n => .number (literal n)
  | .float _ => .null
  | .str s => .string (pieces s.toList)
  | .arr xs => .array (sources xs)
  | .obj ms => .object (memberSources ms)

def sources : List Json → List Source
  | [] => []
  | x :: xs => source x :: sources xs

def memberSources : List (String × Json) → List (List Piece × Source)
  | [] => []
  | (k, v) :: ms => (pieces k.toList, source v) :: memberSources ms

end

mutual

/-- All numbers are integers of 64 bits, and arrays and objects nest at most `depth` deep. -/
def Fits (depth : Nat) : Json → Prop
  | .int n => -9223372036854775808 ≤ n ∧ n ≤ 18446744073709551615
  | .float _ => False
  | .arr xs => 0 < depth ∧ ElementsFit (depth - 1) xs
  | .obj ms => 0 < depth ∧ MembersFit (depth - 1) ms
  | _ => True

def ElementsFit (depth : Nat) : List Json → Prop
  | [] => True
  | x :: xs => Fits depth x ∧ ElementsFit depth xs

def MembersFit (depth : Nat) : List (String × Json) → Prop
  | [] => True
  | (_, v) :: ms => Fits depth v ∧ MembersFit depth ms

end

/-- All integers of 64 bits with a sign can be read. -/
theorem bounds_toInt (x : Int64) : -9223372036854775808 ≤ x.toInt ∧ x.toInt ≤ 18446744073709551615 := by
  have hlow := x.le_toInt
  have hhigh := x.toInt_lt
  omega

mutual

/-- The same value with the members of all objects in the order of the reader. -/
def normal : Json → Json
  | .arr xs => .arr (normals xs)
  | .obj ms => .ofMembers (normalMembers ms)
  | j => j

def normals : List Json → List Json
  | [] => []
  | x :: xs => normal x :: normals xs

def normalMembers : List (String × Json) → List (String × Json)
  | [] => []
  | (k, v) :: ms => (k, normal v) :: normalMembers ms

end

/-! ## 2. Evaluating -/

mutual

theorem eval?_source : ∀ {depth : Nat} (j : Json), Fits depth j → (source j).eval? depth = some (normal j)
  | _, .null, _ => by rw [source, Source.eval?, normal]; all_goals simp
  | _, .bool b, _ => by rw [source, Source.eval?, normal]; all_goals simp
  | _, .int n, h => by
    rw [Fits] at h
    rw [source, Source.eval?, value?_literal h.1 h.2, normal]
    all_goals simp
  | _, .float _, h => by rw [Fits] at h; exact h.elim
  | _, .str s, _ => by
    rw [source, Source.eval?, stringText?_pieces, normal]
    · rfl
    all_goals simp
  | depth, .arr xs, h => by
    rw [Fits] at h
    rw [source, Source.eval?, if_neg (by omega), evalElements_sources xs h.2, normal]
    rfl
  | depth, .obj ms, h => by
    rw [Fits] at h
    rw [source, Source.eval?, if_neg (by omega), evalMembers_memberSources ms h.2, normal]
    rfl

theorem evalElements_sources : ∀ {depth : Nat} (xs : List Json), ElementsFit depth xs →
    Source.evalElements depth (sources xs) = some (normals xs)
  | _, [], _ => by rw [sources, Source.evalElements, normals]
  | _, x :: xs, h => by
    rw [ElementsFit] at h
    rw [sources, Source.evalElements, eval?_source x h.1, evalElements_sources xs h.2, normals]
    rfl

theorem evalMembers_memberSources : ∀ {depth : Nat} (ms : List (String × Json)), MembersFit depth ms →
    Source.evalMembers depth (memberSources ms) = some (normalMembers ms)
  | _, [], _ => by rw [memberSources, Source.evalMembers, normalMembers]
  | _, (k, v) :: ms, h => by
    rw [MembersFit] at h
    rw [memberSources, Source.evalMembers, stringText?_pieces, eval?_source v h.1,
      evalMembers_memberSources ms h.2, normalMembers]
    rfl

end

/-! ## 3. Finding -/

theorem skipSpace_cons {b : UInt8} (hb : isSpace b = false) (r : List UInt8) : skipSpace (b :: r) = b :: r := by
  rw [skipSpace, List.dropWhile_cons_of_neg (by simp [hb])]

theorem ne_of_isDigit {b x : UInt8} (hb : isDigit b = true) (hx : isDigit x = false) : b ≠ x := by
  rintro rfl
  rw [hb] at hx
  cases hx

theorem isSpace_of_isDigit {b : UInt8} (hb : isDigit b = true) : isSpace b = false := by
  have hne : ∀ x, isDigit x = false → decide (b = x) = false :=
    fun x hx => decide_eq_false (ne_of_isDigit hb hx)
  rw [isSpace, hne 0x20 (by decide), hne 0x09 (by decide), hne 0x0A (by decide), hne 0x0D (by decide)]
  rfl

/-- How a natural number begins. -/
theorem exists_digits (n : Nat) :
    ∃ b bs, Utf8.encodeChars (Numeral.digits n) = b :: bs ∧ isDigit b = true := by
  obtain ⟨c, cs, hcs⟩ := List.exists_cons_of_ne_nil (Numeral.digits_ne_nil n)
  have hc := toNat_of_isDigit (Numeral.isDigit_of_mem_digits (hcs ▸ List.mem_cons_self))
  exact ⟨_, _, by rw [hcs, encodeChars_ascii (by omega)], isDigit_byte hc⟩

/-- How the text of a value begins: with no space, and not like the end of an array. -/
theorem exists_first {depth : Nat} {j : Json} (h : Fits depth j) :
    ∃ b bs, Utf8.encodeChars (chars j) = b :: bs ∧ isSpace b = false ∧ b ≠ 0x5D := by
  have hcons : ∀ {c : Char} {cs : List Char}, c.toNat < 0x80 → isSpace (UInt8.ofNat c.toNat) = false →
      UInt8.ofNat c.toNat ≠ 0x5D →
      ∃ b bs, Utf8.encodeChars (c :: cs) = b :: bs ∧ isSpace b = false ∧ b ≠ 0x5D :=
    fun hascii hspace hend => ⟨_, _, encodeChars_ascii hascii _, hspace, hend⟩
  cases j with
  | null => rw [chars]; exact hcons (by decide) (by decide) (by decide)
  | bool b => cases b <;> rw [chars] <;> exact hcons (by decide) (by decide) (by decide)
  | int n =>
    rw [chars]
    cases n with
    | ofNat n =>
      obtain ⟨b, bs, hbytes, hb⟩ := exists_digits n
      rw [Numeral.ofInt, Numeral.ofNat, String.toList_ofList]
      exact ⟨b, bs, hbytes, isSpace_of_isDigit hb, ne_of_isDigit hb (by decide)⟩
    | negSucc n =>
      rw [Numeral.ofInt, String.toList_ofList]
      exact hcons (by decide) (by decide) (by decide)
  | float d => rw [Fits] at h; exact h.elim
  | str s => rw [chars, stringChars]; exact hcons (by decide) (by decide) (by decide)
  | arr xs => cases xs <;> rw [chars] <;> exact hcons (by decide) (by decide) (by decide)
  | obj ms =>
    rcases ms with _ | ⟨⟨k, v⟩, ms⟩ <;> rw [chars] <;> exact hcons (by decide) (by decide) (by decide)

theorem length_chars_pos {depth : Nat} {j : Json} (h : Fits depth j) : 0 < (chars j).length := by
  obtain ⟨b, bs, hbytes, -⟩ := exists_first h
  cases hc : chars j with
  | nil => rw [hc] at hbytes; cases hbytes
  | cons c cs => exact Nat.succ_pos _

section Starts

variable (fuel : Nat) {b : UInt8} (r : List UInt8)

theorem value?_quote :
    value? (fuel + 1) (0x22 :: r) = (stringRest? r).map fun (ps, r) => (.string ps, r) := by
  rw [value?, skipSpace_cons (by decide)]
  rfl

theorem value?_minus : value? (fuel + 1) (0x2D :: r) = (literal? true r).map fun (l, r) => (.number l, r) := by
  rw [value?, skipSpace_cons (by decide)]
  rfl

theorem value?_digit (hb : isDigit b = true) :
    value? (fuel + 1) (b :: r) = (literal? false (b :: r)).map fun (l, r) => (.number l, r) := by
  rw [value?, skipSpace_cons (isSpace_of_isDigit hb)]
  simp only [if_neg (ne_of_isDigit hb (show isDigit 0x6E = false by decide)),
    if_neg (ne_of_isDigit hb (show isDigit 0x74 = false by decide)),
    if_neg (ne_of_isDigit hb (show isDigit 0x66 = false by decide)),
    if_neg (ne_of_isDigit hb (show isDigit 0x2D = false by decide)), hb, if_true]

theorem value?_bracket (hspace : isSpace b = false) (hend : b ≠ 0x5D) :
    value? (fuel + 1) (0x5B :: b :: r) = (elements? fuel (b :: r)).map fun (xs, r) => (.array xs, r) := by
  rw [value?, skipSpace_cons (by decide)]
  have hrest : skipSpace (b :: r) = b :: r := skipSpace_cons hspace r
  have hdigit : ¬ isDigit 0x5B = true := by decide
  simp only [if_neg (show ¬ (0x5B : UInt8) = 0x6E by decide), if_neg (show ¬ (0x5B : UInt8) = 0x74 by decide),
    if_neg (show ¬ (0x5B : UInt8) = 0x66 by decide), if_neg (show ¬ (0x5B : UInt8) = 0x2D by decide),
    if_neg hdigit, if_neg (show ¬ (0x5B : UInt8) = 0x22 by decide), if_true, hrest]
  split
  · rename_i heq
    exact absurd (List.cons.inj heq).1 hend
  · rfl

theorem value?_brace :
    value? (fuel + 1) (0x7B :: 0x22 :: r) = (members? fuel (0x22 :: r)).map fun (ms, r) => (.object ms, r) := by
  rw [value?, skipSpace_cons (by decide)]
  rfl

end Starts

section Rows

variable {fuel : Nat} {bs r : List UInt8} {x : Source}

theorem elements?_cons (h : value? fuel bs = some (x, 0x2C :: r)) :
    elements? (fuel + 1) bs = (elements? fuel r).map fun (xs, r) => (x :: xs, r) := by
  rw [elements?, h, Option.bind_some]
  rfl

theorem elements?_last (h : value? fuel bs = some (x, 0x5D :: r)) :
    elements? (fuel + 1) bs = some ([x], r) := by
  rw [elements?, h, Option.bind_some]
  rfl

theorem members?_cons {k : String} (h : value? fuel bs = some (x, 0x2C :: r)) :
    members? (fuel + 1) (Utf8.encodeChars (stringChars k) ++ 0x3A :: bs) =
      (members? fuel r).map fun (ms, r) => ((pieces k.toList, x) :: ms, r) := by
  rw [stringChars, encodeChars_ascii (by decide), List.cons_append, members?, skipSpace_cons (by decide)]
  show ((stringRest? _).bind _) = _
  rw [stringRest?_stringChars, Option.bind_some]
  show ((value? fuel bs).bind _) = _
  rw [h, Option.bind_some]
  rfl

theorem members?_last {k : String} (h : value? fuel bs = some (x, 0x7D :: r)) :
    members? (fuel + 1) (Utf8.encodeChars (stringChars k) ++ 0x3A :: bs) = some ([(pieces k.toList, x)], r) := by
  rw [stringChars, encodeChars_ascii (by decide), List.cons_append, members?, skipSpace_cons (by decide)]
  show ((stringRest? _).bind _) = _
  rw [stringRest?_stringChars, Option.bind_some]
  show ((value? fuel bs).bind _) = _
  rw [h, Option.bind_some]
  rfl

end Rows

theorem length_elementChars_cons (x : Json) (xs : List Json) :
    (elementChars (x :: xs)).length = (chars x).length + (elementChars xs).length + 1 := by
  rw [elementChars, List.length_cons, List.length_append]

theorem length_memberChars_cons (k : String) (v : Json) (ms : List (String × Json)) :
    (memberChars ((k, v) :: ms)).length =
      (stringChars k).length + ((chars v).length + (memberChars ms).length + 1) + 1 := by
  rw [memberChars, List.length_cons, List.length_append, List.length_cons, List.length_append]

theorem encodeChars_elementChars (x : Json) (xs : List Json) :
    Utf8.encodeChars (elementChars (x :: xs)) = 0x2C :: Utf8.encodeChars (elementChars (x :: xs)).tail := by
  rw [elementChars, encodeChars_ascii (by decide)]
  rfl

theorem encodeChars_memberChars (m : String × Json) (ms : List (String × Json)) :
    Utf8.encodeChars (memberChars (m :: ms)) = 0x2C :: Utf8.encodeChars (memberChars (m :: ms)).tail := by
  rw [memberChars, encodeChars_ascii (by decide)]
  rfl

/-- The first element stands before the others. -/
theorem encodeChars_tail_elementChars (x : Json) (xs : List Json) (r : List UInt8) :
    Utf8.encodeChars (elementChars (x :: xs)).tail ++ r =
      Utf8.encodeChars (chars x) ++ (Utf8.encodeChars (elementChars xs) ++ r) := by
  rw [elementChars, List.tail_cons, Utf8.encodeChars_append, List.append_assoc]

/-- The first member stands before the others. -/
theorem encodeChars_tail_memberChars (k : String) (v : Json) (ms : List (String × Json)) (r : List UInt8) :
    Utf8.encodeChars (memberChars ((k, v) :: ms)).tail ++ r =
      Utf8.encodeChars (stringChars k) ++
        0x3A :: (Utf8.encodeChars (chars v) ++ (Utf8.encodeChars (memberChars ms) ++ r)) := by
  rw [memberChars, List.tail_cons, Utf8.encodeChars_append, List.append_assoc, encodeChars_ascii (by decide),
    Utf8.encodeChars_append, List.cons_append, List.append_assoc]
  rfl

mutual

/-- **The text of a value is found again**, up to what cannot belong to it. -/
theorem value?_chars : ∀ {depth : Nat} (fuel : Nat) (j : Json) {r : List UInt8}, Fits depth j →
    (chars j).length ≤ fuel → endsNumber r = true →
    value? fuel (Utf8.encodeChars (chars j) ++ r) = some (source j, r)
  | _, 0, _, _, h, hfuel, _ => absurd (length_chars_pos h) (by omega)
  | _, _ + 1, .null, _, _, _, _ => by rw [chars, source]; rfl
  | _, _ + 1, .bool true, _, _, _, _ => by rw [chars, source]; rfl
  | _, _ + 1, .bool false, _, _, _, _ => by rw [chars, source]; rfl
  | _, fuel + 1, .int (.ofNat n), r, _, _, hr => by
    obtain ⟨b, bs, hbytes, hb⟩ := exists_digits n
    have hread := literal?_digits false n hr
    rw [chars, Numeral.ofInt, Numeral.ofNat, String.toList_ofList, source, literal]
    rw [hbytes, List.cons_append] at hread ⊢
    rw [value?_digit fuel _ hb, hread]
    rfl
  | _, fuel + 1, .int (.negSucc n), r, _, _, hr => by
    rw [chars, Numeral.ofInt, String.toList_ofList, encodeChars_ascii (by decide), source, literal]
    have hread := value?_minus fuel (Utf8.encodeChars (Numeral.digits (n + 1)) ++ r)
    rw [literal?_digits true (n + 1) hr] at hread
    exact hread
  | _, _ + 1, .float _, _, h, _, _ => by rw [Fits] at h; exact h.elim
  | _, fuel + 1, .str s, r, _, _, _ => by
    have hread := value?_quote fuel (Utf8.encodeChars (s.toList.flatMap escapeChar ++ ['"']) ++ r)
    rw [stringRest?_stringChars] at hread
    rw [chars, stringChars, encodeChars_ascii (by decide), source]
    exact hread
  | _, _ + 1, .arr [], _, _, _, _ => by rw [chars, source, sources]; rfl
  | _, fuel + 1, .arr (x :: xs), r, h, hfuel, _ => by
    rw [Fits] at h
    rw [chars, List.length_cons] at hfuel
    have hrest := elements?_chars fuel (r := r) (x :: xs) h.2 (List.cons_ne_nil x xs) (by
      rw [elementChars, List.length_cons]; exact hfuel)
    obtain ⟨b, bs, hbytes, hspace, hend⟩ := exists_first (by rw [ElementsFit] at h; exact h.2.1)
    rw [elementChars, List.tail_cons] at hrest
    rw [chars, encodeChars_ascii (by decide), source]
    rw [Utf8.encodeChars_append, hbytes, List.cons_append, List.cons_append] at hrest ⊢
    have hread := value?_bracket fuel (bs ++ Utf8.encodeChars (elementChars xs) ++ r) hspace hend
    rw [hrest] at hread
    exact hread
  | _, _ + 1, .obj [], _, _, _, _ => by rw [chars, source, memberSources]; rfl
  | _, fuel + 1, .obj ((k, v) :: ms), r, h, hfuel, _ => by
    rw [Fits] at h
    rw [chars, List.length_cons] at hfuel
    have hrest := members?_chars fuel (r := r) ((k, v) :: ms) h.2 (List.cons_ne_nil _ ms) (by
      rw [memberChars, List.length_cons]; exact hfuel)
    rw [memberChars, List.tail_cons, stringChars, List.cons_append, encodeChars_ascii (by decide),
      List.cons_append] at hrest
    rw [chars, stringChars, encodeChars_ascii (by decide), List.cons_append, List.cons_append,
      encodeChars_ascii (by decide), source]
    exact (value?_brace fuel _).trans (congrArg _ hrest)

theorem elements?_chars : ∀ {depth : Nat} (fuel : Nat) (xs : List Json) {r : List UInt8}, ElementsFit depth xs →
    xs ≠ [] → (elementChars xs).length ≤ fuel + 1 →
    elements? fuel (Utf8.encodeChars (elementChars xs).tail ++ r) = some (sources xs, r)
  | _, _, [], _, _, hne, _ => absurd rfl hne
  | _, 0, x :: xs, _, h, _, hfuel => by
    rw [ElementsFit] at h
    rw [length_elementChars_cons] at hfuel
    have hpos := length_chars_pos h.1
    have hend : 0 < (elementChars xs).length := by cases xs <;> rw [elementChars] <;> exact Nat.succ_pos _
    omega
  | _, fuel + 1, [x], r, h, _, hfuel => by
    rw [ElementsFit] at h
    rw [length_elementChars_cons, elementChars, List.length_singleton] at hfuel
    have hx := value?_chars fuel (r := 0x5D :: r) x h.1 (by omega) rfl
    rw [encodeChars_tail_elementChars, elementChars, sources, sources]
    exact elements?_last hx
  | _, fuel + 1, x :: y :: ys, r, h, _, hfuel => by
    rw [ElementsFit] at h
    rw [length_elementChars_cons] at hfuel
    have hpos := length_chars_pos h.1
    have hlater := length_elementChars_cons y ys
    have hrest := elements?_chars fuel (r := r) (y :: ys) h.2 (List.cons_ne_nil y ys) (by omega)
    have hx := value?_chars fuel
      (r := 0x2C :: (Utf8.encodeChars (elementChars (y :: ys)).tail ++ r)) x h.1 (by omega) rfl
    rw [encodeChars_tail_elementChars, encodeChars_elementChars, List.cons_append, elements?_cons hx, hrest,
      sources]
    rfl

theorem members?_chars : ∀ {depth : Nat} (fuel : Nat) (ms : List (String × Json)) {r : List UInt8},
    MembersFit depth ms → ms ≠ [] → (memberChars ms).length ≤ fuel + 1 →
    members? fuel (Utf8.encodeChars (memberChars ms).tail ++ r) = some (memberSources ms, r)
  | _, _, [], _, _, hne, _ => absurd rfl hne
  | _, 0, (k, v) :: ms, _, _, _, hfuel => by
    rw [length_memberChars_cons] at hfuel
    have hkey : 0 < (stringChars k).length := by rw [stringChars]; exact Nat.succ_pos _
    omega
  | _, fuel + 1, [(k, v)], r, h, _, hfuel => by
    rw [MembersFit] at h
    rw [length_memberChars_cons] at hfuel
    have hv := value?_chars fuel (r := 0x7D :: r) v h.1 (by omega) rfl
    rw [encodeChars_tail_memberChars, memberChars, memberSources, memberSources]
    exact members?_last hv
  | _, fuel + 1, (k, v) :: (l, w) :: ms, r, h, _, hfuel => by
    rw [MembersFit] at h
    rw [length_memberChars_cons] at hfuel
    have hrest := members?_chars fuel (r := r) ((l, w) :: ms) h.2 (List.cons_ne_nil _ ms) (by omega)
    have hv := value?_chars fuel
      (r := 0x2C :: (Utf8.encodeChars (memberChars ((l, w) :: ms)).tail ++ r)) v h.1 (by omega) rfl
    rw [encodeChars_tail_memberChars, encodeChars_memberChars, List.cons_append, members?_cons hv, hrest,
      memberSources]
    rfl

end

/-- **The text of a value, read back, is the value** with its members in order. -/
theorem parse?_printBytes {j : Json} (h : Fits maxDepth j) : parse? j.printBytes = some (normal j) := by
  have hlength := Utf8.length_le_encodeChars (chars j)
  have hread := value?_chars (2 * (Utf8.encodeChars (chars j)).length + 1) (r := []) j h (by omega) rfl
  rw [List.append_nil] at hread
  have hsource : Source.parse? j.printBytes = some (source j) := by
    rw [Source.parse?, printBytes, hread]
    rfl
  rw [parse?, hsource, Option.bind_some]
  exact eval?_source j h

/-! ## 4. Members -/

@[simp] theorem normal_null : normal .null = .null := by rw [normal] <;> simp

@[simp] theorem normal_bool (b : Bool) : normal (.bool b) = .bool b := by rw [normal] <;> simp

@[simp] theorem normal_str (s : String) : normal (.str s) = .str s := by rw [normal] <;> simp

@[simp] theorem normal_int (n : Int) : normal (.int n) = .int n := by rw [normal] <;> simp

@[simp] theorem normal_arr (xs : List Json) : normal (.arr xs) = .arr (xs.map normal) := by
  have hmap : ∀ xs : List Json, normals xs = xs.map normal := by
    intro xs
    induction xs with
    | nil => rw [normals]; rfl
    | cons x xs ih => rw [normals, ih, List.map_cons]
  rw [normal, hmap]

@[simp] theorem member?_nil (key : String) : member? key [] = none := rfl

theorem member?_cons (key k : String) (v : Json) (ms : List (String × Json)) :
    member? key ((k, v) :: ms) = if k = key then some v else member? key ms := by
  rw [member?, List.find?_cons]
  by_cases h : k = key
  · rw [if_pos h, show (k == key) = true from beq_iff_eq.mpr h]
    rfl
  · rw [if_neg h, show (k == key) = false from beq_eq_false_iff_ne.mpr h]
    rfl

/-- A member that is put in its place is found there, and no other one is touched. -/
theorem member?_putMember (key k : String) (v : Json) (ms : List (String × Json)) :
    member? key (putMember k v ms) = if k = key then some v else member? key ms := by
  induction ms with
  | nil => rw [putMember, member?_cons]
  | cons m ms ih =>
    obtain ⟨l, w⟩ := m
    rw [putMember]
    split
    · rename_i hl
      subst hl
      rw [member?_cons, member?_cons]
      split <;> rfl
    · rename_i hl
      split
      · rw [member?_cons]
      · rw [member?_cons, ih, member?_cons]
        by_cases h : k = key
        · subst h
          rw [if_pos rfl, if_pos rfl, if_neg (Ne.symm hl)]
        · rw [if_neg h, if_neg h]

theorem member?_eq_none {key : String} {ms : List (String × Json)} (h : key ∉ ms.map Prod.fst) :
    member? key ms = none := by
  rw [member?, List.find?_eq_none.mpr]
  · rfl
  · intro m hm hk
    exact h (List.mem_map.mpr ⟨m, hm, beq_iff_eq.mp hk⟩)

theorem member?_append (key : String) (ms ns : List (String × Json)) :
    member? key (ms ++ ns) = (member? key ms).or (member? key ns) := by
  rw [member?, List.find?_append, Option.map_or]
  rfl

/-- Where no key occurs twice, the value of a key is that of its only member. -/
theorem member?_eq_some_iff {key : String} {v : Json} {ms : List (String × Json)}
    (h : (ms.map Prod.fst).Nodup) : member? key ms = some v ↔ (key, v) ∈ ms := by
  induction ms with
  | nil => simp
  | cons m ms ih =>
    obtain ⟨k, w⟩ := m
    rw [List.map_cons, List.nodup_cons] at h
    rw [member?_cons, List.mem_cons, Prod.mk.injEq]
    by_cases hk : k = key
    · subst hk
      rw [if_pos rfl, Option.some.injEq]
      refine ⟨fun e => Or.inl ⟨rfl, e.symm⟩, fun hm => ?_⟩
      rcases hm with ⟨-, e⟩ | hm
      · exact e.symm
      · exact absurd (List.mem_map.mpr ⟨_, hm, rfl⟩) h.1
    · rw [if_neg hk, ih h.2]
      exact ⟨Or.inr, fun hm => hm.resolve_left fun e => hk e.1.symm⟩

/-- There, the order of the members does not matter. -/
theorem member?_perm {ms ns : List (String × Json)} (hp : ms.Perm ns) (h : (ms.map Prod.fst).Nodup)
    (key : String) : member? key ns = member? key ms := by
  have h' : (ns.map Prod.fst).Nodup := (hp.map Prod.fst).nodup_iff.mp h
  refine Option.ext fun v => ?_
  rw [member?_eq_some_iff h, member?_eq_some_iff h', hp.mem_iff]

/-- Putting members of different keys in their places loses none of them. -/
theorem member?_foldl_putMember (key : String) (ms acc : List (String × Json))
    (h : (ms.map Prod.fst).Nodup) :
    member? key (ms.foldl (fun acc m => putMember m.1 m.2 acc) acc) =
      (member? key ms).or (member? key acc) := by
  induction ms generalizing acc with
  | nil => rfl
  | cons m ms ih =>
    obtain ⟨k, v⟩ := m
    rw [List.map_cons, List.nodup_cons] at h
    rw [List.foldl_cons, ih _ h.2, member?_putMember, member?_cons]
    by_cases hk : k = key
    · subst hk
      rw [if_pos rfl, if_pos rfl, member?_eq_none h.1, Option.none_or, Option.some_or]
    · rw [if_neg hk, if_neg hk]

theorem member?_normalMembers (key : String) (ms : List (String × Json)) :
    member? key (normalMembers ms) = (member? key ms).map normal := by
  induction ms with
  | nil => rw [normalMembers]; rfl
  | cons m ms ih =>
    obtain ⟨k, v⟩ := m
    rw [normalMembers, member?_cons, member?_cons, ih]
    split <;> rfl

theorem normalMembers_eq (ms : List (String × Json)) :
    normalMembers ms = ms.map fun m => (m.1, m.2.normal) := by
  induction ms with
  | nil => rw [normalMembers, List.map_nil]
  | cons m ms ih =>
    obtain ⟨k, v⟩ := m
    rw [normalMembers, List.map_cons, ih]

theorem keys_normalMembers (ms : List (String × Json)) :
    (normalMembers ms).map Prod.fst = ms.map Prod.fst := by
  rw [normalMembers_eq, List.map_map]
  rfl

/-- **Each member is found** in an object that has been written and read. -/
theorem get?_normal (key : String) {ms : List (String × Json)} (h : (ms.map Prod.fst).Nodup) :
    (normal (.obj ms)).get? key = (member? key ms).map normal := by
  have hkeys : ((normalMembers ms).map Prod.fst).Nodup := (keys_normalMembers ms).symm ▸ h
  have hsorted := member?_foldl_putMember key (normalMembers ms) [] hkeys
  rw [normal]
  exact (hsorted.trans (Option.or_none)).trans (member?_normalMembers key ms)

/-- A key that comes after all others goes to the end. -/
theorem putMember_of_lt {key : String} (v : Json) {ms : List (String × Json)} (h : ∀ m ∈ ms, m.1 < key) :
    putMember key v ms = ms ++ [(key, v)] := by
  induction ms with
  | nil => rfl
  | cons m ms ih =>
    obtain ⟨k, w⟩ := m
    have hk : k < key := h _ List.mem_cons_self
    have hne : key ≠ k := fun he => String.lt_irrefl k (he ▸ hk)
    rw [putMember, if_neg hne, if_neg (String.lt_asymm hk), ih fun m hm => h m (List.mem_cons_of_mem _ hm),
      List.cons_append]

/-- Members that stand in the order of their keys, behind such as come before them, stay where they are. -/
theorem foldl_putMember {ms acc : List (String × Json)} (h : ((acc ++ ms).map Prod.fst).Pairwise (· < ·)) :
    ms.foldl (fun acc m => putMember m.1 m.2 acc) acc = acc ++ ms := by
  induction ms generalizing acc with
  | nil => exact (List.append_nil acc).symm
  | cons m ms ih =>
    have hlast : ∀ n ∈ acc, n.1 < m.1 := by
      rw [List.map_append, List.pairwise_append] at h
      exact fun n hn => h.2.2 _ (List.mem_map_of_mem hn) _ List.mem_cons_self
    rw [List.foldl_cons, putMember_of_lt m.2 hlast, ih (by rwa [List.append_assoc]), List.append_assoc]
    rfl

/-- **An object whose members stand in the order of their keys keeps that order.** -/
theorem normal_obj {ms : List (String × Json)} (h : (ms.map Prod.fst).Pairwise (· < ·)) :
    normal (.obj ms) = .obj (ms.map fun m => (m.1, m.2.normal)) := by
  have hkeys : (([] ++ normalMembers ms).map Prod.fst).Pairwise (· < ·) := (keys_normalMembers ms).symm ▸ h
  rw [normal, ofMembers, sortMembers, foldl_putMember hkeys, List.nil_append, normalMembers_eq]

end EditorBridge.Json
