import EditorBridge.Model
import EditorBridge.Proofs.Json.Tokens
import Mathlib.Data.List.TakeWhile

/-!
# The document of a file

A path ends in the name of its file, and this name may end in an extension (`HasExtension`). The extension
decides on the language (`Speaks`), and the URL of the file is its path with percent signs where a URL needs
them (`IsUrlOf`).

* `extension?_eq_some_iff` -- the extension, by the place of the last slash and the last point;
* **`speaks_iff`** -- the language of a file;
* `Percent.decode_encoded` -- what is encoded is decoded to what it was;
* **`isUrlOf_of_ofFilePath`** -- so the URL of a file leads back to its path.
-/

namespace EditorBridge

/-! ## 1. The end of a text -/

namespace Model

variable {c : Char} {cs last before : List Char}

/-- A text ends in `last` behind the last `c`: `last` is all there is, or what follows a `c`. -/
def EndsBehind (c : Char) (before last : List Char) : Prop :=
  c ∉ last ∧ (before = [] ∨ ∃ front, before = front ++ [c])

/-- What is read from the end up to the first `c` is what stands behind the last `c`. -/
theorem takeWhile_reverse_of_endsBehind (h : EndsBehind c before last) :
    ((before ++ last).reverse.takeWhile (· != c)).reverse = last := by
  obtain ⟨hlast, hbefore⟩ := h
  have hall : ∀ x ∈ last.reverse, (x != c) = true := by
    intro x hx
    rw [bne_iff_ne]
    rintro rfl
    exact hlast (List.mem_reverse.mp hx)
  have hnone : before.reverse.takeWhile (· != c) = [] := by
    rcases hbefore with rfl | ⟨front, rfl⟩
    · rfl
    · rw [List.reverse_append, List.reverse_singleton, List.singleton_append, List.takeWhile_cons_of_neg]
      simp
  rw [List.reverse_append, List.takeWhile_append_of_pos hall, hnone, List.append_nil, List.reverse_reverse]

theorem exists_endsBehind (c : Char) (cs : List Char) :
    ∃ before, cs = before ++ (cs.reverse.takeWhile (· != c)).reverse ∧
      EndsBehind c before (cs.reverse.takeWhile (· != c)).reverse := by
  refine ⟨(cs.reverse.dropWhile (· != c)).reverse, ?_, ?_, ?_⟩
  · rw [← List.reverse_append, List.takeWhile_append_dropWhile, List.reverse_reverse]
  · intro hc
    have hne := List.mem_takeWhile_imp (List.mem_reverse.mp hc)
    rw [bne_self_eq_false] at hne
    cases hne
  · cases hdrop : cs.reverse.dropWhile (· != c) with
    | nil => exact Or.inl rfl
    | cons x rest =>
      have hx : (x != c) = false := by
        have hhead := List.head?_dropWhile_not (· != c) cs.reverse
        rw [hdrop] at hhead
        exact hhead
      rw [bne_eq_false_iff_eq] at hx
      exact Or.inr ⟨rest.reverse, by rw [List.reverse_cons, hx]⟩

/-! ## 2. The language of a file -/

/-- The file at a path has an extension: the name of the file is what stands behind the last slash of the path, it
    is cut at its last point, and there is something before this point. -/
def HasExtension (path extension : List Char) : Prop :=
  ∃ folder stem, path = folder ++ (stem ++ '.' :: extension) ∧
    EndsBehind '/' folder (stem ++ '.' :: extension) ∧ '.' ∉ extension ∧ stem ≠ []

/-- **The extension of a file.** -/
theorem extension?_eq_some_iff {path e : List Char} : extension? path = some e ↔ HasExtension path e := by
  rw [extension?]
  constructor
  · intro h
    obtain ⟨folder, hpath, hfolder⟩ := exists_endsBehind '/' path
    change path = folder ++ fileName path at hpath
    obtain ⟨before, hname, hnone, hbefore⟩ := exists_endsBehind '.' (fileName path)
    split at h
    · cases h
    · rename_i hlong
      have hlength := congrArg List.length hname
      rw [List.length_append] at hlength
      rw [Option.some.inj h] at hname hnone hlong hlength
      rcases hbefore with rfl | ⟨stem, rfl⟩
      · rw [List.length_nil] at hlength
        omega
      · have hsplit : fileName path = stem ++ '.' :: e := by
          rw [hname, List.append_assoc, List.singleton_append]
        refine ⟨folder, stem, hsplit ▸ hpath, hsplit ▸ hfolder, hnone, ?_⟩
        rintro rfl
        rw [List.nil_append, List.length_singleton] at hlength
        omega
  · rintro ⟨folder, stem, rfl, hfolder, hnone, hstem⟩
    have hname : fileName (folder ++ (stem ++ '.' :: e)) = (stem ++ ['.']) ++ e := by
      rw [fileName, takeWhile_reverse_of_endsBehind hfolder, List.append_assoc, List.singleton_append]
    have hsuffix : EndsBehind '.' (stem ++ ['.']) e := ⟨hnone, Or.inr ⟨stem, rfl⟩⟩
    have hpos := List.length_pos_iff.mpr hstem
    rw [hname, takeWhile_reverse_of_endsBehind hsuffix, if_neg]
    simp only [List.length_append, List.length_singleton]
    omega

/-- The language of a file: with the extension `als` it is the one that is configured, with any other the
    extension, and without one it is plain text. -/
inductive Speaks (configured path : String) : String → Prop
  | configured (h : HasExtension path.toList ['a', 'l', 's']) : Speaks configured path configured
  | named {e : List Char} (h : HasExtension path.toList e) (hne : e ≠ ['a', 'l', 's']) :
      Speaks configured path (String.ofList e)
  | plain (h : ∀ e, ¬ HasExtension path.toList e) : Speaks configured path "plaintext"

/-- **The language of a file.** -/
theorem speaks_iff {configured path language : String} :
    Speaks configured path language ↔ languageOf configured path = language := by
  constructor
  · rintro (h | ⟨h, hne⟩ | h)
    · rw [languageOf, extension?_eq_some_iff.mpr h]
      rfl
    · rw [languageOf, extension?_eq_some_iff.mpr h]
      split
      · rename_i he
        exact absurd (Option.some.inj he) hne
      · rename_i he
        rw [Option.some.inj he]
      · rename_i he
        cases he
    · have hnone : extension? path.toList = none :=
        Option.eq_none_iff_forall_ne_some.mpr fun e he => h e (extension?_eq_some_iff.mp he)
      rw [languageOf, hnone]
  · rintro rfl
    rw [languageOf]
    split
    · rename_i h
      exact .configured (extension?_eq_some_iff.mp h)
    · rename_i e hne h
      exact .named (extension?_eq_some_iff.mp h) hne
    · rename_i h
      refine .plain fun e he => ?_
      rw [extension?_eq_some_iff.mpr he] at h
      cases h

end Model

/-! ## 3. The URL of a file -/

namespace Url

open Text

/-- The parts of a path that lead somewhere: those between slashes that are neither empty nor a point. -/
def parts (path : List UInt8) : List (List UInt8) :=
  (path.splitOnP (· == 0x2F)).filter fun p => !p.isEmpty && p != [0x2E]

/-- The path with nothing but these parts. -/
def tidy (path : List UInt8) : List UInt8 :=
  if parts path = [] then [0x2F] else (parts path).flatMap (0x2F :: ·)

/-- A URL is the one of the file at a path: it is a bare path of the scheme `file`, and decoding it gives the
    path of the file. -/
structure IsUrlOf (path : List UInt8) (u : Url) : Prop where
  text : u.text = "file://" ++ u.path
  scheme : u.scheme = "file"
  decoded : Percent.decode (Utf8.encode u.path) = tidy path

namespace Percent

theorem hexValue?_hexDigit {d : Nat} (h : d < 16) : hexValue? (UInt8.ofNat (hexDigit d).toNat) = some d := by
  revert d
  decide

theorem toNat_hexDigit {d : Nat} (h : d < 16) : (hexDigit d).toNat < 0x80 := by
  revert d
  decide

/-- A byte that is written as a percent sign and two digits is decoded to this byte. -/
theorem decode_byteText (b : UInt8) (cs : List Char) :
    decode (Utf8.encodeChars (byteText b ++ cs)) = b :: decode (Utf8.encodeChars cs) := by
  have hb : b.toNat < 256 := b.toNat_lt_size
  have hhigh : b.toNat / 16 < 16 := by omega
  have hlow : b.toNat % 16 < 16 := by omega
  have hwhole : b.toNat / 16 * 16 + b.toNat % 16 = b.toNat := by omega
  rw [byteText, List.cons_append, List.cons_append, List.cons_append, List.nil_append,
    Json.encodeChars_ascii (by decide), Json.encodeChars_ascii (toNat_hexDigit hhigh),
    Json.encodeChars_ascii (toNat_hexDigit hlow)]
  change decode (0x25 :: _ :: _ :: _) = _
  rw [decode, hexValue?_hexDigit hhigh, hexValue?_hexDigit hlow]
  dsimp only
  rw [hwhole, UInt8.ofNat_toNat]

/-- A byte that is no percent sign is decoded to itself. -/
theorem decode_cons_of_ne {b : UInt8} (h : b ≠ 0x25) (bs : List UInt8) : decode (b :: bs) = b :: decode bs := by
  rw [decode.eq_def]
  split
  · rename_i hnil
    cases hnil
  · rename_i heq
    cases heq
    exact absurd rfl h
  · rename_i heq
    cases heq
    rfl

end Percent

theorem decode_slash (cs : List Char) :
    Percent.decode (Utf8.encodeChars ('/' :: cs)) = 0x2F :: Percent.decode (Utf8.encodeChars cs) := by
  rw [Json.encodeChars_ascii (by decide)]
  exact Percent.decode_cons_of_ne (by decide) _

/-- A byte of a name is decoded to this byte. -/
theorem decode_nameByte (b : UInt8) (cs : List Char) :
    Percent.decode (Utf8.encodeChars (nameByte b ++ cs)) = b :: Percent.decode (Utf8.encodeChars cs) := by
  rw [nameByte]
  split
  · exact Percent.decode_byteText b cs
  · rename_i hplain
    rw [Bool.or_eq_true, not_or, decide_eq_true_iff, UInt8.not_le, UInt8.lt_iff_toNat_lt] at hplain
    obtain ⟨hlow, hsegment⟩ := hplain
    have hlow : b.toNat < 128 := hlow
    have htoNat : (Char.ofNat b.toNat).toNat = b.toNat := Utf8.toNat_charOfNat (Or.inl (by omega))
    have hne : b ≠ 0x25 := by
      rintro rfl
      exact hsegment (by decide)
    rw [List.singleton_append, Json.encodeChars_ascii (by omega), htoNat, UInt8.ofNat_toNat]
    exact Percent.decode_cons_of_ne hne _

theorem decode_name (p : List UInt8) (cs : List Char) :
    Percent.decode (Utf8.encodeChars (p.flatMap nameByte ++ cs)) = p ++ Percent.decode (Utf8.encodeChars cs) := by
  induction p with
  | nil => rfl
  | cons b p ih => rw [List.flatMap_cons, List.append_assoc, decode_nameByte, ih, List.cons_append]

theorem decode_names (ps : List (List UInt8)) :
    Percent.decode (Utf8.encodeChars (ps.flatMap fun p => '/' :: p.flatMap nameByte)) =
      ps.flatMap (0x2F :: ·) := by
  induction ps with
  | nil => rfl
  | cons p ps ih =>
    rw [List.flatMap_cons, List.cons_append, decode_slash, decode_name, ih, List.flatMap_cons, List.cons_append]

/-- **The URL of a file leads back to its path.** -/
theorem isUrlOf_of_ofFilePath {path : List UInt8} {u : Url} (h : ofFilePath path = some u) : IsUrlOf path u := by
  rw [ofFilePath.eq_def] at h
  split at h
  · rename_i rest
    cases h
    refine ⟨?_, rfl, ?_⟩
    · simp [text, authorityText, userInfoText]
    · rw [tidy, Utf8.encode, String.toList_ofList]
      change Percent.decode (Utf8.encodeChars
        (if ((parts (0x2F :: rest)).flatMap fun p => '/' :: p.flatMap nameByte).isEmpty then ['/']
          else (parts (0x2F :: rest)).flatMap fun p => '/' :: p.flatMap nameByte)) = _
      cases parts (0x2F :: rest) with
      | nil => rfl
      | cons p ps =>
        rw [if_neg (List.cons_ne_nil p ps)]
        exact decode_names (p :: ps)
  · cases h

end Url

end EditorBridge
