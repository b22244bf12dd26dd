import EditorBridge.Proofs.Json.Decode
import EditorBridge.Proofs.Text.Words
import EditorBridge.Terminal.Line

/-!
# The grammar of typed commands

A line is a command if its words have one of the forms of `TypedCommand.Form`; it is blank if it has no words;
any other line is refused. Writing the words of a command gives back the command.

* `readIndex_eq_ok_iff`, `readPosition_eq_ok_iff` -- the numbers in a command;
* **`ofWords_eq_some_iff`** -- the words of a command are exactly those of its forms;
* `ofWords_quoting` -- the line itself matters only where an error quotes it;
* `form_words`, `isWord_words` -- the words that are written for a command have a form of it.

**`parse_grammar`** -- all of this for lines; `parse_quotes_line` -- and that the line does matter there.
-/

namespace EditorBridge.TypedCommand

open Text (AllBlank IsWord Separated written)
open Text.Numeral (Spells SpellsInt)

/-! ## 1. Forms -/

/-- The words that spell a command. -/
inductive Form : TypedCommand → List String → Prop
  | all : Form .all ["all"]
  /-- The index has 64 bits and may have a sign. -/
  | run {index : String} {i : Int64} (h : SpellsInt index.toList i.toInt) : Form (.run i) ["run", index]
  | list : Form .list ["list"]
  | lenses : Form .lenses ["lenses"]
  | links : Form .links ["links"]
  /-- The line and the character have 32 bits. -/
  | cursor {line character : String} {p : Position} (hline : Spells line.toList p.line.toNat)
      (hcharacter : Spells character.toList p.character.toNat) : Form (.cursor p) ["cursor", line, character]
  | under : Form .under ["under"]
  | stop : Form .stop ["stop"]
  | openModel (link : String) : Form (.openModel link) ["open", link]
  | latest : Form .latest ["latest"]
  | editor : Form .editor ["editor"]
  | codeLensMode : Form (.mode .codeLens) ["mode", "codelens"]
  | linkMode : Form (.mode .link) ["mode", "link"]
  | hiddenMode {name : String} (hlens : name ≠ "codelens") (hlink : name ≠ "link") :
      Form (.mode (.hidden name)) ["mode", name]
  | help : Form .help ["help"]
  | quit : Form .quit ["quit"]
  | exit : Form .quit ["exit"]

/-- The line consists of these words. -/
def Consists (line : String) (ws : List String) : Prop := Separated (ws.map String.toList) line.toList

/-- The words of the command can be written: its link or the name of its mode is a word, and the name stands for
    no other mode. -/
def Writable : TypedCommand → Prop
  | .openModel link => IsWord link.toList
  | .mode (.hidden name) => IsWord name.toList ∧ name ≠ "codelens" ∧ name ≠ "link"
  | _ => True

/-- The same error about another line. -/
def Error.quoting (line : String) : Error → Error
  | .unrecognized _ => .unrecognized line
  | e => e

/-! ## 2. Numbers -/

/-- An index is read from exactly its numerals. -/
theorem readIndex_eq_ok_iff {w : String} {i : Int64} : readIndex w = .ok i ↔ SpellsInt w.toList i.toInt := by
  rw [readIndex]
  constructor
  · intro h
    split at h
    · rename_i n hn
      obtain ⟨hspells, hrange⟩ := (Text.Numeral.readSigned_eq_some_iff _ _ _ _).mp hn
      obtain ⟨x, rfl⟩ := Decode.exists_toInt_iff.mpr hrange
      rw [Int64.ofInt_toInt] at h
      cases h
      exact hspells
    · cases h
  · intro h
    have hn := (Text.Numeral.readSigned_eq_some_iff Text.Numeral.minI64 Text.Numeral.maxI64 _ _).mpr
      ⟨h, Decode.exists_toInt_iff.mp ⟨i, rfl⟩⟩
    rw [hn]
    exact congrArg Except.ok (Int64.ofInt_toInt i)

/-- An unsigned number of 32 bits is read from exactly its numerals. -/
theorem exists_readUnsigned_iff {cs : List Char} {x : UInt32} :
    (∃ n, Text.Numeral.readUnsigned Text.Numeral.maxU32 cs = some n ∧ UInt32.ofNat n = x) ↔
      Spells cs x.toNat := by
  simp only [Text.Numeral.readUnsigned_eq_some_iff]
  constructor
  · rintro ⟨n, ⟨hspells, hle⟩, rfl⟩
    have hlt : n < UInt32.size := Nat.lt_succ_of_le hle
    rwa [UInt32.toNat_ofNat_of_lt' hlt]
  · intro h
    exact ⟨x.toNat, ⟨h, Nat.le_of_lt_succ x.toNat_lt⟩, UInt32.ofNat_toNat⟩

theorem readPosition_eq_ok_iff {line character : String} {p : Position} :
    readPosition line character = .ok p ↔
      Spells line.toList p.line.toNat ∧ Spells character.toList p.character.toNat := by
  rw [readPosition, ← exists_readUnsigned_iff, ← exists_readUnsigned_iff]
  cases Text.Numeral.readUnsigned Text.Numeral.maxU32 line.toList with
  | none => simp
  | some l =>
    cases Text.Numeral.readUnsigned Text.Numeral.maxU32 character.toList with
    | none => simp
    | some c =>
      obtain ⟨pl, pc⟩ := p
      simp

/-! ## 3. Words -/

/-- **The words of a command are exactly those of its forms.** -/
theorem ofWords_eq_some_iff {line : String} {ws : List String} {c : TypedCommand} :
    ofWords line ws = .ok (some c) ↔ Form c ws := by
  constructor
  · intro h
    unfold ofWords at h
    split at h
    case h_3 =>
      obtain ⟨i, hi, hc⟩ := map_eq_ok_iff.mp h
      cases hc
      exact .run (readIndex_eq_ok_iff.mp hi)
    case h_7 =>
      obtain ⟨p, hp, hc⟩ := map_eq_ok_iff.mp h
      cases hc
      obtain ⟨hline, hcharacter⟩ := readPosition_eq_ok_iff.mp hp
      exact .cursor hline hcharacter
    case h_13 name =>
      cases h
      unfold HighlightMode.ofName
      split
      · rename_i hname
        exact hname ▸ .codeLensMode
      · rename_i hlens
        split
        · rename_i hname
          exact hname ▸ .linkMode
        · rename_i hlink
          exact .hiddenMode hlens hlink
    all_goals cases h <;> constructor
  · intro h
    cases h with
    | run h => exact map_eq_ok_iff.mpr ⟨_, readIndex_eq_ok_iff.mpr h, rfl⟩
    | cursor hline hcharacter =>
      exact map_eq_ok_iff.mpr ⟨_, readPosition_eq_ok_iff.mpr ⟨hline, hcharacter⟩, rfl⟩
    | hiddenMode hlens hlink =>
      have hname : HighlightMode.ofName _ = .hidden _ := (if_neg hlens).trans (if_neg hlink)
      exact congrArg (fun m => Except.ok (some (mode m))) hname
    | _ => rfl

/-- Only no words at all are no command and no error. -/
theorem ofWords_eq_none_iff {line : String} {ws : List String} : ofWords line ws = .ok none ↔ ws = [] := by
  constructor
  · intro h
    unfold ofWords at h
    split at h
    case h_1 => rfl
    case h_3 =>
      obtain ⟨i, -, hc⟩ := map_eq_ok_iff.mp h
      cases hc
    case h_7 =>
      obtain ⟨p, -, hc⟩ := map_eq_ok_iff.mp h
      cases hc
    all_goals cases h
  · rintro rfl
    rfl

/-- **The line itself matters only where an error quotes it.** -/
theorem ofWords_quoting (line line' : String) (ws : List String) :
    ofWords line' ws = (ofWords line ws).mapError (Error.quoting line') := by
  unfold ofWords
  split
  case h_3 index =>
    rw [readIndex]
    split <;> rfl
  case h_7 l c =>
    rw [readPosition]
    split
    · rfl
    · split <;> rfl
  all_goals rfl

/-! ## 4. Writing -/

/-- **The words that are written for a command have a form of it.** -/
theorem form_words {c : TypedCommand} (hc : c.Writable) : Form c c.words := by
  cases c with
  | run i => exact .run (Text.Numeral.spellsInt_ofInt i.toInt)
  | cursor p =>
    refine .cursor ?_ ?_
    · rw [Text.Numeral.ofNat, String.toList_ofList]
      exact Text.Numeral.spells_digits p.line.toNat
    · rw [Text.Numeral.ofNat, String.toList_ofList]
      exact Text.Numeral.spells_digits p.character.toNat
  | mode m =>
    cases m with
    | hidden name => exact .hiddenMode hc.2.1 hc.2.2
    | _ => constructor
  | _ => constructor

/-- **And they are words**, so that they can be told apart again. -/
theorem isWord_words {c : TypedCommand} (hc : c.Writable) : ∀ w ∈ c.words.map String.toList, IsWord w := by
  have hnumber : ∀ n : Nat, IsWord (Text.Numeral.ofNat n).toList := fun n =>
    Text.isWord_of_spellsInt (Text.Numeral.spellsInt_ofInt n)
  have hpair : ∀ {k w : List Char}, IsWord k → IsWord w → ∀ v ∈ [k, w], IsWord v := fun hk hw =>
    List.forall_mem_cons.mpr ⟨hk, List.forall_mem_singleton.mpr hw⟩
  cases c with
  | run i => exact hpair (by decide) (Text.isWord_of_spellsInt (Text.Numeral.spellsInt_ofInt i.toInt))
  | cursor p => exact List.forall_mem_cons.mpr ⟨by decide, hpair (hnumber _) (hnumber _)⟩
  | openModel link => exact hpair (by decide) hc
  | mode m =>
    cases m with
    | hidden name => exact hpair (by decide) hc.1
    | codeLens | link => exact hpair (by decide) (by decide)
  | _ => exact List.forall_mem_singleton.mpr (by decide)

/-! ## 5. Lines -/

/-- A line consists of the words that are found in it. -/
theorem consists_iff {line : String} {ws : List String} :
    Consists line ws ↔ (Text.words line.toList).map String.ofList = ws := by
  rw [Consists, ← Text.words_eq_iff]
  constructor
  · intro h
    rw [h, List.map_map]
    simp
  · rintro rfl
    rw [List.map_map]
    simp

theorem parse_of_consists {line : String} {ws : List String} (h : Consists line ws) :
    parse line = ofWords (Text.trimText line) ws := by
  rw [parse, consists_iff.mp h]

/-- Every line consists of some words. -/
theorem exists_consists (line : String) : ∃ ws, Consists line ws := ⟨_, consists_iff.mpr rfl⟩

theorem consists_unique {line : String} {ws vs : List String} (hws : Consists line ws)
    (hvs : Consists line vs) : ws = vs := (consists_iff.mp hws).symm.trans (consists_iff.mp hvs)

/-- **What is a command, what is blank and what is refused.** -/
theorem parse_outcome (line : String) :
    (parse line = .ok none ↔ Consists line []) ∧
      (∀ c, parse line = .ok (some c) ↔ ∃ ws, Consists line ws ∧ Form c ws) ∧
      ((∃ e, parse line = .error e) ↔ ¬ Consists line [] ∧ ∀ c ws, Consists line ws → ¬ Form c ws) := by
  obtain ⟨ws, hws⟩ := exists_consists line
  have hblank : parse line = .ok none ↔ Consists line [] := by
    rw [parse_of_consists hws, ofWords_eq_none_iff]
    exact ⟨fun h => h ▸ hws, fun h => consists_unique hws h⟩
  have hcommand : ∀ c, parse line = .ok (some c) ↔ ∃ ws, Consists line ws ∧ Form c ws := by
    intro c
    rw [parse_of_consists hws, ofWords_eq_some_iff]
    exact ⟨fun h => ⟨ws, hws, h⟩, fun ⟨vs, hvs, h⟩ => consists_unique hvs hws ▸ h⟩
  refine ⟨hblank, hcommand, ?_⟩
  constructor
  · rintro ⟨e, he⟩
    refine ⟨fun h => ?_, fun c vs hvs h => ?_⟩
    · cases he.symm.trans (hblank.mpr h)
    · cases he.symm.trans ((hcommand c).mpr ⟨vs, hvs, h⟩)
  · rintro ⟨hnone, hsome⟩
    cases hp : parse line with
    | error e => exact ⟨e, rfl⟩
    | ok o =>
      cases o with
      | none => exact absurd (hblank.mp hp) hnone
      | some c =>
        obtain ⟨vs, hvs, hform⟩ := (hcommand c).mp hp
        exact absurd hform (hsome c vs hvs)

/-- **A command that is written out is read back**, whatever white space stands between its words. -/
theorem parse_written {c : TypedCommand} (hc : c.Writable) {gaps : List (List Char)} {after : List Char}
    (hlen : gaps.length = c.words.length) (hgaps : ∀ gap ∈ gaps, AllBlank gap)
    (hbetween : ∀ gap ∈ gaps.tail, gap ≠ []) (hafter : AllBlank after) :
    parse (String.ofList (written after (gaps.zip (c.words.map String.toList)))) = .ok (some c) := by
  have hconsists : Consists (String.ofList (written after (gaps.zip (c.words.map String.toList)))) c.words := by
    rw [Consists, String.toList_ofList]
    exact Text.separated_written (hlen.trans (List.length_map _).symm) (isWord_words hc) hgaps hbetween hafter
  exact ((parse_outcome _).2.1 c).mpr ⟨c.words, hconsists, form_words hc⟩

/-- **The reader of typed lines accepts exactly its grammar, and reads back what is written.** Two lines with the
    same words are the same command, both blank or both refused, and then with the same error, except that an
    error about an unrecognized line quotes that line, without the white space at its ends. -/
theorem parse_grammar :
    (∀ line line' ws, Consists line ws → Consists line' ws →
        parse line' = (parse line).mapError (Error.quoting (Text.trimText line'))) ∧
      (∀ line,
        (parse line = .ok none ↔ Consists line []) ∧
        (∀ c, parse line = .ok (some c) ↔ ∃ ws, Consists line ws ∧ Form c ws) ∧
        ((∃ e, parse line = .error e) ↔ ¬ Consists line [] ∧ ∀ c ws, Consists line ws → ¬ Form c ws)) ∧
      (∀ (c : TypedCommand) (gaps : List (List Char)) (after : List Char), c.Writable →
        gaps.length = c.words.length → (∀ gap ∈ gaps, AllBlank gap) → (∀ gap ∈ gaps.tail, gap ≠ []) →
        AllBlank after →
        parse (String.ofList (written after (gaps.zip (c.words.map String.toList)))) = .ok (some c)) := by
  refine ⟨fun line line' ws h h' => ?_, parse_outcome, fun c gaps after hc => parse_written hc⟩
  rw [parse_of_consists h', parse_of_consists h]
  exact ofWords_quoting _ _ ws

/-- A sign and the largest number between white space of several scripts, a number that is too large, and the least
    number written out. -/
theorem parse_grammar_spaced :
    parse "\u2003cursor +07\u3000 4294967295\t" = .ok (some (.cursor ⟨7, 4294967295⟩)) ∧
      parse "\u2003cursor +07\u3000 4294967295\t" =
        (parse "cursor +07 4294967295").mapError (Error.quoting "cursor +07\u3000 4294967295") ∧
      parse "  run\t-9223372036854775808" = .ok (some (.run Int64.minValue)) := by
  have hline : Consists "\u2003cursor +07\u3000 4294967295\t" ["cursor", "+07", "4294967295"] :=
    consists_iff.mpr (by decide +kernel)
  have hplain : Consists "cursor +07 4294967295" ["cursor", "+07", "4294967295"] :=
    consists_iff.mpr (by decide +kernel)
  have hwords : (run Int64.minValue).words = ["run", "-9223372036854775808"] := by decide +kernel
  refine ⟨((parse_grammar.2.1 _).2.1 _).mpr ⟨_, hline, .cursor ?_ ?_⟩, parse_grammar.1 _ _ _ hplain hline, ?_⟩
  · exact ⟨['0', '7'], Or.inr rfl, by decide, List.all_eq_true.mp rfl, rfl⟩
  · exact ⟨"4294967295".toList, Or.inl rfl, by decide, List.all_eq_true.mp rfl, rfl⟩
  · have hread := parse_grammar.2.2 (.run Int64.minValue) [[' ', ' '], ['\t']] [] trivial rfl
      (by decide +kernel) (by decide) Text.allBlank_nil
    rw [hwords] at hread
    exact hread

/-- The line matters where an error quotes it. -/
theorem parse_quotes_line :
    Text.words "all  now".toList = Text.words "all now".toList ∧ parse "all  now" ≠ parse "all now" := by
  decide

end EditorBridge.TypedCommand
