/-!
# White space, words and trimming

`isBlank` is the `White_Space` property of Unicode. `words` cuts a line into its maximal runs of
non-blank characters; `trim` takes blank characters off both ends.
-/

namespace EditorBridge.Text

/-- The white space of Unicode: the ASCII blanks, NEL, the no-break space and the spaces and
    separators of the general punctuation and ideographic blocks. -/
def isBlank (c : Char) : Bool :=
  let n := c.toNat
  (0x09 ≤ n && n ≤ 0x0D) || n == 0x20 || n == 0x85 || n == 0xA0 || n == 0x1680 ||
    (0x2000 ≤ n && n ≤ 0x200A) || n == 0x2028 || n == 0x2029 || n == 0x202F || n == 0x205F ||
    n == 0x3000

/-! ## Words -/

/-- The words of `cs` when the word `cur` (reversed) has been begun. -/
def wordsFrom (cur : List Char) : List Char → List (List Char)
  | [] => if cur.isEmpty then [] else [cur.reverse]
  | c :: cs =>
    if isBlank c then
      if cur.isEmpty then wordsFrom [] cs else cur.reverse :: wordsFrom [] cs
    else wordsFrom (c :: cur) cs

/-- The maximal runs of non-blank characters. -/
def words (cs : List Char) : List (List Char) := wordsFrom [] cs

/-! ## Trimming -/

/-- Without the leading characters that satisfy `p`. -/
def trimStartWhile (p : Char → Bool) (cs : List Char) : List Char := cs.dropWhile p

/-- Without the trailing characters that satisfy `p`. -/
def trimEndWhile (p : Char → Bool) (cs : List Char) : List Char := (cs.reverse.dropWhile p).reverse

/-- Without blank characters at both ends. -/
def trim (cs : List Char) : List Char := trimEndWhile isBlank (trimStartWhile isBlank cs)

/-- `trim` on a text. -/
def trimText (s : String) : String := String.ofList (trim s.toList)

end EditorBridge.Text
