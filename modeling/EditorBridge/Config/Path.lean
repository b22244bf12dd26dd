import EditorBridge.Text.Numeral

/-!
# Paths to settings

A path names a setting: `server.runtime`, `list[2].name`. Names consist of ASCII letters, digits, `_`,
`-` and spaces. `Path.parse` reads the text of a path; each of its errors names what was expected where
reading stopped.
-/

namespace EditorBridge.Config

open EditorBridge.Text

/-- One step into a setting. -/
inductive Step where
  | field (name : String)
  | element (index : Nat)
  deriving DecidableEq, Repr

/-- The name of a top-level setting, and the steps into it. -/
structure Path where
  head : String
  steps : List Step
  deriving DecidableEq, Repr

/-- Why a text is no path. -/
inductive PathError where
  | nameExpected
  | separatorExpected
  | digitExpected
  /-- The index does not fit a signed word of 64 bits. -/
  | indexTooLarge
  deriving DecidableEq, Repr

/-- The wording of an error. -/
def PathError.message : PathError → String
  | nameExpected => "IsA"
  | separatorExpected => "Char"
  | digitExpected => "Digit"
  | indexTooLarge => "Map on Result"

namespace Path

/-- A character of a name. -/
def isNameChar (c : Char) : Bool := c.isAlphanum || c == ' ' || c == '_' || c == '-'

/-- White space around an index. -/
def isSpace (c : Char) : Bool := c == ' ' || c == '\t'

/-- An index and its closing bracket, after the opening one. -/
def index (cs : List Char) : Except PathError (Nat × List Char) :=
  let r := cs.dropWhile isSpace
  match Numeral.value? (r.takeWhile Char.isDigit) with
  | none => .error .digitExpected
  | some n =>
    if n ≤ 9223372036854775807 then
      match (r.dropWhile Char.isDigit).dropWhile isSpace with
      | ']' :: r => .ok (n, r)
      | _ => .error .separatorExpected
    else .error .indexTooLarge

/-- The steps after the first name. Each takes one unit of fuel. -/
def readSteps : Nat → List Char → Except PathError (List Step)
  | _, [] => .ok []
  | 0, _ => .error .separatorExpected
  | fuel + 1, '.' :: r =>
    let name := r.takeWhile isNameChar
    if name.isEmpty then .error .separatorExpected
    else (readSteps fuel (r.dropWhile isNameChar)).map (.field (String.ofList name) :: ·)
  | fuel + 1, '[' :: r => do
    let (n, r) ← index r
    return .element n :: (← readSteps fuel r)
  | _, _ => .error .separatorExpected

/-- The path that a text spells. -/
def parse (s : String) : Except PathError Path :=
  let cs := s.toList
  let name := cs.takeWhile isNameChar
  if name.isEmpty then .error .nameExpected
  else (readSteps cs.length (cs.dropWhile isNameChar)).map (⟨String.ofList name, ·⟩)

/-- The top-level setting of that name. -/
def plain (name : String) : Path := ⟨name, []⟩

/-- The largest index that a list is ever extended to. -/
def maxIndex : Nat := 72057594037927936

/-- Whether every index can be reached. -/
def isReachable (p : Path) : Bool :=
  p.steps.all fun
    | .field _ => true
    | .element i => i ≤ maxIndex

end Path

end EditorBridge.Config
