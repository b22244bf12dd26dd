/-!
# How runnable commands are shown

`HighlightMode` says which of the two channels, code lenses or document links, shows the runnable
commands of a document. Any other name hides both and is kept as it was written.
-/

namespace EditorBridge

/-- Which channel shows runnable commands. -/
inductive HighlightMode where
  | codeLens
  | link
  | hidden (name : String)
  deriving DecidableEq, Repr, Inhabited

namespace HighlightMode

/-- The mode that a setting names. -/
def ofName (name : String) : HighlightMode :=
  if name = "codelens" then codeLens
  else if name = "link" then link
  else hidden name

/-- The name of a mode. -/
def name : HighlightMode → String
  | codeLens => "codelens"
  | link => "link"
  | hidden name => name

/-- Every name is kept. -/
@[simp] theorem name_ofName (s : String) : (ofName s).name = s := by
  unfold ofName
  split
  · rename_i h; rw [h]; rfl
  · split
    · rename_i h; rw [h]; rfl
    · rfl

/-- Whether code lenses are shown. -/
def showsCodeLenses : HighlightMode → Bool
  | codeLens => true
  | _ => false

/-- Whether document links are shown. -/
def showsLinks : HighlightMode → Bool
  | link => true
  | _ => false

end HighlightMode

end EditorBridge
