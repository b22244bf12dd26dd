import EditorBridge.Highlight
import EditorBridge.Protocol.Lens

/-!
# Documents and the settings that select them

The bridge deals with documents in one language. `Settings.isSupported` selects the saved ones, for
which commands run; `Settings.isSynchronized` selects the ones that live in files, whose text the
server is told.
-/

namespace EditorBridge

/-- A document as the editor knows it. -/
structure TextDocument where
  uri : Url
  languageId : String
  /-- Whether no file is behind the document. -/
  isUntitled : Bool
  deriving DecidableEq, Repr, Inhabited

/-- The document in front of the user, with the place of the cursor. -/
structure ActiveEditor where
  document : TextDocument
  cursor : Position
  deriving DecidableEq, Repr, Inhabited

/-- The language of the session and the mode of highlighting. -/
structure Settings where
  languageId : String
  mode : HighlightMode
  deriving DecidableEq, Repr, Inhabited

namespace Settings

/-- A saved document in the language of the session. -/
def isSupported (s : Settings) (d : TextDocument) : Bool :=
  !d.isUntitled && d.languageId == s.languageId

/-- A document in a file and in the language of the session. -/
def isSynchronized (s : Settings) (d : TextDocument) : Bool :=
  d.uri.scheme == "file" && d.languageId == s.languageId

end Settings

end EditorBridge
