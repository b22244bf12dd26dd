import EditorBridge.Document
import EditorBridge.Url.Parse

/-!
# Models in files

The document that a file holds: `.als` files are in the language of the session, any other file in the
language that its extension names, and a file without extension is plain text.
-/

namespace EditorBridge.Model

/-- The last part of a path. -/
def fileName (path : List Char) : List Char := (path.reverse.takeWhile (· != '/')).reverse

/-- The extension of a path: what follows the last point in the file name, unless that point begins the
    name. -/
def extension? (path : List Char) : Option (List Char) :=
  let name := fileName path
  let after := (name.reverse.takeWhile (· != '.')).reverse
  if name.length ≤ after.length + 1 then none else some after

/-- The language of a file. -/
def languageOf (configured : String) (path : String) : String :=
  match extension? path.toList with
  | some ['a', 'l', 's'] => configured
  | some e => String.ofList e
  | none => "plaintext"

/-- The document at an absolute path; nothing if the path is not absolute. -/
def document? (configured : String) (path : String) : Option TextDocument :=
  (Url.ofFilePath (Text.Utf8.encode path)).map fun uri => ⟨uri, languageOf configured path, false⟩

end EditorBridge.Model
