import EditorBridge.Protocol.Lens

/-!
# The lenses of each document

`LensCache` keeps, per document, the lenses that the server reported last. `findAt?` is the first of
them that covers a place and whose command names that very document.
-/

namespace EditorBridge

/-- The lenses reported last, per document. -/
structure LensCache where
  entries : List (Url × List CodeLens)
  deriving Inhabited

namespace LensCache

/-- No document has lenses. -/
def empty : LensCache := ⟨[]⟩

/-- The lenses of a document; none if it has never been asked about. -/
def get (c : LensCache) (uri : Url) : List CodeLens :=
  ((c.entries.find? fun e => e.1 == uri).map (·.2)).getD []

/-- Replaces all lenses of a document. -/
def replace (c : LensCache) (uri : Url) (lenses : List CodeLens) : LensCache :=
  ⟨(uri, lenses) :: c.entries.filter fun e => e.1 != uri⟩

@[simp] theorem get_empty (uri : Url) : empty.get uri = [] := rfl

@[simp] theorem get_replace_self (c : LensCache) (uri : Url) (lenses : List CodeLens) :
    (c.replace uri lenses).get uri = lenses := by
  simp [get, replace]

theorem get_replace_of_ne (c : LensCache) {uri other : Url} (lenses : List CodeLens)
    (h : other ≠ uri) : (c.replace uri lenses).get other = c.get other := by
  have h' : (uri == other) = false := by simpa using fun e => h e.symm
  simp only [get, replace, List.find?_cons, h']
  congr 2
  induction c.entries with
  | nil => rfl
  | cons e es ih =>
    by_cases he : e.1 = uri
    · have : (e.1 == other) = false := by rw [he]; exact h'
      simp [he, h', ih]
    · simp [he, List.find?_cons, ih]

end LensCache

/-- Whether the first argument of a lens's command is the text of the document's URL. -/
def CodeLens.targets (l : CodeLens) (uri : Url) : Bool :=
  match l.command.bind (·.arguments) with
  | some (.str s :: _) => s == uri.text
  | _ => false

/-- The first lens of a document that covers a place and names the document. -/
def LensCache.findAt? (c : LensCache) (uri : Url) (p : Position) : Option CodeLens :=
  (c.get uri).find? fun l => l.range.contains p && l.targets uri

end EditorBridge
