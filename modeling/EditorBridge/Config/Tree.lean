import EditorBridge.Config.Path
import EditorBridge.Json.Basic
import EditorBridge.Toml.Value

/-!
# Trees of settings

A tree holds the settings of all layers. Each node knows the file that it came from, if any.

* `Tree.assign` gives a name a value. A table is merged entry by entry into what is there; any other
  value takes its place. A merged table belongs to no file.
* `Tree.set` does this at a path, and makes the tables and lists on the way. An element of a list is
  replaced as a whole, and a list that is too short is filled up.

Names are compared in lower case, so they are stored that way (`lowerName`).
-/

namespace EditorBridge.Config

open EditorBridge.Number

/-- A setting or a group of them. -/
inductive Tree where
  | absent (file : Option String)
  | text (file : Option String) (s : String)
  | integer (file : Option String) (n : Int)
  | real (file : Option String) (d : Double)
  | truth (file : Option String) (b : Bool)
  | list (file : Option String) (xs : List Tree)
  | table (file : Option String) (entries : List (String × Tree))
  deriving Inhabited

namespace Tree

/-- The file that a node came from. -/
def file : Tree → Option String
  | absent f | text f _ | integer f _ | real f _ | truth f _ | list f _ | table f _ => f

/-- A table without entries. -/
def empty : Tree := table none []

/-! ## 1. Trees from other data -/

mutual

/-- A TOML value that stands in a file. Moments become their text. -/
def ofToml (file : Option String) : Toml.Value → Tree
  | .text s => text file s
  | .integer n => integer file n
  | .real d => real file d
  | .truth b => truth file b
  | .moment t => text file t.text
  | .array xs => list file (ofTomlList file xs)
  | .table ms => table file (ofTomlEntries file ms)

/-- The elements of an array. -/
def ofTomlList (file : Option String) : List Toml.Value → List Tree
  | [] => []
  | v :: vs => ofToml file v :: ofTomlList file vs

/-- The entries of a table. -/
def ofTomlEntries (file : Option String) : List (String × Toml.Value) → List (String × Tree)
  | [] => []
  | (k, v) :: ms => (k, ofToml file v) :: ofTomlEntries file ms

end

mutual

/-- A value that stands in no file. -/
def ofJson : Json → Tree
  | .null => absent none
  | .bool b => truth none b
  | .int n => integer none n
  | .float d => real none d
  | .str s => text none s
  | .arr xs => list none (ofJsonList xs)
  | .obj ms => table none (ofJsonEntries ms)

/-- The elements of an array. -/
def ofJsonList : List Json → List Tree
  | [] => []
  | v :: vs => ofJson v :: ofJsonList vs

/-- The entries of an object. -/
def ofJsonEntries : List (String × Json) → List (String × Tree)
  | [] => []
  | (k, v) :: ms => (k, ofJson v) :: ofJsonEntries ms

end

/-! ## 2. Assigning names -/

/-- A name as it is stored. Every setting that is read has an ASCII name. -/
def lowerName (s : String) : String := String.ofList (s.toList.map Char.toLower)

/-- The entries of a table; anything else has none. -/
def entries : Tree → List (String × Tree)
  | table _ es => es
  | _ => []

/-- The same table with other entries; anything else becomes a table that belongs to no file. -/
def withEntries (t : Tree) (es : List (String × Tree)) : Tree :=
  match t with
  | table f _ => table f es
  | _ => table none es

/-- The value of a name. -/
def get? (t : Tree) (k : String) : Option Tree := Entries.get? t.entries k

/-- With `v` as the value of a name, whatever was there. -/
def replace (t : Tree) (k : String) (v : Tree) : Tree := t.withEntries (Entries.put t.entries k v)

mutual

/-- Gives a name a value: tables are merged, other values replaced. -/
def assign (t : Tree) (k : String) : Tree → Tree
  | table _ es => t.replace k (assignAll ((t.get? k).getD empty) es)
  | v => t.replace k v

/-- Assigns entries one after another. -/
def assignAll (t : Tree) : List (String × Tree) → Tree
  | [] => t
  | (k, v) :: es => assignAll (t.assign (lowerName k) v) es

end

/-! ## 3. Setting a path -/

/-- The elements of a list; anything else has none. -/
def elements : Tree → List Tree
  | list _ xs => xs
  | _ => []

/-- The same list with other elements; anything else becomes a list that belongs to no file. -/
def withElements (t : Tree) (xs : List Tree) : Tree :=
  match t with
  | list f _ => list f xs
  | _ => list none xs

/-- With `v` at a place of a list that is filled up as far as needed. -/
def replaceAt (t : Tree) (i : Nat) (v : Tree) : Tree :=
  let xs := t.elements
  t.withElements ((xs ++ List.replicate (i + 1 - xs.length) (absent none)).set i v)

/-- Sets the value at the end of some steps. -/
def setSteps (t : Tree) (v : Tree) : List Step → Tree
  | [] => v
  | [.field k] => t.assign (lowerName k) v
  | .field k :: steps =>
    t.replace (lowerName k) (((t.get? (lowerName k)).getD (absent none)).setSteps v steps)
  | .element i :: steps => t.replaceAt i ((t.elements[i]?.getD (absent none)).setSteps v steps)

/-- Sets the value at a path. -/
def set (t : Tree) (p : Path) (v : Tree) : Tree := t.setSteps v (.field p.head :: p.steps)

end Tree

end EditorBridge.Config
