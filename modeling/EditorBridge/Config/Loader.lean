import EditorBridge.Config.Basic
import EditorBridge.Text.Utf8
import EditorBridge.Toml.Document

/-!
# Layers of configuration

A `Loader` collects files and overrides. `Loader.build` lays the files over the defaults in the order in
which they were added, and all overrides over that; of two overrides of one key the later one counts.
-/

namespace EditorBridge.Config

open EditorBridge.Text

/-- The settings below all layers. -/
def defaults : Tree :=
  .table none
    [("server", .table none
      [("runtime", .text none "java"), ("jar", .text none "org.alloytools.alloy.dist.jar"),
        ("accept_timeout_ms", .integer none 30000), ("shutdown_grace_ms", .integer none 2000)]),
    ("editor", .table none
      [("language_id", .text none "alloy"), ("command_highlight_mode", .text none "codelens")]),
    ("panel", .table none [("title", .text none "Alloy")])]

/-- The name of the setting for the highlight mode. -/
def highlightModePath : Path := ⟨"editor", [.field "command_highlight_mode"]⟩

/-! ## 1. Laying one layer over a tree -/

/-- Sets a path, unless that would make a list beyond all bounds. -/
def place (t : Tree) (p : Path) (v : Tree) : Except ConfigError Tree :=
  if p.isReachable then .ok (t.set p v) else .error .listTooLong

/-- The path that a top-level key of a file stands for: a key that is no path is a name. -/
def pathOfKey (k : String) : Path :=
  match Path.parse k with
  | .ok p => p
  | .error _ => .plain k

/-- Lays the entries of a file over a tree. -/
def placeEntries (t : Tree) (es : List (String × Tree)) : Except ConfigError Tree :=
  es.foldlM (fun t (k, v) => place t (pathOfKey k) v) t

/-! ## 2. Files -/

/-- The content of a file by its path, if there is one. -/
abbrev Files := String → Option (List UInt8)

/-- The file that a path stands for: the path itself, or the path with `.toml` after it. -/
def Files.locate? (files : Files) (path : String) : Option (String × List UInt8) :=
  match files path with
  | some bs => some (path, bs)
  | none => (files (path ++ ".toml")).map fun bs => (path ++ ".toml", bs)

/-- The entries of a file. -/
def Files.entries (files : Files) (path : String) : Except ConfigError (List (String × Tree)) :=
  match files.locate? path with
  | none => .error (.missingFile path)
  | some (name, bs) =>
    match Utf8.decodeChars bs with
    | .error _ => .error .notText
    | .ok cs =>
      match Toml.parse? cs with
      | none => .error .syntaxError
      | some ms => .ok (Tree.ofTomlEntries (some name) ms)

/-! ## 3. Loaders -/

/-- The layers over the defaults. -/
structure Loader where
  files : List String := []
  overrides : List (Path × Tree) := []

namespace Loader

/-- No layers. -/
def start : Loader := {}

/-- Adds a file. Whether it is there shows when the configuration is built. -/
def addFile (l : Loader) (path : String) : Loader := { l with files := l.files ++ [path] }

/-- Adds an override, in place of an earlier one of the same path. -/
def override (l : Loader) (p : Path) (v : Tree) : Loader :=
  { l with overrides := l.overrides.filter (fun e => e.1 ≠ p) ++ [(p, v)] }

/-- Adds an override of the setting that a key names. -/
def set (l : Loader) (key : String) (v : Tree) : Except ConfigError Loader :=
  match Path.parse key with
  | .ok p => .ok (l.override p v)
  | .error cause => .error (.badPath cause)

/-- Overrides the highlight mode by its name. -/
def setHighlightMode (l : Loader) (name : String) : Loader := l.override highlightModePath (.text none name)

/-- The settings of all layers. -/
def tree (l : Loader) (files : Files) : Except ConfigError Tree := do
  let t ← l.files.foldlM (fun t path => (files.entries path).bind (placeEntries t)) defaults
  l.overrides.foldlM (fun t (p, v) => place t p v) t

/-- The configuration of all layers. -/
def build (l : Loader) (files : Files) : Except ConfigError Config := (l.tree files).bind ofTree

end Loader

end EditorBridge.Config
