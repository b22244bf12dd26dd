import EditorBridge.Config.Tree
import EditorBridge.Duration
import EditorBridge.Highlight
import EditorBridge.Number.Shortest
import EditorBridge.Text.Quoted

/-!
# The configuration

`Config` is what a session is started with; `Config.ofTree` takes it out of a tree of settings. Texts
may be written as numbers, truth values or moments, counts of milliseconds also as texts, fractions and
truth values (`readText`, `readCount`). A section may also be a list of its settings in order.
-/

namespace EditorBridge

open Text Number

namespace Config

/-- How the language server is started and ended. -/
structure Server where
  runtime : String
  jar : String
  acceptTimeout : Duration
  shutdownGrace : Duration
  deriving DecidableEq, Repr

/-- Which documents are served, and how their commands are shown. -/
structure Editor where
  languageId : String
  highlightMode : HighlightMode
  deriving DecidableEq, Repr

/-- The panel for execution output. -/
structure Panel where
  title : String
  /-- A file whose content replaces the built-in document. -/
  html : Option String
  deriving DecidableEq, Repr

end Config

/-- The configuration of a session. -/
structure Config where
  server : Config.Server
  editor : Config.Editor
  panel : Config.Panel
  deriving DecidableEq, Repr

namespace Config

/-! ## 1. What can go wrong -/

/-- A value that does not fit, and what was expected. -/
structure Mismatch where
  found : String
  expected : String
  deriving DecidableEq, Repr

/-- Why there is no configuration. -/
inductive ConfigError where
  /-- A file is not TOML. -/
  | syntaxError
  /-- No file has this name, with or without `.toml`. -/
  | missingFile (path : String)
  /-- A file is not UTF-8. -/
  | notText
  /-- The key of an override is no path. -/
  | badPath (cause : PathError)
  /-- A setting has a value of the wrong kind. -/
  | mismatch (what : Mismatch) (key : String) (file : Option String)
  /-- A section is not a group of settings. -/
  | badSection (message : String)
  /-- A list would become longer than any memory. -/
  | listTooLong
  deriving DecidableEq, Repr

/-- The wording of an error. -/
def ConfigError.message : ConfigError → String
  | syntaxError => "the file is not a TOML document"
  | missingFile path => "configuration file \"" ++ path ++ "\" not found"
  | notText => "stream did not contain valid UTF-8"
  | badPath cause => cause.message
  | mismatch what key file =>
    "invalid type: " ++ what.found ++ ", expected " ++ what.expected ++ " for key `" ++ key ++ "`" ++
      ((file.map (" in " ++ ·)).getD "")
  | badSection message => message
  | listTooLong => "capacity overflow"

/-! ## 2. Reading single settings -/

/-- How a value that does not fit is named. -/
def found : Tree → String
  | .absent _ => "unit value"
  | .text _ s => "string " ++ Quoted.quote s
  | .integer _ n => "64-bit integer `" ++ Numeral.ofInt n ++ "`"
  | .real _ d => "floating point `" ++ Layout.plain.text d ++ "`"
  | .truth _ b => "boolean `" ++ (if b then "true" else "false") ++ "`"
  | .list .. => "sequence"
  | .table .. => "map"

/-- A text, or the text of a scalar. -/
def readText (t : Tree) : Except Mismatch String :=
  match t with
  | .text _ s => .ok s
  | .integer _ n => .ok (Numeral.ofInt n)
  | .real _ d => .ok (Layout.plain.text d)
  | .truth _ b => .ok (if b then "true" else "false")
  | t => .error ⟨found t, "a string"⟩

/-- The count that a text stands for: a decimal number or a word for yes or no. -/
def countOfText? (s : String) : Option Nat :=
  let word := Tree.lowerName s
  if word = "true" ∨ word = "on" ∨ word = "yes" then some 1
  else if word = "false" ∨ word = "off" ∨ word = "no" then some 0
  else Numeral.readUnsigned Numeral.maxU64 s.toList

/-- A count that fits 64 bits. Fractions are rounded, a half going up. -/
def readCount (t : Tree) : Except Mismatch Nat :=
  match t with
  | .integer _ n =>
    if 0 ≤ n then .ok n.toNat else .error ⟨found t, "an unsigned 64 bit or less integer"⟩
  | .real _ d => .ok (d.roundToNat Numeral.maxU64)
  | .truth _ b => .ok (if b then 1 else 0)
  | .text _ s =>
    match countOfText? s with
    | some n => .ok n
    | none => .error ⟨found t, "an integer"⟩
  | t => .error ⟨found t, "an integer"⟩

/-- A number of milliseconds. -/
def readMillis (t : Tree) : Except Mismatch Duration := (readCount t).map Duration.mk

/-- A text that may be absent. -/
def readOptional (t : Tree) : Except Mismatch (Option String) :=
  match t with
  | .absent _ => .ok none
  | t => (readText t).map some

/-! ## 3. Reading sections -/

/-- A section of a tree of settings. -/
structure Section where
  /-- The name of the section in the tree. -/
  name : String
  /-- What messages call a section of this shape. -/
  label : String
  /-- How many settings it has. -/
  size : Nat
  tree : Tree

namespace Section

/-- How a value that is no section is named. -/
def foundInstead : Tree → String
  | .integer _ n => "integer `" ++ Numeral.ofInt n ++ "`"
  | .real _ d =>
    let t := Layout.plain.text d
    "floating point `" ++
      (if d.isNaN || d.isInfinite || t.toList.contains '.' then t else t ++ ".0") ++ "`"
  | t => found t

/-- Whether the section can have settings at all. -/
def check (s : Section) : Except ConfigError Unit :=
  match s.tree with
  | .table .. => .ok ()
  | .list .. => .ok ()
  | t => .error (.badSection ("invalid type: " ++ foundInstead t ++ ", expected struct " ++ s.label))

/-- Reads a value that is there. -/
def readAt {α : Type} (key : String) (read : Tree → Except Mismatch α) (t : Tree) :
    Except ConfigError α :=
  match read t with
  | .ok x => .ok x
  | .error what => .error (.mismatch what key t.file)

/-- The setting with a name and a place, if the section is a table or has a default for it. -/
def setting? {α : Type} (s : Section) (place : Nat) (name : String) (hasDefault : Bool)
    (read : Tree → Except Mismatch α) : Except ConfigError (Option α) :=
  match s.tree with
  | .list _ xs =>
    match xs[place]? with
    | some t => (readAt (s.name ++ "[" ++ Numeral.ofNat place ++ "]") read t).map some
    | none =>
      if hasDefault then .ok none
      else
        .error (.badSection ("invalid length " ++ Numeral.ofNat place ++ ", expected struct " ++ s.label ++
          " with " ++ Numeral.ofNat s.size ++ " elements"))
  | t =>
    match t.get? name with
    | some t => (readAt (s.name ++ "." ++ name) read t).map some
    | none => .ok none

/-- A setting that has to be there. -/
def required {α : Type} (name : String) : Option α → Except ConfigError α
  | some x => .ok x
  | none => .error (.badSection ("missing field `" ++ name ++ "`"))

end Section

/-- The section with a name. -/
def sectionOf (t : Tree) (name label : String) (size : Nat) : Except ConfigError Section :=
  match t.get? name with
  | some tree =>
    let s : Section := ⟨name, label, size, tree⟩
    s.check.map fun _ => s
  | none => Section.required name none

/-- The section `server`. -/
def Server.ofTree (t : Tree) : Except ConfigError Server := do
  let s ← sectionOf t "server" "ServerConfig" 4
  let runtime ← s.setting? 0 "runtime" false readText
  let jar ← s.setting? 1 "jar" false readText
  let accept ← s.setting? 2 "accept_timeout_ms" false readMillis
  let grace ← s.setting? 3 "shutdown_grace_ms" false readMillis
  return ⟨← Section.required "runtime" runtime, ← Section.required "jar" jar,
    ← Section.required "accept_timeout_ms" accept, ← Section.required "shutdown_grace_ms" grace⟩

/-- The section `editor`. -/
def Editor.ofTree (t : Tree) : Except ConfigError Editor := do
  let s ← sectionOf t "editor" "EditorConfig" 2
  let languageId ← s.setting? 0 "language_id" false readText
  let mode ← s.setting? 1 "command_highlight_mode" false readText
  return ⟨← Section.required "language_id" languageId,
    .ofName (← Section.required "command_highlight_mode" mode)⟩

/-- The section `panel`. -/
def Panel.ofTree (t : Tree) : Except ConfigError Panel := do
  let s ← sectionOf t "panel" "PanelConfig" 2
  let title ← s.setting? 0 "title" false readText
  let html ← s.setting? 1 "html" true readOptional
  return ⟨← Section.required "title" title, html.join⟩

/-- The configuration in a tree of settings. -/
def ofTree (t : Tree) : Except ConfigError Config := do
  return ⟨← Server.ofTree t, ← Editor.ofTree t, ← Panel.ofTree t⟩

end Config

end EditorBridge
