import EditorBridge.Toml.Scalar
import EditorBridge.Toml.Table

/-!
# Reading TOML documents

`Toml.parse?` reads a whole document: lines of keys with values, each possibly under a header. It is
`none` for anything that the format does not allow; which fault it is, is not told.

A document is read in two passes: `sections?` cuts it into headers and the pairs under them, and
`Slots.openTable?` and its companions put these together.
-/

namespace EditorBridge.Toml

/-! ## 1. Line ends and comments -/

/-- What follows the end of a line: a line break, or nothing more. -/
def lineEnd? : List Char → Option (List Char)
  | [] => some []
  | '\n' :: r => some r
  | '\r' :: '\n' :: r => some r
  | _ => none

/-- What follows the line when only white space and a comment are left in it. -/
def lineRest? (cs : List Char) : Option (List Char) :=
  match skipSpace cs with
  | '#' :: r => lineEnd? (r.dropWhile isPlain)
  | r => lineEnd? r

/-- Without leading white space, line breaks and comments; `comment` says whether one has begun. -/
def skipLines? (comment : Bool) : List Char → Option (List Char)
  | [] => some []
  | '\n' :: r => skipLines? false r
  | '\r' :: '\n' :: r => skipLines? false r
  | c :: r =>
    if comment then if isPlain c then skipLines? true r else none
    else if isSpace c then skipLines? false r
    else if c = '#' then skipLines? true r
    else some (c :: r)

/-! ## 2. Keys -/

/-- A character of a key without quotes. -/
def isBareKeyChar (c : Char) : Bool := c.isAlphanum || c == '_' || c == '-'

/-- One part of a key. -/
def simpleKey? (cs : List Char) : Option (String × List Char) :=
  match cs with
  | '"' :: r => (basicRest? r).map fun (k, r) => (String.ofList k, r)
  | '\'' :: r => (literalRest? r).map fun (k, r) => (String.ofList k, r)
  | cs =>
    let k := cs.takeWhile isBareKeyChar
    if k.isEmpty then none else some (String.ofList k, cs.dropWhile isBareKeyChar)

/-- The parts of a dotted key, with white space around each, as the last one and those before it. Each
    part takes one unit of fuel, and there can be no more than `fuel`. -/
def key? : Nat → List Char → Option ((List String × String) × List Char)
  | 0, _ => none
  | fuel + 1, cs =>
    (simpleKey? (skipSpace cs)).bind fun (k, r) =>
      match skipSpace r with
      | '.' :: r => (key? fuel r).map fun ((path, last), r) => ((k :: path, last), r)
      | r => some (([], k), r)

/-- The most parts of a key. -/
def maxKeyParts : Nat := 79

/-- How deep arrays and tables in values may nest. -/
def maxDepth : Nat := 79

/-! ## 3. Values -/

mutual

/-- A value that starts here. Each call takes one unit of fuel; arrays and tables nest at most `depth`
    deep. -/
def value? : Nat → Nat → List Char → Option (Value × List Char)
  | 0, _, _ => none
  | fuel + 1, depth, cs =>
    match cs with
    | '[' :: r =>
      match depth with
      | 0 => none
      | depth + 1 =>
        match skipLines? false r with
        | some (']' :: r) => some (.array [], r)
        | some r => (elements? fuel depth r).map fun (xs, r) => (.array xs, r)
        | none => none
    | '{' :: r =>
      match depth with
      | 0 => none
      | depth + 1 =>
        let made := match skipSpace r with
          | '}' :: r => some ([], r)
          | r => pairs? fuel depth r
        made.bind fun (pairs, r) =>
          (Slots.insertAll? [] pairs).map fun slots => (.table (Slots.values slots), r)
    | cs => scalar? cs

/-- One or more elements, an optional last comma and the closing bracket. -/
def elements? : Nat → Nat → List Char → Option (List Value × List Char)
  | 0, _, _ => none
  | fuel + 1, depth, cs =>
    (value? fuel depth cs).bind fun (x, r) =>
      match skipLines? false r with
      | some (']' :: r) => some ([x], r)
      | some (',' :: r) =>
        match skipLines? false r with
        | some (']' :: r) => some ([x], r)
        | some r => (elements? fuel depth r).map fun (xs, r) => (x :: xs, r)
        | none => none
      | _ => none

/-- One or more pairs and the closing brace, all on one line. -/
def pairs? : Nat → Nat → List Char → Option (List (List String × String × Value) × List Char)
  | 0, _, _ => none
  | fuel + 1, depth, cs =>
    (key? maxKeyParts cs).bind fun ((path, k), r) =>
      match r with
      | '=' :: r =>
        (value? fuel depth (skipSpace r)).bind fun (v, r) =>
          match skipSpace r with
          | '}' :: r => some ([(path, k, v)], r)
          | ',' :: r => (pairs? fuel depth r).map fun (ps, r) => ((path, k, v) :: ps, r)
          | _ => none
      | _ => none

end

/-! ## 4. Documents -/

/-- A key with its value, on a line of its own. -/
def pair? (cs : List Char) : Option ((List String × String × Value) × List Char) :=
  (key? maxKeyParts cs).bind fun ((path, k), r) =>
    match r with
    | '=' :: r =>
      (value? (2 * cs.length + 1) maxDepth (skipSpace r)).bind fun (v, r) =>
        (lineRest? r).map fun r => ((path, k, v), r)
    | _ => none

/-- The pairs of a document in the order of its lines, after the header that they stand under. -/
inductive Line where
  | pair (path : List String) (key : String) (v : Value)
  | table (path : List String) (key : String)
  | element (path : List String) (key : String)

/-- A header after its opening brackets. -/
def header? (isElement : Bool) (cs : List Char) : Option (Line × List Char) :=
  (key? maxKeyParts cs).bind fun ((path, k), r) =>
    match isElement, r with
    | true, ']' :: ']' :: r => (lineRest? r).map fun r => (.element path k, r)
    | false, ']' :: r => (lineRest? r).map fun r => (.table path k, r)
    | _, _ => none

/-- The lines of a document that say something. Each line takes one unit of fuel. -/
def lines? : Nat → List Char → Option (List Line)
  | 0, _ => none
  | fuel + 1, cs =>
    match skipSpace cs with
    | [] => some []
    | '#' :: r => (lineEnd? (r.dropWhile isPlain)).bind (lines? fuel)
    | '\n' :: r => lines? fuel r
    | '\r' :: '\n' :: r => lines? fuel r
    | '[' :: '[' :: r =>
      (header? true r).bind fun (l, r) => (lines? fuel r).map (l :: ·)
    | '[' :: r =>
      (header? false r).bind fun (l, r) => (lines? fuel r).map (l :: ·)
    | r =>
      (pair? r).bind fun ((path, k, v), r) => (lines? fuel r).map (.pair path k v :: ·)

/-- Cuts lines into the pairs before the first header and the pairs after each header. -/
def sections : List Line → List (List String × String × Value) × List (Line × List (List String × String × Value))
  | [] => ([], [])
  | .pair path k v :: ls =>
    let (pairs, rest) := sections ls
    ((path, k, v) :: pairs, rest)
  | header :: ls =>
    let (pairs, rest) := sections ls
    ([], (header, pairs) :: rest)

/-- Places what stands under one header. -/
def Slots.openSection? (slots : Slots) : Line × List (List String × String × Value) → Option Slots
  | (.table path k, pairs) => slots.openTable? path k pairs
  | (.element path k, pairs) => slots.openElement? path k pairs
  | (.pair .., _) => none

/-- The members of the table that a document describes. -/
def parse? (cs : List Char) : Option (List (String × Value)) := do
  let cs := match cs with
    | '\ufeff' :: r => r
    | r => r
  let (pairs, rest) := sections (← lines? (cs.length + 1) cs)
  let root ← Slots.insertAll? [] pairs
  let root ← rest.foldlM Slots.openSection? root
  return Slots.values root

end EditorBridge.Toml
