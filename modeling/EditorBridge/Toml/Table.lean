import EditorBridge.Toml.Value

/-!
# Tables under construction

A table remembers how it came to be, since that decides what may be added to it:

* `header`: named by a header of its own, or opened as an element of a list of tables. Complete once
  the next header begins.
* `passed`: only named on the way to a deeper header. A header may still open it, once.
* `dotted`: made by a dotted key. Only further dotted keys add to it directly.

`Slots.insert?` adds a value under a dotted key, `Slots.openTable?` and `Slots.openElement?` place what
stands under a header. Each is `none` where a name would be defined twice or a value extended.
-/

namespace EditorBridge.Toml

/-- How a table came to be. -/
inductive Making where
  | header
  | passed
  | dotted
  deriving DecidableEq, Repr

/-- What a name stands for. -/
inductive Slot where
  | given (v : Value)
  | table (made : Making) (slots : List (String × Slot))
  /-- The elements of a list of tables. -/
  | tables (elements : List (List (String × Slot)))
  deriving Inhabited

/-- The names of a table with what they stand for. -/
abbrev Slots := Entries Slot

namespace Slots

/-! ## 1. Dotted keys -/

/-- Adds a value under the path `path` and then `key`. Lists of tables on the way are entered at their
    last element. -/
def insert? (slots : Slots) (key : String) (v : Value) : List String → Option Slots
  | [] => if slots.has key then none else some (slots.put key (.given v))
  | p :: path =>
    match slots.get? p with
    | none => (insert? [] key v path).map fun s => slots.put p (.table .dotted s)
    | some (.given _) => none
    | some (.table .header _) => none
    | some (.table .passed s) =>
      if path.isEmpty then none
      else (insert? s key v path).map fun s => slots.put p (.table .passed s)
    | some (.table .dotted s) => (insert? s key v path).map fun s => slots.put p (.table .dotted s)
    | some (.tables elements) =>
      if path.isEmpty then none
      else
        (insert? (elements.getLast?.getD []) key v path).map fun s =>
          slots.put p (.tables (elements.dropLast ++ [s]))

/-- Adds values under dotted keys, one after another. -/
def insertAll? (slots : Slots) (pairs : List (List String × String × Value)) : Option Slots :=
  pairs.foldlM (fun slots (path, key, v) => slots.insert? key v path) slots

/-! ## 2. Headers -/

/-- Changes the table at a path of header names. Tables that are missing on the way are made. -/
def at? (slots : Slots) (change : Slots → Option Slots) : List String → Option Slots
  | [] => change slots
  | p :: path =>
    match slots.get? p with
    | none => (at? [] change path).map fun s => slots.put p (.table .passed s)
    | some (.given _) => none
    | some (.table made s) => (at? s change path).map fun s => slots.put p (.table made s)
    | some (.tables elements) =>
      (at? (elements.getLast?.getD []) change path).map fun s =>
        slots.put p (.tables (elements.dropLast ++ [s]))

/-- Opens the table `key` at `path` and fills it. -/
def openTable? (slots : Slots) (path : List String) (key : String)
    (pairs : List (List String × String × Value)) : Option Slots :=
  slots.at?
    (fun parent =>
      match parent.get? key with
      | none => (insertAll? [] pairs).map fun s => parent.put key (.table .header s)
      | some (.table .passed s) => (insertAll? s pairs).map fun s => parent.put key (.table .header s)
      | some _ => none)
    path

/-- Appends an element to the list of tables `key` at `path` and fills it. -/
def openElement? (slots : Slots) (path : List String) (key : String)
    (pairs : List (List String × String × Value)) : Option Slots :=
  slots.at?
    (fun parent =>
      match parent.get? key with
      | none => (insertAll? [] pairs).map fun s => parent.put key (.tables [s])
      | some (.tables elements) =>
        (insertAll? [] pairs).map fun s => parent.put key (.tables (elements ++ [s]))
      | some _ => none)
    path

end Slots

/-! ## 3. Finished tables -/

mutual

/-- The value of a slot. -/
def Slot.toValue : Slot → Value
  | .given v => v
  | .table _ slots => .table (Slots.values slots)
  | .tables elements => .array (Slots.elementValues elements)

/-- The values of a table's names. -/
def Slots.values : List (String × Slot) → List (String × Value)
  | [] => []
  | (k, s) :: r => (k, s.toValue) :: Slots.values r

/-- The values of the elements of a list of tables. -/
def Slots.elementValues : List (List (String × Slot)) → List Value
  | [] => []
  | slots :: r => .table (Slots.values slots) :: Slots.elementValues r

end

end EditorBridge.Toml
