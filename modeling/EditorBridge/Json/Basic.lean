import EditorBridge.Number.Double

/-!
# JSON values

A value as every layer of the bridge passes it on: integers of 64 bits stay integers, every other
number is a `Double`. The members of an object are a list of pairs; `Json.ofMembers` makes the list
that the reader makes: ascending by key, one pair per key, the last one read winning.
-/

namespace EditorBridge

open Number (Double)

/-- A JSON value. -/
inductive Json where
  | null
  | bool (b : Bool)
  | int (n : Int)
  | float (d : Double)
  | str (s : String)
  | arr (elements : List Json)
  | obj (members : List (String × Json))
  deriving Inhabited

namespace Json

/-! ## 1. Members -/

/-- Puts a member in its place by key; an equal key has its value replaced. -/
def putMember (key : String) (value : Json) : List (String × Json) → List (String × Json)
  | [] => [(key, value)]
  | (k, v) :: r =>
    if key = k then (key, value) :: r
    else if key < k then (key, value) :: (k, v) :: r
    else (k, v) :: putMember key value r

/-- The members in key order, the last value of each key. -/
def sortMembers (ms : List (String × Json)) : List (String × Json) :=
  ms.foldl (fun acc m => putMember m.1 m.2 acc) []

/-- The object with the given members. -/
def ofMembers (ms : List (String × Json)) : Json := obj (sortMembers ms)

/-- The value of the first member with the given key. -/
def member? (key : String) (ms : List (String × Json)) : Option Json :=
  (ms.find? fun m => m.1 == key).map (·.2)

/-- The member of an object; nothing for any other value. -/
def get? (key : String) : Json → Option Json
  | obj ms => member? key ms
  | _ => none

/-! ## 2. Views -/

/-- The text of a string value. -/
def str? : Json → Option String
  | str s => some s
  | _ => none

/-- The elements of an array value. -/
def arr? : Json → Option (List Json)
  | arr xs => some xs
  | _ => none

/-- The value of an integer. -/
def int? : Json → Option Int
  | int n => some n
  | _ => none

theorem str?_eq_some_iff {j : Json} {s : String} : j.str? = some s ↔ j = str s := by
  cases j <;> simp [str?]

theorem int?_eq_some_iff {j : Json} {n : Int} : j.int? = some n ↔ j = int n := by
  cases j <;> simp [int?]

/-- Whether the value is null. -/
def isNull : Json → Bool
  | null => true
  | _ => false

instance : Coe String Json := ⟨str⟩

end Json

end EditorBridge
