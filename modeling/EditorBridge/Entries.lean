/-!
# Named entries in order

`Entries α` is a list of named values. `get?` finds the first value with a name, `put` replaces it or
appends a new entry; `get?_put_self` and `get?_put_of_ne` say what a `put` changes.
-/

namespace EditorBridge

/-- Named values in the order of their first insertion. -/
abbrev Entries (α : Type) := List (String × α)

namespace Entries

variable {α : Type}

/-- The first value with a name. -/
def get? (es : Entries α) (k : String) : Option α :=
  match es with
  | [] => none
  | (n, x) :: es => if n = k then some x else get? es k

/-- With `x` as the value of `k`. -/
def put (es : Entries α) (k : String) (x : α) : Entries α :=
  match es with
  | [] => [(k, x)]
  | (n, y) :: es => if n = k then (n, x) :: es else (n, y) :: put es k x

/-- Whether there is an entry with a name. -/
def has (es : Entries α) (k : String) : Bool := (get? es k).isSome

@[simp] theorem get?_nil (k : String) : get? ([] : Entries α) k = none := rfl

@[simp] theorem get?_put_self (es : Entries α) (k : String) (x : α) : get? (put es k x) k = some x := by
  induction es with
  | nil => simp [put, get?]
  | cons e es ih =>
    obtain ⟨n, y⟩ := e
    by_cases h : n = k <;> simp [put, get?, h, ih]

theorem get?_put_of_ne (es : Entries α) {j k : String} (x : α) (h : j ≠ k) :
    get? (put es k x) j = get? es j := by
  induction es with
  | nil => simp [put, get?, Ne.symm h]
  | cons e es ih =>
    obtain ⟨n, y⟩ := e
    by_cases hn : n = k
    · subst hn; simp [put, get?, Ne.symm h]
    · simp [put, get?, hn, ih]

end Entries

end EditorBridge
