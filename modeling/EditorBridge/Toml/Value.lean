import EditorBridge.Entries
import EditorBridge.Number.Double
import EditorBridge.Toml.Datetime

/-!
# TOML values

The values that a TOML text can hold. Integers fit 64 bits, and the members of a table have different
names.
-/

namespace EditorBridge.Toml

open EditorBridge.Number

/-- A TOML value. -/
inductive Value where
  | text (s : String)
  | integer (n : Int)
  | real (d : Double)
  | truth (b : Bool)
  | moment (t : Datetime)
  | array (xs : List Value)
  | table (ms : List (String × Value))
  deriving Inhabited

end EditorBridge.Toml
