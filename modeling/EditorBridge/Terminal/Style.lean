import EditorBridge.Protocol.Execution

/-!
# Styled text in a terminal

A style is switched on before a text and off after it. Bold text is ended by a reset, which also ends
its colour; text with a colour alone only has the colour ended.
-/

namespace EditorBridge.Terminal

/-- A colour of text. -/
inductive Colour where
  | red
  | yellow
  deriving DecidableEq, Repr

/-- The number of a colour in the palette. -/
def Colour.code : Colour → String
  | red => "9"
  | yellow => "11"

/-- How a text is shown. -/
structure Style where
  colour : Option Colour
  bold : Bool
  deriving DecidableEq, Repr

/-- The sequence that a terminal obeys, given by its parameters. -/
def control (parameters : String) : String := "\x1b[" ++ parameters ++ "m"

/-- A text in a style. -/
def Style.apply (s : Style) (text : String) : String :=
  let colourOn := match s.colour with
    | some c => control ("38;5;" ++ c.code)
    | none => ""
  let boldOn := if s.bold then control "1" else ""
  let off := if s.bold then control "0" else if s.colour.isSome then control "39" else ""
  colourOn ++ boldOn ++ text ++ off

/-- A text in bold. -/
def bold (text : String) : String := Style.apply ⟨none, true⟩ text

/-- The style of a chunk of output: errors red, warnings yellow, bold when asked. -/
def outputStyle (o : ExecutionOutput) : Style :=
  { colour := if o.messageType = 1 then some .red else if o.messageType = 2 then some .yellow else none
    bold := o.bold }

/-- A chunk of output as it is printed. -/
def renderOutput (o : ExecutionOutput) : String := (outputStyle o).apply o.message

/-- The line for a warning. -/
def warningLine (message : String) : String :=
  Style.apply ⟨some .yellow, true⟩ "warning:" ++ " " ++ message ++ "\n"

/-- The line for an error. -/
def errorLine (message : String) : String :=
  Style.apply ⟨some .red, true⟩ "error:" ++ " " ++ message ++ "\n"

end EditorBridge.Terminal
