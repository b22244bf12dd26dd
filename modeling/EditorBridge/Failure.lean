import EditorBridge.Config.Basic
import EditorBridge.Session.Activation

/-!
# Reporting a failure

The program ends a failed run with one report on the error output: what failed, and below it the causes,
numbered when there is more than one.
-/

namespace EditorBridge

open Text

/-- What failed, and why. -/
structure Failure where
  message : String
  /-- From the nearest cause to the last one. -/
  causes : List String
  deriving DecidableEq, Repr

namespace Failure

/-- The lines for the causes. -/
def causeLines : List String → List String
  | [] => []
  | [c] => ["", "Caused by:", "    " ++ c]
  | cs => ["", "Caused by:"] ++ cs.zipIdx.map fun (c, i) => "    " ++ Numeral.ofNat i ++ ": " ++ c

/-- The report of a failure. -/
def text (f : Failure) : String := String.join ((("Error: " ++ f.message) :: causeLines f.causes).map (· ++ "\n"))

/-- No configuration. -/
def ofConfig (e : Config.ConfigError) : Failure := ⟨"failed to load configuration", [e.message]⟩

/-- The cause of a failed launch. -/
def launchCause : LaunchError → String
  | .runtimeNotFound _ => "cannot find binary path"
  | .spawn _ cause => cause

/-- The causes of an error in an activation. -/
def sessionCauses : SessionError → List String
  | .panelDocument _ cause => [cause]
  | .transport (.listen _ cause) => [cause]
  | .transport (.accept _ cause) => [cause]
  | .transport (.noConnection _ _) => []
  | .launch e => [launchCause e]
  | .handshakeTimeout _ => []
  | .handshake e =>
    e.message :: match e with
      | .malformed _ cause => [cause.message]
      | _ => []

/-- No session. -/
def ofSession (e : SessionError) : Failure := ⟨e.message, sessionCauses e⟩

end Failure

end EditorBridge
