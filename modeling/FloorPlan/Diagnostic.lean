import FloorPlan.Position

/-! # Recoverable problems

Every stage adds the problems that it finds to one list, in the order of finding them. -/

namespace FloorPlan

/-- Whether a problem makes the source invalid. -/
inductive Severity where
  | error
  | warning
  deriving DecidableEq, Repr

/-- The word for a severity in a problem's text. -/
def Severity.text : Severity → String
  | .error => "error"
  | .warning => "warning"

/-- The part of the language that a problem belongs to. -/
inductive Phase where
  | lexical
  | grammar
  | semantic
  deriving DecidableEq, Repr

/-- A problem found in a source. -/
structure Diagnostic where
  message : String
  span : Option Span
  severity : Severity
  phase : Phase
  hint : Option String
  deriving DecidableEq, Repr

namespace Diagnostic

/-- The place of a problem in brackets, after a blank. -/
def place (span : Option Span) : String :=
  match span with
  | some s => " (" ++ s.text ++ ")"
  | none => ""

/-- A problem on one line. -/
def text (d : Diagnostic) : String :=
  d.severity.text ++ ": " ++ d.message ++ place d.span

/-- An error. -/
def error (phase : Phase) (message : String) (span : Option Span) (hint : Option String) :
    Diagnostic :=
  ⟨message, span, .error, phase, hint⟩

/-- A warning, which has no hint. -/
def warning (phase : Phase) (message : String) (span : Option Span) : Diagnostic :=
  ⟨message, span, .warning, phase, none⟩

/-- Whether a problem is an error. -/
def isError (d : Diagnostic) : Bool := d.severity = .error

end Diagnostic

/-- The problems found so far, the first one first. -/
abbrev Diagnostics := List Diagnostic

namespace Diagnostics

/-- The errors among the problems. -/
def errors (ds : Diagnostics) : List Diagnostic := ds.filter Diagnostic.isError

/-- The warnings among the problems. -/
def warnings (ds : Diagnostics) : List Diagnostic := ds.filter (!·.isError)

/-- Whether some problem is an error. -/
def hasErrors (ds : Diagnostics) : Bool := ds.any Diagnostic.isError

end Diagnostics

end FloorPlan
