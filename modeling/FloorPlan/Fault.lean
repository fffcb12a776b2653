import FloorPlan.Text.Quoted
import FloorPlan.Number.Exact

/-! # Faults

A fault ends an operation without an answer; recoverable problems are diagnostics instead. -/

namespace FloorPlan

/-- Why an operation has no answer. -/
inductive Fault where
  /-- A number token whose text is no number. -/
  | badNumber (text : String)
  /-- A repeat pattern without a whole number of steps. -/
  | unbounded (cause : Number.Unbounded)
  /-- A look-up before the first or after the last token. -/
  | noToken
  /-- A look-up before the first character. -/
  | noCharacter
  /-- The preview cannot be turned into pixels. -/
  | noRasteriser
  deriving DecidableEq, Repr

/-- The words of a fault. -/
def Fault.message : Fault → String
  | .badNumber text => "could not convert string to float: " ++ Text.quote text
  | .unbounded .infinite => "cannot convert float infinity to integer"
  | .unbounded .undefined => "cannot convert float NaN to integer"
  | .noToken => "list index out of range"
  | .noCharacter => "string index out of range"
  | .noRasteriser => "cairosvg not installed"

end FloorPlan
