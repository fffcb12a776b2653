import FloorPlan.Token.Cursor
import FloorPlan.Drawing.Grammar
import FloorPlan.Model.Lowering
import FloorPlan.Model.Json
import FloorPlan.Stylesheet

/-! # The compiler

A compiler takes a source through all stages, reports on it, and keeps what the stages made
until the next source. Nothing is carried over from one source to the next. -/

namespace FloorPlan

/-- A summary of a compilation. -/
structure Report where
  isValid : Bool
  errors : List String
  warnings : List String
  canvas : Option Model.Canvas
  rooms : Nat
  walls : Nat
  doors : Nat
  grids : Nat
  deriving DecidableEq, Repr

/-- What a compiler holds after a compilation. -/
structure Compiler where
  name : String
  tokens : Option (List Token)
  drawing : Option Drawing
  model : Option Model
  messages : Diagnostics

/-- The outputs of a compilation. -/
structure Outputs where
  json : String
  css : String
  model : Model

/-- What a finished compilation gives; a lexical error leaves only the report. -/
structure Result where
  outputs : Option Outputs
  report : Report

/-- One run of a compiler. -/
structure Run where
  /-- The lines printed. -/
  printed : List String
  log : List Log.Record
  result : Except Fault Result

/-- Lines as a text. -/
def linesText (lines : List String) : String := String.join (lines.map (· ++ "\n"))

namespace Compiler

/-- A compiler that has not run. -/
def ofName (name : String) : Compiler := ⟨name, none, none, none, []⟩

/-- The report on what the compiler holds. -/
def report (c : Compiler) : Report :=
  { isValid := !c.messages.hasErrors
    errors := c.messages.errors.map (·.message)
    warnings := c.messages.warnings.map (·.message)
    canvas := c.model.map (·.canvas)
    rooms := (c.model.map (·.rooms.length)).getD 0
    walls := (c.model.map (·.walls.length)).getD 0
    doors := (c.model.map (·.doors.length)).getD 0
    grids := (c.model.map (·.grids.length)).getD 0 }

/-! ### The account of a run -/

/-- A line of `n` equal signs. -/
def bar (n : Nat) : String := String.ofList (List.replicate n '=')

/-- The head of the account. -/
def banner : List String :=
  [bar 60, "FLOOR PLAN COMPILER", bar 60, "\n[PHASE 1: LEXICAL ANALYSIS]"]

/-- A mark for success or failure. -/
def tick (ok : Bool) : String := if ok then "✓" else "✗"

/-- The account of a lexical error. -/
def lexErrorLines (e : LexError) : List String := ["  ✗ " ++ e.message]

/-- The account of lexing, up to the start of parsing. -/
def tokenLines (ts : List Token) : List String :=
  ["  ✓ " ++ (ts.length - 1).repr ++ " tokens", "\n[PHASE 2: PARSING]"]

/-- The account of parsing, up to the start of lowering. -/
def drawingLines (d : Drawing) : List String :=
  ["  ✓ @draw " ++ d.name ++ ": " ++ d.units.length.repr ++ " units, " ++
     d.rooms.length.repr ++ " rooms, " ++ d.walls.length.repr ++ " walls, " ++
     d.doors.length.repr ++ " doors, " ++ d.grids.length.repr ++ " grids, " ++
     d.repeats.length.repr ++ " repeats",
   "\n[PHASE 3: SEMANTIC COMPILATION]"]

/-- A problem in the account. -/
def messageLine (d : Diagnostic) : String :=
  "    [" ++ (if d.isError then "ERROR" else "WARN") ++ "] " ++ d.message ++ Diagnostic.place d.span

/-- The account of lowering and of writing the outputs. -/
def modelLines (m : Model) (messages : Diagnostics) : List String :=
  let ok := !messages.hasErrors
  ["  ✓ Scale: " ++ Number.compact m.scale ++ "px per U",
   "  ✓ Canvas: " ++ Number.compact m.canvas.cols ++ " x " ++ Number.compact m.canvas.rows ++ " U",
   "  " ++ tick ok ++ " Diagnostics " ++ (if ok then "CLEAN" else "HAVE ERRORS")] ++
  messages.map messageLine ++
  ["\n[PHASE 4: CODE GENERATION]", "  ✓ JSON & CSS generated"]

/-! ### Compilation -/

/-- The indent of the JSON output. -/
def jsonIndent : Option Int := some 2

/-- The outputs made from a model. -/
def outputs (m : Model) : Outputs := ⟨m.toJson jsonIndent, Stylesheet.render m, m⟩

/-- Compiles a source and, if `verbose`, gives an account of it. -/
def compile (c : Compiler) (verbose : Bool) (source : String) : Run × Compiler :=
  let say := fun (lines : List String) => if verbose then lines else []
  let c := ofName c.name
  match tokenize source with
  | .error e =>
    let c := { c with
      messages := [.error .lexical e.message (some ⟨e.position, e.position⟩) none] }
    (⟨say (banner ++ lexErrorLines e), [], .ok ⟨none, c.report⟩⟩, c)
  | .ok ts =>
    let c := { c with tokens := some ts }
    let printed := banner ++ tokenLines ts
    match parse ts with
    | .error fault => (⟨say printed, [], .error fault⟩, c)
    | .ok parsed =>
      let c := { c with drawing := some parsed.drawing, messages := parsed.messages }
      let printed := printed ++ drawingLines parsed.drawing
      match Lower.drawing parsed.drawing { Lowering.empty with messages := parsed.messages } with
      | .error fault s =>
        (⟨say printed, s.log, .error fault⟩, { c with messages := s.messages })
      | .ok model s =>
        let c := { c with model := some model, messages := s.messages }
        let printed := printed ++ modelLines model s.messages
        (⟨say printed, s.log, .ok ⟨some (outputs model), c.report⟩⟩, c)

end Compiler

end FloorPlan
