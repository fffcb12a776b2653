import FloorPlan.Model
import FloorPlan.Units
import FloorPlan.Fault
import FloorPlan.Text.Lower

/-! # From drawings to models

Every length is converted to base units. A length in an unusable unit is kept as it is, with one
warning for each part of the drawing. Repeat patterns become rooms along their line. -/

namespace FloorPlan

open Drawing (Repeat)

/-- What lowering leaves besides the model. -/
structure Lowering where
  /-- The problems found so far. -/
  messages : Diagnostics
  /-- The log so far. -/
  log : List Log.Record
  /-- The units that were warned of, with the part of the drawing. -/
  reported : List (String × Option Span)

/-- The state before any lowering. -/
def Lowering.empty : Lowering := ⟨[], [], []⟩

/-- A lowering step: it ends with a result or a fault, in a new state. -/
abbrev Lower := EStateM Fault Lowering

namespace Lower

/-- Writes to the log. -/
def note (rs : List Log.Record) : Lower Unit := modify fun s => { s with log := s.log ++ rs }

/-- Warns in the diagnostics and in the log. -/
def warn (text : String) (span : Option Span) : Lower Unit :=
  let (d, r) := semanticWarning text span
  modify fun s => { s with messages := s.messages ++ [d], log := s.log ++ [r] }

/-! ### Repeat patterns -/

/-- The side of the square room that stands for a copy. -/
def footprint : Float := 0.3

/-- The number of copies on a line, which starts and ends with one. -/
def copyCount (r : Repeat) : Except Number.Unbounded Nat := do
  let dx := r.line.x2 - r.line.x1
  let dy := r.line.y2 - r.line.y1
  let steps ← Number.floor (Number.distance dx dy / r.spacing)
  return (steps + 1).toNat

/-- The copy with index `i` of `count` copies evenly spread along the line. -/
def copyRoom (r : Repeat) (count i : Nat) : Drawing.Room :=
  let t := Float.ofNat i / Float.ofNat (max (count - 1) 1)
  { id := Text.lower r.component ++ "_" ++ i.repr
    x := r.line.x1 + (r.line.x2 - r.line.x1) * t
    y := r.line.y1 + (r.line.y2 - r.line.y1) * t
    width := footprint
    height := footprint
    unit := r.unit
    label := some r.component
    properties := none
    span := r.span }

/-- The rooms of a repeat pattern; one whose spacing is not positive is skipped with a warning. -/
def copies (r : Repeat) : Lower (List Drawing.Room) := do
  if r.spacing ≤ 0 then
    warn ("Repeat spacing must be positive for " ++ r.component ++ ", pattern skipped") r.span
    return []
  match copyCount r with
  | .ok count => return (List.range count).map (copyRoom r count)
  | .error cause => throw (.unbounded cause)

/-- The rooms of all repeat patterns in order. -/
def expandRepeats (rs : List Repeat) : Lower (List Drawing.Room) :=
  List.flatten <$> rs.mapM copies

/-! ### Lengths -/

/-- What is said of a unit without a usable size. -/
def unusableText (t : UnitTable) (unit : String) : String :=
  if t.sizes.has unit then
    "Unit " ++ (if t.scale == 0 then baseUnit else unit) ++ " resolves to 0px, using value as-is"
  else "Unknown unit: " ++ unit ++ ", using value as-is"

/-- A length in base units. An unusable unit is warned of once for each part of the drawing. -/
def toBase (t : UnitTable) (unit : String) (span : Option Span) (value : Float) : Lower Float := do
  match t.toBase? value unit with
  | some x => return x
  | none =>
    unless (← get).reported.contains (unit, span) do
      modify fun s => { s with reported := (unit, span) :: s.reported }
      warn (unusableText t unit) span
    return value

/-- The length of a line and its angle in degrees. -/
def measureLine (l : Segment) : Float × Float :=
  let dx := l.x2 - l.x1
  let dy := l.y2 - l.y1
  (Number.distance dx dy, Float.atan2 dy dx * (180 / 3.141592653589793))

/-- A line in base units. -/
def segment (t : UnitTable) (unit : String) (span : Option Span) (l : Segment) : Lower Segment := do
  let x1 ← toBase t unit span l.x1
  let y1 ← toBase t unit span l.y1
  let x2 ← toBase t unit span l.x2
  let y2 ← toBase t unit span l.y2
  return ⟨x1, y1, x2, y2⟩

/-! ### Parts of a drawing -/

/-- The canvas; its warnings name the whole drawing. -/
def canvas (t : UnitTable) (d : Drawing) : Lower Model.Canvas := do
  let cols ← toBase t d.canvas.unit d.span d.canvas.width
  let rows ← toBase t d.canvas.unit d.span d.canvas.height
  return ⟨cols, rows⟩

/-- A room. -/
def room (t : UnitTable) (r : Drawing.Room) : Lower Model.Room := do
  let x ← toBase t r.unit r.span r.x
  let y ← toBase t r.unit r.span r.y
  let w ← toBase t r.unit r.span r.width
  let h ← toBase t r.unit r.span r.height
  return ⟨r.id, x, y, w, h, r.label, r.properties⟩

/-- A wall. -/
def wall (t : UnitTable) (w : Drawing.Wall) : Lower Model.Wall := do
  let line ← segment t w.unit w.span w.line
  let (length, angle) := measureLine line
  return ⟨line, length, angle⟩

/-- A door. -/
def door (t : UnitTable) (d : Drawing.Door) : Lower Model.Door := do
  let line ← segment t d.unit d.span d.line
  let (length, angle) := measureLine line
  let width ← toBase t d.unit d.span d.width
  return ⟨line, width, length, angle⟩

/-- A grid. -/
def grid (t : UnitTable) (g : Drawing.Grid) : Lower Model.Grid := do
  let sx ← toBase t g.unit g.span g.sizeX
  let sy ← toBase t g.unit g.span g.sizeY
  return ⟨g.mode, sx, sy, g.color, g.alpha⟩

/-- A whole drawing. The rooms of repeat patterns come after the others. -/
def drawing (d : Drawing) : Lower Model := do
  let resolution := resolveUnits d.units
  let t := resolution.table
  note resolution.log
  modify fun s => { s with messages := s.messages ++ resolution.diagnostics }
  let copied ← expandRepeats d.repeats
  let canvas ← canvas t d
  let rooms ← (d.rooms ++ copied).mapM (room t)
  let walls ← d.walls.mapM (wall t)
  let doors ← d.doors.mapM (door t)
  let grids ← d.grids.mapM (grid t)
  note [⟨.debug, .compiler, "Compiled " ++ Text.quote d.name ++ ": " ++ rooms.length.repr ++
    " rooms, " ++ walls.length.repr ++ " walls, " ++ doors.length.repr ++ " doors"⟩]
  return ⟨t.scale, canvas, t.sizes, rooms, walls, doors, grids⟩

end Lower

end FloorPlan
