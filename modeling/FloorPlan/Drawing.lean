import FloorPlan.Position
import FloorPlan.Entries

/-! # Drawings

A drawing as it is written: lengths keep their own units, and every part knows where it stands
in the source. Imports, exports and placements are reserved for drawings in several files and
have no effect. -/

namespace FloorPlan

/-- The name of the base unit, which is also the unit of a number written without one. -/
def baseUnit : String := "U"

/-- A straight line between two points. -/
structure Segment where
  x1 : Float
  y1 : Float
  x2 : Float
  y2 : Float
  deriving DecidableEq, Repr

namespace Drawing

/-- A unit with its size in terms of another unit. -/
structure UnitDecl where
  name : String
  value : Float
  unit : String
  span : Option Span
  deriving DecidableEq, Repr

/-- The size of the sheet. -/
structure Canvas where
  width : Float
  height : Float
  unit : String
  deriving DecidableEq, Repr

/-- A rectangular room with a label and style properties. -/
structure Room where
  id : String
  x : Float
  y : Float
  width : Float
  height : Float
  unit : String
  label : Option String
  properties : Option (Entries String)
  span : Option Span
  deriving DecidableEq, Repr

/-- A wall along a line. -/
structure Wall where
  line : Segment
  unit : String
  span : Option Span
  deriving DecidableEq, Repr

/-- A door along a line. -/
structure Door where
  line : Segment
  width : Float
  unit : String
  span : Option Span
  deriving DecidableEq, Repr

/-- A background grid. -/
structure Grid where
  mode : String
  sizeX : Float
  sizeY : Float
  unit : String
  color : Option String
  alpha : Option Float
  span : Option Span
  deriving DecidableEq, Repr

/-- Copies of a component along a line, at least `spacing` apart. -/
structure Repeat where
  component : String
  line : Segment
  spacing : Float
  unit : String
  span : Option Span
  deriving DecidableEq, Repr

/-- The name of the module that a drawing makes up. -/
structure Module where
  name : String
  span : Option Span
  deriving DecidableEq, Repr

/-- A name taken from another file. -/
structure Import where
  name : String
  localName : Option String
  source : Option String
  span : Option Span
  deriving DecidableEq, Repr

/-- A name offered to other files. -/
structure Export where
  name : String
  isDefault : Bool
  span : Option Span
  deriving DecidableEq, Repr

/-- A point with the unit of its coordinates. -/
structure Coordinate where
  x : Float
  y : Float
  unit : String
  deriving DecidableEq, Repr

/-- A place where an imported drawing is put. -/
structure Placement where
  source : String
  part : Option String
  place : Option Coordinate
  rotate : Option Float
  scale : Option Float
  span : Option Span
  deriving DecidableEq, Repr

end Drawing

/-- A drawing as it is written. -/
structure Drawing where
  name : String
  canvas : Drawing.Canvas
  units : List Drawing.UnitDecl
  rooms : List Drawing.Room
  walls : List Drawing.Wall
  doors : List Drawing.Door
  grids : List Drawing.Grid
  repeats : List Drawing.Repeat
  imports : List Drawing.Import
  exports : List Drawing.Export
  placements : List Drawing.Placement
  module : Option Drawing.Module
  span : Option Span
  deriving DecidableEq, Repr

end FloorPlan
