import FloorPlan.Drawing

/-! # Models

A model is a drawing with every length in base units. It is what the outputs are made from. -/

namespace FloorPlan

namespace Model

/-- The size of the sheet. -/
structure Canvas where
  cols : Float
  rows : Float
  deriving DecidableEq, Repr

/-- A room with its label and style. -/
structure Room where
  id : String
  x : Float
  y : Float
  w : Float
  h : Float
  label : Option String
  css : Option (Entries String)
  deriving DecidableEq, Repr

/-- A wall with its length and its angle in degrees. -/
structure Wall where
  line : Segment
  length : Float
  angle : Float
  deriving DecidableEq, Repr

/-- A door with its width, its length and its angle in degrees. -/
structure Door where
  line : Segment
  width : Float
  length : Float
  angle : Float
  deriving DecidableEq, Repr

/-- A background grid. -/
structure Grid where
  mode : String
  sx : Float
  sy : Float
  color : Option String
  alpha : Option Float
  deriving DecidableEq, Repr

end Model

/-- A drawing in base units. -/
structure Model where
  /-- The pixels of the base unit. -/
  scale : Float
  canvas : Model.Canvas
  /-- The pixels of every known unit. -/
  units : Entries Float
  rooms : List Model.Room
  walls : List Model.Wall
  doors : List Model.Door
  grids : List Model.Grid
  deriving DecidableEq, Repr

end FloorPlan
