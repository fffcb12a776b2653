import FloorPlan.Model
import FloorPlan.Json

/-! # Models as JSON

Absent labels, styles, colors and opacities have no member. -/

namespace FloorPlan.Model

/-- A member that is left out when it has no value. -/
def optional {α : Type} (name : String) (f : α → Json) (a : Option α) : List (String × Json) :=
  (a.map fun v => (name, f v)).toList

/-- Texts by name. -/
def textsJson (es : Entries String) : Json := .object (es.map fun e => (e.1, .text e.2))

/-- Numbers by name. -/
def numbersJson (es : Entries Float) : Json := .object (es.map fun e => (e.1, .number e.2))

/-- The ends of a line. -/
def lineMembers (l : Segment) : Entries Float :=
  [("x1", l.x1), ("y1", l.y1), ("x2", l.x2), ("y2", l.y2)]

/-- A room. -/
def Room.json (r : Room) : Json :=
  .object ([("id", .text r.id), ("x", .number r.x), ("y", .number r.y), ("w", .number r.w),
      ("h", .number r.h)] ++
    optional "label" .text r.label ++ optional "css" textsJson r.css)

/-- A wall. -/
def Wall.json (w : Wall) : Json :=
  numbersJson (lineMembers w.line ++ [("length", w.length), ("angle", w.angle)])

/-- A door. -/
def Door.json (d : Door) : Json :=
  numbersJson (lineMembers d.line ++
    [("width", d.width), ("length", d.length), ("angle", d.angle)])

/-- A grid. -/
def Grid.json (g : Grid) : Json :=
  .object ([("mode", .text g.mode), ("sx", .number g.sx), ("sy", .number g.sy)] ++
    optional "color" .text g.color ++ optional "alpha" .number g.alpha)

/-- A model as a JSON value. -/
def json (m : Model) : Json :=
  .object
    [("scale", .number m.scale),
     ("canvas", numbersJson [("cols", m.canvas.cols), ("rows", m.canvas.rows)]),
     ("units", numbersJson m.units),
     ("rooms", .list (m.rooms.map Room.json)),
     ("walls", .list (m.walls.map Wall.json)),
     ("doors", .list (m.doors.map Door.json)),
     ("grids", .list (m.grids.map Grid.json))]

/-- The JSON text of a model. -/
def toJson (m : Model) (indent : Option Int) : String := m.json.render indent

end FloorPlan.Model
