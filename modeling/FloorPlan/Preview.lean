import FloorPlan.Stylesheet
import FloorPlan.Text.Markup
import FloorPlan.Fault

/-! # Previews

An SVG picture of a model, with the geometry that the style sheet positions, in pixels. -/

namespace FloorPlan.Preview

open Number (compact)
open Stylesheet (gridColor gridAlpha windowLabel)

/-- The thickness of a wall in pixels. -/
def wallThickness : Float := 4

/-- A length in pixels. -/
def px (m : Model) (value : Float) : String := compact (value * m.scale)

/-- An attribute with its blank in front, for values that need no escapes. -/
def attr (name value : String) : String := " " ++ name ++ "=\"" ++ value ++ "\""

/-- An element without content. -/
def element (name attrs : String) : String := "<" ++ name ++ attrs ++ "/>"

/-- The pattern of the first grid. -/
def gridLines (m : Model) : List String :=
  match m.grids with
  | [] => []
  | g :: _ =>
    let sx := px m g.sx
    let sy := px m g.sy
    let color := gridColor g
    let alpha := compact (gridAlpha g)
    let paint := attr "stroke" color ++ attr "stroke-opacity" alpha ++ attr "stroke-width" "1"
    let line := fun x y => element "line"
      (attr "x1" "0" ++ attr "y1" "0" ++ attr "x2" x ++ attr "y2" y ++ paint)
    ["<defs>",
     "<pattern" ++ attr "id" "grid" ++ attr "width" sx ++ attr "height" sy ++
       attr "patternUnits" "userSpaceOnUse" ++ ">"] ++
    (if g.mode = "dotted" then
      [element "circle" (attr "cx" "0" ++ attr "cy" "0" ++ attr "r" "1" ++ attr "fill" color ++
        attr "fill-opacity" alpha)] else []) ++
    (if ["grid", "lines", "vlines"].contains g.mode then [line "0" sy] else []) ++
    (if ["grid", "lines", "hlines"].contains g.mode then [line sx "0"] else []) ++
    ["</pattern>", "</defs>"]

/-- A filled sheet. -/
def sheet (m : Model) (fill : String) : String :=
  element "rect" (attr "x" "0" ++ attr "y" "0" ++ attr "width" (px m m.canvas.cols) ++
    attr "height" (px m m.canvas.rows) ++ attr "fill" fill)

/-- Whether a room is drawn as a window. -/
def isWindow (r : Model.Room) : Bool := r.label = some windowLabel

/-- The paint of a room. -/
def roomPaint (r : Model.Room) : String :=
  if isWindow r then attr "fill" "#bbdefb" ++ attr "stroke" "#1976d2"
  else attr "fill" "rgba(255, 255, 255, 0.9)" ++ attr "stroke" "#333"

/-- The label of a room, in its middle. -/
def roomText (m : Model) (r : Model.Room) : List String :=
  match r.label with
  | some label =>
    if label.isEmpty || isWindow r then []
    else
      ["<text" ++ attr "x" (px m (r.x + r.w / 2)) ++ attr "y" (px m (r.y + r.h / 2)) ++
        attr "text-anchor" "middle" ++ attr "dominant-baseline" "middle" ++ attr "fill" "#333" ++
        ">" ++ Text.markup label ++ "</text>"]
  | none => []

/-- A room with its label. -/
def roomLines (m : Model) (r : Model.Room) : List String :=
  element "rect" (" id=" ++ Text.attributeText r.id ++ attr "x" (px m r.x) ++ attr "y" (px m r.y) ++
    attr "width" (px m r.w) ++ attr "height" (px m r.h) ++ roomPaint r ++
    attr "stroke-width" "2") :: roomText m r

/-- A turn by an angle around the start of a line. -/
def turn (m : Model) (angle : Float) (l : Segment) : String :=
  attr "transform" ("rotate(" ++ compact angle ++ " " ++ px m l.x1 ++ " " ++ px m l.y1 ++ ")")

/-- A wall. -/
def wallLine (m : Model) (w : Model.Wall) : String :=
  element "rect" (attr "x" (px m w.line.x1) ++
    attr "y" (compact (w.line.y1 * m.scale - wallThickness / 2)) ++
    attr "width" (px m w.length) ++ attr "height" (compact wallThickness) ++
    attr "fill" "#333" ++ turn m w.angle w.line)

/-- A door. -/
def doorLine (m : Model) (d : Model.Door) : String :=
  element "rect" (attr "x" (px m d.line.x1) ++
    attr "y" (compact (d.line.y1 * m.scale - d.width * m.scale / 2)) ++
    attr "width" (px m d.length) ++ attr "height" (px m d.width) ++
    attr "fill" "white" ++ attr "stroke" "#4080ff" ++ attr "stroke-width" "2" ++
    turn m d.angle d.line)

/-- A named group of elements. -/
def group (name : String) (content : List String) : List String :=
  ("<g" ++ attr "id" name ++ ">") :: content ++ ["</g>"]

/-- The lines of a model's picture. -/
def lines (m : Model) : List String :=
  ["<?xml version=\"1.0\"?>",
   "<svg" ++ attr "width" (px m m.canvas.cols) ++ attr "height" (px m m.canvas.rows) ++
     attr "xmlns" "http://www.w3.org/2000/svg" ++ ">",
   "<style>text" ++ Text.braced "font:14px system-ui, sans-serif" ++ "</style>"] ++
  gridLines m ++
  [sheet m "#fafafa"] ++
  (if m.grids.isEmpty then [] else [sheet m "url(#grid)"]) ++
  group "rooms" (m.rooms.flatMap (roomLines m)) ++
  group "walls" (m.walls.map (wallLine m)) ++
  group "doors" (m.doors.map (doorLine m)) ++
  ["</svg>"]

/-- The picture of a model. -/
def render (m : Model) : String := "\n".intercalate (lines m)

/-- The picture in pixels, which needs a rasteriser. None is at hand. -/
def rasterise (_ : Model) : Except Fault String := .error .noRasteriser

end FloorPlan.Preview
