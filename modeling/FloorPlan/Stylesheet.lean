import FloorPlan.Model
import FloorPlan.Stylesheet.Color
import FloorPlan.Text.Quoted

/-! # Style sheets

The style sheet positions the parts of a model by custom properties that the page sets. Of the
grids only the first one is drawn. -/

namespace FloorPlan.Stylesheet

open Number (compact)

/-- The label of the rooms that are drawn as windows. -/
def windowLabel : String := "Window"

/-- The color of a grid without one. -/
def defaultGridColor : String := "#ddd"

/-- The opacity of a grid without one. -/
def defaultGridAlpha : Float := 0.1

/-- The color of a grid; an empty one counts as none. -/
def gridColor (g : Model.Grid) : String :=
  match g.color with
  | some c => if c.isEmpty then defaultGridColor else c
  | none => defaultGridColor

/-- The opacity of a grid. -/
def gridAlpha (g : Model.Grid) : Float := g.alpha.getD defaultGridAlpha

/-- A rule: its selectors and the lines of its block, with an empty line after it. -/
def rule (selector : String) (block : List String) : List String :=
  (selector ++ " " ++ Text.leftBrace) :: block ++ [Text.rightBrace, ""]

/-- The rule of the sheet itself. -/
def drawingRule (m : Model) : List String :=
  rule ".draw"
    ["  /* CSS custom properties */",
     "  --u: " ++ compact m.scale ++ "px;",
     "  --cols: " ++ compact m.canvas.cols ++ ";",
     "  --rows: " ++ compact m.canvas.rows ++ ";",
     "",
     "  /* Layout */",
     "  position: relative;",
     "  width: calc(var(--cols) * var(--u));",
     "  height: calc(var(--rows) * var(--u));",
     "  overflow: hidden;",
     "",
     "  /* Default styling */",
     "  background: #fafafa;",
     "  color: #333;",
     "  font-family: system-ui, -apple-system, sans-serif;"]

/-- The modes that a grid's rule answers to: its own and the two general ones. -/
def gridModes (mode : String) : List String :=
  [mode, "grid", "lines"].foldl (fun ms m => if ms.contains m then ms else ms ++ [m]) []

/-- The selectors of a grid's rule. -/
def gridSelector (mode : String) : String :=
  ",\n".intercalate ((gridModes mode).map fun m => ".draw[data-grid=\"" ++ m ++ "\"]")

/-- The lines of one direction of a grid, `margin` blanks in. -/
def gridLines (margin : String) (direction stop size : String) : List String :=
  [margin ++ "  to " ++ direction ++ ",",
   margin ++ "  " ++ stop ++ " 0 1px,",
   margin ++ "  transparent 1px calc(var(--u) * " ++ size ++ ")"]

/-- The block of a grid's rule. -/
def gridBlock (g : Model.Grid) : List String :=
  let stop := translucent (gridColor g) (.real (gridAlpha g))
  let sx := compact g.sx
  let sy := compact g.sy
  if g.mode = "dotted" then
    ["  background-image: radial-gradient(circle at center, " ++ stop ++ " 1px, transparent 1px);",
     "  background-size: calc(var(--u) * " ++ sx ++ ") calc(var(--u) * " ++ sy ++ ");"]
  else if g.mode = "vlines" then
    "  background-image: repeating-linear-gradient(" ::
      gridLines "  " "right" stop sx ++ ["  );"]
  else if g.mode = "hlines" then
    "  background-image: repeating-linear-gradient(" ::
      gridLines "  " "bottom" stop sy ++ ["  );"]
  else
    ["  background-image:", "    repeating-linear-gradient("] ++
      gridLines "    " "right" stop sx ++ ["    ),", "    repeating-linear-gradient("] ++
      gridLines "    " "bottom" stop sy ++ ["    );"]

/-- The rule of the first grid. -/
def gridRule (m : Model) : List String :=
  match m.grids with
  | [] => []
  | g :: _ => rule (gridSelector g.mode) (gridBlock g)

/-- The selector of the rooms drawn as windows. -/
def windowSelector : String := ".room[data-label=\"" ++ windowLabel ++ "\"]"

/-- The rules of the rooms. -/
def roomRules : List String :=
  rule ".room"
    ["  position: absolute;",
     "  left: calc(var(--x) * var(--u));",
     "  top: calc(var(--y) * var(--u));",
     "  width: calc(var(--w) * var(--u));",
     "  height: calc(var(--h) * var(--u));",
     "  background: rgba(255, 255, 255, 0.9);",
     "  border: 2px solid #333;",
     "  box-sizing: border-box;"] ++
  rule windowSelector
    ["  background: linear-gradient(135deg, #e3f2fd 0%, #bbdefb 100%);",
     "  border: 2px solid #1976d2;",
     "  z-index: 8;"] ++
  rule ".room::after"
    ["  content: attr(data-label);",
     "  position: absolute;",
     "  inset: 0;",
     "  display: flex;",
     "  align-items: center;",
     "  justify-content: center;",
     "  font-size: 14px;",
     "  font-weight: 500;",
     "  text-align: center;",
     "  padding: 8px;",
     "  pointer-events: none;"] ++
  rule (windowSelector ++ "::after") ["  font-size: 0;"]

/-- The rule of the walls. -/
def wallRule : List String :=
  rule ".wall"
    ["  position: absolute;",
     "  left: calc(var(--x) * var(--u));",
     "  top: calc(var(--y) * var(--u));",
     "  width: calc(var(--len) * var(--u));",
     "  height: 4px;",
     "  background: #333;",
     "  transform-origin: left center;",
     "  transform: rotate(calc(var(--angle) * 1deg));",
     "  pointer-events: none;",
     "  z-index: 5;"]

/-- The rule of the doors. -/
def doorRule : List String :=
  rule ".door"
    ["  position: absolute;",
     "  left: calc(var(--x) * var(--u));",
     "  top: calc(var(--y) * var(--u));",
     "  width: calc(var(--len) * var(--u));",
     "  height: calc(var(--w) * var(--u));",
     "  background: white;",
     "  border: 2px solid #4080ff;",
     "  box-sizing: border-box;",
     "  transform-origin: left center;",
     "  transform: rotate(calc(var(--angle) * 1deg));",
     "  pointer-events: none;",
     "  z-index: 10;"]

/-- The lines of a model's style sheet. -/
def lines (m : Model) : List String :=
  ["/* Generated by floorplan-compiler */", ""] ++ drawingRule m ++ gridRule m ++ roomRules ++
    wallRule ++ doorRule

/-- The style sheet of a model. -/
def render (m : Model) : String := "\n".intercalate (lines m)

end FloorPlan.Stylesheet
