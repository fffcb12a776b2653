import FloorPlan.Drawing
import FloorPlan.Drawing.Parser
import FloorPlan.Number.Reader

/-! # The grammar of drawings

    drawing   ::= module? top* '@draw' IDENTIFIER '{' canvas item* '}'
    module    ::= '@module' IDENTIFIER ';'
    top       ::= unit | HIERARCHY ';'? | import | export
    unit      ::= '@unit' IDENTIFIER? '=' measure ';'
    canvas    ::= '@canvas' measure 'x' measure ';'
    item      ::= room | wall | door | grid | repeat | use
    room      ::= 'room' IDENTIFIER 'at' coord 'size' coord ('{' property* '}' | ';')?
    property  ::= 'label' ':' STRING ';' | IDENTIFIER ':' token* ';'
    wall      ::= 'wall' 'from' coord 'to' coord ';'
    door      ::= 'door' 'from' coord 'to' coord 'width' measure ';'
    repeat    ::= 'repeat' IDENTIFIER 'from' coord 'to' coord 'space' measure ';'
    grid      ::= '@grid' mode? ('size' measure ('x' measure)?)?
                  ('color' ('#' hexpart+ | IDENTIFIER))? ('alpha' measure)? ';'
    coord     ::= '(' measure ',' measure ')'
    measure   ::= NUMBER IDENTIFIER?

Every production goes on after an error: a missing token is reported and left out, and a token
that starts nothing is reported and dropped. -/

namespace FloorPlan

open Drawing

/-- A number with its unit. -/
structure Measure where
  value : Float
  unit : String
  deriving DecidableEq, Repr

/-- A statement before the draw block. -/
inductive TopItem where
  | unit (u : UnitDecl)
  | imported (i : Import)
  | exported (e : Export)

namespace TopItem

/-- The declared unit. -/
def unit? : TopItem → Option UnitDecl
  | unit u => some u
  | _ => none

/-- The import. -/
def imported? : TopItem → Option Import
  | imported i => some i
  | _ => none

/-- The export. -/
def exported? : TopItem → Option Export
  | exported e => some e
  | _ => none

end TopItem

/-- A statement in the draw block. -/
inductive BodyItem where
  | room (r : Room)
  | wall (w : Wall)
  | door (d : Door)
  | grid (g : Grid)
  | copies (r : Repeat)
  | placement (p : Placement)

namespace BodyItem

/-- The room. -/
def room? : BodyItem → Option Room
  | room r => some r
  | _ => none

/-- The wall. -/
def wall? : BodyItem → Option Wall
  | wall w => some w
  | _ => none

/-- The door. -/
def door? : BodyItem → Option Door
  | door d => some d
  | _ => none

/-- The grid. -/
def grid? : BodyItem → Option Grid
  | grid g => some g
  | _ => none

/-- The repeat pattern. -/
def copies? : BodyItem → Option Repeat
  | copies r => some r
  | _ => none

/-- The placement. -/
def placement? : BodyItem → Option Placement
  | placement p => some p
  | _ => none

end BodyItem

/-- A statement in a room's braces. -/
inductive Property where
  | label (text : Option String)
  | style (name value : String)

/-- The text of a label. -/
def Property.label? : Property → Option String
  | .label text => text
  | .style _ _ => none

/-- The name and value of a style property. -/
def Property.style? : Property → Option (String × String)
  | .label _ => none
  | .style name value => some (name, value)

/-- An option of a placement. -/
inductive PlacementOption where
  | place (c : Coordinate)
  | rotate (angle : Float)
  | scale (factor : Float)

namespace Parse

/-! ### Shared productions -/

/-- The value of a number token. -/
def numberValue (t : Token) : Parse Float :=
  match Number.readFloat? t.value with
  | some x => return x
  | none => throw (.badNumber t.value)

/-- A number; a missing one is zero. -/
def number : Parse Float := do
  match ← expect .number with
  | some t => numberValue t
  | none => return 0

/-- A number and the identifier after it, which is its unit. -/
def measure : Parse Measure := do
  let value ← number
  return ⟨value, (← identifier?).getD baseUnit⟩

/-- A point. The first component decides the unit. -/
def coordinate : Parse Coordinate := do
  skip .leftParen
  let x ← measure
  skip .comma
  let y ← measure
  skip .rightParen
  return ⟨x.value, y.value, x.unit⟩

/-- The number of tokens up to the end of a statement: a semicolon outside braces, a brace that
closes an outer block, the draw block or the end. -/
def statementWidth (depth : Nat) : List Token → Nat
  | [] => 0
  | t :: ts =>
    match t.kind with
    | .endOfInput | .atDraw => 0
    | .semicolon => if depth = 0 then 0 else 1 + statementWidth depth ts
    | .leftBrace => 1 + statementWidth (depth + 1) ts
    | .rightBrace => if depth = 0 then 0 else 1 + statementWidth (depth - 1) ts
    | _ => 1 + statementWidth depth ts

/-- Drops what is left of a statement, its semicolon included. -/
def skipStatement : Parse Unit := do
  modify fun s => s.move (statementWidth 0 s.rest)
  discard (accept? [.semicolon])

/-! ### Before the draw block -/

/-- The name of a declared unit: an identifier before an equals sign, or that of the base unit. -/
def unitName : Parse String := do
  if (← get).sees [.identifier] && (← get).next.kind = .equals then return (← take).value
  else return baseUnit

/-- `@unit m = 100cm;`, or without a name for the base unit. -/
def unitDecl : Parse UnitDecl := do
  let start := (← take).start
  let name ← unitName
  skip .equals
  let size ← measure
  skip .semicolon
  return ⟨name, size.value, size.unit, ← spanFrom start⟩

/-- The value of a token of kind `l` after one of kind `k`. Without the second, the first is taken
for nothing. -/
def valueAfter (k l : Kind) : Parse (Option String) := do
  if ← acceptsBefore k l then return some (← take).value else return none

/-- `import name as other from "source";` -/
def importDecl : Parse Import := do
  let start := (← take).start
  let name := (← identifier?).getD ""
  let localName ← valueAfter .asWord .identifier
  let source ← valueAfter .fromWord .string
  skipStatement
  return ⟨name, localName, source, ← spanFrom start⟩

/-- `export default name;` -/
def exportDecl : Parse Export := do
  let start := (← take).start
  let isDefault ← accepts [.defaultWord]
  let name := (← identifier?).getD ""
  skipStatement
  return ⟨name, isDefault, ← spanFrom start⟩

/-- A statement before the draw block; section marks give nothing. -/
def topItem : Parse (Option TopItem) := do
  if ← accepts [.hierarchy] then
    discard (accept? [.semicolon])
    return none
  match (← get).current.kind with
  | .atUnit => return some (.unit (← unitDecl))
  | .importWord => return some (.imported (← importDecl))
  | .exportWord => return some (.exported (← exportDecl))
  | k =>
    complain ("Unexpected token: " ++ k.text) (some "Expected @unit, import, export or @draw")
    discard take
    return none

/-! ### The draw block -/

/-- Whether a token separates the two numbers of a size. -/
def isTimes (t : Token) : Bool := t.value = "x" || t.value = "X"

/-- The mark between the two numbers of a size, which may be missing. -/
def times : Parse Unit := do
  let t := (← get).current
  if t.kind = .xWord || isTimes t then discard take

/-- `@canvas 10U x 8U;`, whose unit is that of the width. -/
def canvas : Parse Canvas := do
  discard take
  let width ← measure
  times
  let height ← measure
  skip .semicolon
  return ⟨width.value, height.value, width.unit⟩

/-- The kinds that end the value of a style property. -/
def valueEnds : List Kind := [.semicolon, .endOfInput, .rightBrace]

/-- A statement in a room's braces. A style value is the text up to a semicolon or a closing
brace, one blank between tokens. -/
def property : Parse (Option Property) := do
  if ← accepts [.labelWord] then
    skip .colon
    let text ← expect .string
    skip .semicolon
    return some (.label (text.map (·.value)))
  match ← identifier? with
  | some name =>
    skip .colon
    let parts ← takeWhile fun t => !(valueEnds.contains t.kind)
    discard (accept? [.semicolon])
    return some (.style name (" ".intercalate (parts.map (·.value))))
  | none =>
    complain ("Unknown property: " ++ (← get).current.value) none
    discard take
    return none

/-- The braces of a room, which may be replaced by a semicolon or left out. -/
def roomBody : Parse (List Property) := do
  if ← accepts [.leftBrace] then
    let properties ← many [.rightBrace, .endOfInput] property
    skip .rightBrace
    return properties
  else
    discard (accept? [.semicolon])
    return []

/-- A room. Of several labels the last one with a text counts. -/
def room : Parse Room := do
  let start := (← take).start
  let id ← expectValue .identifier
  skip .atWord
  let place ← coordinate
  skip .sizeWord
  let size ← coordinate
  let properties ← roomBody
  let label := (properties.filterMap Property.label?).getLast?
  let style := Entries.ofPairs (properties.filterMap Property.style?)
  return ⟨id, place.x, place.y, size.x, size.y, place.unit, label,
    if style.isEmpty then none else some style, ← spanFrom start⟩

/-- `from (a, b) to (c, d)`, whose unit is that of the first point. -/
def segment : Parse (Segment × String) := do
  skip .fromWord
  let a ← coordinate
  skip .toWord
  let b ← coordinate
  return (⟨a.x, a.y, b.x, b.y⟩, a.unit)

/-- A wall. -/
def wall : Parse Wall := do
  let start := (← take).start
  let (line, unit) ← segment
  skip .semicolon
  return ⟨line, unit, ← spanFrom start⟩

/-- A door. -/
def door : Parse Door := do
  let start := (← take).start
  let (line, unit) ← segment
  skip .widthWord
  let width ← measure
  skip .semicolon
  return ⟨line, width.value, unit, ← spanFrom start⟩

/-- A repeat pattern. -/
def copies : Parse Repeat := do
  let start := (← take).start
  let component ← expectValue .identifier
  let (line, unit) ← segment
  skip .spaceWord
  let spacing ← measure
  skip .semicolon
  return ⟨component, line, spacing.value, unit, ← spanFrom start⟩

/-- The words for the grid modes. -/
def modeWords : List Kind := [.gridWord, .linesWord, .vlinesWord, .hlinesWord, .dottedWord]

/-- The size of a grid and its unit; one number stands for both directions. -/
def gridSize : Parse (Float × Float × String) := do
  if ← accepts [.sizeWord] then
    let size ← measure
    if isTimes (← get).current then
      discard take
      return (size.value, (← measure).value, size.unit)
    return (size.value, size.value, size.unit)
  return (1, 1, baseUnit)

/-- The color of a grid. The digits after `#` come as numbers and identifiers. -/
def gridColor : Parse (Option String) := do
  if ← accepts [.colorWord] then
    match ← accept? [.hash] with
    | some t =>
      let parts ← takeWhile fun t => [Kind.number, .identifier].contains t.kind
      return some (String.join (t.value :: parts.map (·.value)))
    | none => identifier?
  else return none

/-- The opacity of a grid. -/
def gridAlpha : Parse (Option Float) := do
  if ← accepts [.alphaWord] then return some (← measure).value else return none

/-- A grid. -/
def grid : Parse Grid := do
  let start := (← take).start
  let mode ← accept? modeWords
  let (sizeX, sizeY, unit) ← gridSize
  let color ← gridColor
  let alpha ← gridAlpha
  skip .semicolon
  return ⟨(mode.map (·.value)).getD "grid", sizeX, sizeY, unit, color, alpha, ← spanFrom start⟩

/-- An option of a placement. An option word without its argument is passed over, and so is the
token after it. -/
def placementOption : Parse (Option PlacementOption) := do
  if ← acceptsBefore .atWord .leftParen then
    return some (.place (← coordinate))
  if ← acceptsBefore .rotateWord .number then
    return some (.rotate (← measure).value)
  if ← acceptsBefore .scaleWord .number then
    return some (.scale (← measure).value)
  discard take
  return none

/-- A placement; of several options of one sort the last one counts. -/
def placement : Parse Placement := do
  let start := (← take).start
  let source := (← identifier?).getD ""
  let part ← valueAfter .dot .identifier
  let options ← many [.semicolon, .rightBrace, .endOfInput] placementOption
  discard (accept? [.semicolon])
  let place := options.filterMap fun | .place c => some c | _ => none
  let rotate := options.filterMap fun | .rotate x => some x | _ => none
  let scale := options.filterMap fun | .scale x => some x | _ => none
  return ⟨source, part, place.getLast?, rotate.getLast?, scale.getLast?, ← spanFrom start⟩

/-- A statement in the draw block. -/
def bodyItem : Parse (Option BodyItem) := do
  match (← get).current.kind with
  | .roomWord => return some (.room (← room))
  | .wallWord => return some (.wall (← wall))
  | .doorWord => return some (.door (← door))
  | .atGrid => return some (.grid (← grid))
  | .useWord => return some (.placement (← placement))
  | .repeatWord => return some (.copies (← copies))
  | k =>
    complain ("Unexpected token in draw body: " ++ k.text) none
    discard take
    return none

/-! ### The drawing -/

/-- `@module name;` -/
def moduleDecl : Parse Module := do
  let start := (← take).start
  let name ← expectValue .identifier
  skip .semicolon
  return ⟨name, ← spanFrom start⟩

/-- The module declaration at the front, which may be missing. -/
def moduleDecl? : Parse (Option Module) := do
  if ← sees [.atModule] then return some (← moduleDecl) else return none

/-- The canvas of a drawing without one. -/
def fallbackCanvas : Canvas := ⟨10, 10, baseUnit⟩

/-- The canvas at the front of the draw block, which is required. -/
def requiredCanvas : Parse Canvas := do
  if ← sees [.atCanvas] then canvas
  else
    complain "@canvas is required inside @draw" (some "@canvas 10U x 10U;")
    return fallbackCanvas

/-- Warns of tokens after the draw block. -/
def warnTrailing : Parse Unit := do
  unless ← sees [.endOfInput] do
    modify fun s => s.report
      (.warning .grammar "Content after the draw block is ignored" s.current.span)

/-- A whole drawing. -/
def drawing : Parse Drawing := do
  let start := (← get).current.start
  let module ← moduleDecl?
  let top ← many [.atDraw, .endOfInput] topItem
  skip .atDraw
  let name ← expectValue .identifier
  skip .leftBrace
  let canvas ← requiredCanvas
  let body ← many [.rightBrace, .endOfInput] bodyItem
  skip .rightBrace
  let span ← spanFrom start
  warnTrailing
  return {
    name, canvas, module, span
    units := top.filterMap TopItem.unit?
    imports := top.filterMap TopItem.imported?
    exports := top.filterMap TopItem.exported?
    rooms := body.filterMap BodyItem.room?
    walls := body.filterMap BodyItem.wall?
    doors := body.filterMap BodyItem.door?
    grids := body.filterMap BodyItem.grid?
    repeats := body.filterMap BodyItem.copies?
    placements := body.filterMap BodyItem.placement? }

end Parse

/-- What parsing gives: a drawing in any case, and the problems found. -/
structure Parsed where
  drawing : Drawing
  messages : Diagnostics

/-- Parses a list of tokens. -/
def parse (ts : List Token) : Except Fault Parsed :=
  match Parse.drawing (Parser.ofTokens ts) with
  | .ok drawing s => .ok ⟨drawing, s.messages⟩
  | .error fault _ => .error fault

end FloorPlan
