import FloorPlan.Preview
import FloorPlan.Proofs.Xml.Pieces

/-! # The picture as a tree

`Preview.picture` is the tree of elements that the preview of a model stands for.  Reading the
preview gives this tree (`read?_render`) if the identifiers and the labels that it shows consist of
characters that a document may have; a label with another one makes the preview unreadable
(`read?_render_eq_none`).  The variable parts that are not escaped are numbers and the color of a
grid, which are inert.  From the tree follows what the preview shows (`Depicts`). -/

namespace FloorPlan.Preview

open Number (compact)
open Stylesheet (gridColor gridAlpha)
open Xml (ReadsContent ReadsAttributes ReadsTag IsValue IsText lineEnds)

/-! ### The tree of a model -/

/-- The end of a line. -/
def lineBreak : Xml := .char '\n'

/-- An element without content on a line of its own. -/
def leaf (name : String) (attributes : List (String × String)) : List Xml :=
  [lineBreak, .element name attributes []]

/-- An element whose content and end stand on lines of their own. -/
def block (name : String) (attributes : List (String × String)) (content : List Xml) : List Xml :=
  [lineBreak, .element name attributes (content ++ [lineBreak])]

/-- A line of a grid. -/
def gridLine (g : Model.Grid) (x y : String) : List Xml :=
  leaf "line" [("x1", "0"), ("y1", "0"), ("x2", x), ("y2", y), ("stroke", gridColor g),
    ("stroke-opacity", compact (gridAlpha g)), ("stroke-width", "1")]

/-- The content of the pattern of a grid. -/
def gridMarks (m : Model) (g : Model.Grid) : List Xml :=
  (if g.mode = "dotted" then
    leaf "circle" [("cx", "0"), ("cy", "0"), ("r", "1"), ("fill", gridColor g),
      ("fill-opacity", compact (gridAlpha g))] else []) ++
  (if ["grid", "lines", "vlines"].contains g.mode then gridLine g "0" (px m g.sy) else []) ++
  (if ["grid", "lines", "hlines"].contains g.mode then gridLine g (px m g.sx) "0" else [])

/-- The pattern of the first grid. -/
def gridNodes (m : Model) : List Xml :=
  match m.grids with
  | [] => []
  | g :: _ =>
    block "defs" [] (block "pattern"
      [("id", "grid"), ("width", px m g.sx), ("height", px m g.sy),
        ("patternUnits", "userSpaceOnUse")]
      (gridMarks m g))

/-- A filled sheet. -/
def sheetNodes (m : Model) (fill : String) : List Xml :=
  leaf "rect" [("x", "0"), ("y", "0"), ("width", px m m.canvas.cols),
    ("height", px m m.canvas.rows), ("fill", fill)]

/-- The paint of a room. -/
def roomColors (r : Model.Room) : List (String × String) :=
  if isWindow r then [("fill", "#bbdefb"), ("stroke", "#1976d2")]
  else [("fill", "rgba(255, 255, 255, 0.9)"), ("stroke", "#333")]

/-- The label that a room shows: one that is not empty and does not make it a window. -/
def shownLabel? (r : Model.Room) : Option String :=
  r.label.filter fun label => !label.isEmpty && label ≠ Stylesheet.windowLabel

/-- The labels that the rooms of a model show. -/
def labels (m : Model) : List String := m.rooms.filterMap shownLabel?

/-- The label of a room, in its middle; its line ends become newlines. -/
def labelNodes (m : Model) (r : Model.Room) : List Xml :=
  match shownLabel? r with
  | some label =>
    [lineBreak, .element "text"
      [("x", px m (r.x + r.w / 2)), ("y", px m (r.y + r.h / 2)), ("text-anchor", "middle"),
        ("dominant-baseline", "middle"), ("fill", "#333")]
      ((lineEnds label.toList).map .char)]
  | none => []

/-- A room with its label. -/
def roomNodes (m : Model) (r : Model.Room) : List Xml :=
  leaf "rect" ([("id", r.id), ("x", px m r.x), ("y", px m r.y), ("width", px m r.w),
    ("height", px m r.h)] ++ roomColors r ++ [("stroke-width", "2")]) ++ labelNodes m r

/-- The attribute that turns an element by an angle around the start of a line. -/
def turnValue (m : Model) (angle : Float) (l : Segment) : String :=
  "rotate(" ++ compact angle ++ " " ++ px m l.x1 ++ " " ++ px m l.y1 ++ ")"

/-- A wall. -/
def wallNodes (m : Model) (w : Model.Wall) : List Xml :=
  leaf "rect" [("x", px m w.line.x1), ("y", compact (w.line.y1 * m.scale - wallThickness / 2)),
    ("width", px m w.length), ("height", compact wallThickness), ("fill", "#333"),
    ("transform", turnValue m w.angle w.line)]

/-- A door. -/
def doorNodes (m : Model) (d : Model.Door) : List Xml :=
  leaf "rect" [("x", px m d.line.x1),
    ("y", compact (d.line.y1 * m.scale - d.width * m.scale / 2)), ("width", px m d.length),
    ("height", px m d.width), ("fill", "white"), ("stroke", "#4080ff"), ("stroke-width", "2"),
    ("transform", turnValue m d.angle d.line)]

/-- The style of the labels. -/
def styleText : String := "text" ++ Text.braced "font:14px system-ui, sans-serif"

/-- The content of the picture. -/
def pictureNodes (m : Model) : List Xml :=
  [lineBreak, .element "style" [] (styleText.toList.map .char)] ++
  gridNodes m ++
  sheetNodes m "#fafafa" ++
  (if m.grids.isEmpty then [] else sheetNodes m "url(#grid)") ++
  block "g" [("id", "rooms")] (m.rooms.flatMap (roomNodes m)) ++
  block "g" [("id", "walls")] (m.walls.flatMap (wallNodes m)) ++
  block "g" [("id", "doors")] (m.doors.flatMap (doorNodes m)) ++
  [lineBreak]

/-- The tree of a model. -/
def picture (m : Model) : Xml :=
  .element "svg" [("width", px m m.canvas.cols), ("height", px m m.canvas.rows),
    ("xmlns", "http://www.w3.org/2000/svg")] (pictureNodes m)

/-! ### Reading the lines -/

section

variable {line name text : String} {lines : List String} {nodes : List Xml}
variable {attributes : List (String × String)}

theorem reads_lineBreak : ReadsContent "\n" [lineBreak] :=
  .ofKept (List.forall_mem_singleton.mpr (by decide)) (.plain (by decide))

theorem reads_line (h : ReadsContent line nodes) :
    ReadsContent (Text.below [line]) (lineBreak :: nodes) := by
  rw [Text.below_cons, Text.below_nil, String.append_empty]
  exact reads_lineBreak.append h

theorem reads_leaf (h : ReadsTag name text attributes) :
    ReadsContent (Text.below [element name text]) (leaf name attributes) := reads_line (.lone h)

theorem below_block (opening closing : String) (lines : List String) :
    Text.below (opening :: lines ++ [closing]) =
      "\n" ++ (opening ++ (Text.below lines ++ "\n") ++ closing) := by
  simp [String.append_assoc]

theorem reads_block (h : ReadsTag name text attributes)
    (hlines : ReadsContent (Text.below lines) nodes) :
    ReadsContent (Text.below (("<" ++ name ++ text ++ ">") :: lines ++ ["</" ++ name ++ ">"]))
      (block name attributes nodes) := by
  rw [below_block]
  exact reads_lineBreak.append (.nested h (hlines.append reads_lineBreak))

theorem reads_flatMap {α : Type} (items : List α) {write : α → List String} {read : α → List Xml}
    (h : ∀ a ∈ items, ReadsContent (Text.below (write a)) (read a)) :
    ReadsContent (Text.below (items.flatMap write)) (items.flatMap read) := by
  induction items with
  | nil => exact .nil
  | cons a items ih =>
      obtain ⟨ha, hitems⟩ := List.forall_mem_cons.mp h
      rw [List.flatMap_cons, List.flatMap_cons, Text.below_append]
      exact ha.append (ih hitems)

end

/-! ### Attributes -/

theorem reads_attr (name : String) (hname : Xml.isName name.toList = true) {value : String}
    (hvalue : IsValue value) : ReadsAttributes (attr name value) [(name, value)] :=
  .verbatim hname hvalue

theorem isValue_compact (x : Float) : IsValue (compact x) := .inert (.compact x)

theorem isValue_px (m : Model) (x : Float) : IsValue (px m x) := isValue_compact _

theorem isValue_zero : IsValue "0" := .ofChars (by decide)

theorem isValue_one : IsValue "1" := .ofChars (by decide)

theorem reads_sheet (m : Model) {fill : String} (hfill : IsValue fill) :
    ReadsContent (Text.below [sheet m fill]) (sheetNodes m fill) := by
  have hattributes := ((((reads_attr "x" (by decide) isValue_zero).append
    (reads_attr "y" (by decide) isValue_zero)).append
    (reads_attr "width" (by decide) (isValue_px m m.canvas.cols))).append
    (reads_attr "height" (by decide) (isValue_px m m.canvas.rows))).append
    (reads_attr "fill" (by decide) hfill)
  exact reads_leaf ⟨by decide, hattributes, by simp⟩

/-! ### Grids -/

section

variable {m : Model} {g : Model.Grid}

/-- The lines of the pattern of a grid, between its tags. -/
def gridMarkLines (m : Model) (g : Model.Grid) : List String :=
  let paint := attr "stroke" (gridColor g) ++ attr "stroke-opacity" (compact (gridAlpha g)) ++
    attr "stroke-width" "1"
  let line := fun x y => element "line"
    (attr "x1" "0" ++ attr "y1" "0" ++ attr "x2" x ++ attr "y2" y ++ paint)
  (if g.mode = "dotted" then
    [element "circle" (attr "cx" "0" ++ attr "cy" "0" ++ attr "r" "1" ++
      attr "fill" (gridColor g) ++ attr "fill-opacity" (compact (gridAlpha g)))] else []) ++
  (if ["grid", "lines", "vlines"].contains g.mode then [line "0" (px m g.sy)] else []) ++
  (if ["grid", "lines", "hlines"].contains g.mode then [line (px m g.sx) "0"] else [])

theorem gridLines_cons {gs : List Model.Grid} (h : m.grids = g :: gs) :
    gridLines m = "<defs>" :: (("<pattern" ++ attr "id" "grid" ++ attr "width" (px m g.sx) ++
      attr "height" (px m g.sy) ++ attr "patternUnits" "userSpaceOnUse" ++ ">") ::
        gridMarkLines m g ++ ["</pattern>"]) ++ ["</defs>"] := by
  simp [gridLines, gridMarkLines, h]

theorem reads_gridLine {x y : String} (h : IsInert (gridColor g)) (hx : IsValue x)
    (hy : IsValue y) : ReadsContent (Text.below [element "line"
      (attr "x1" "0" ++ attr "y1" "0" ++ attr "x2" x ++ attr "y2" y ++
        (attr "stroke" (gridColor g) ++ attr "stroke-opacity" (compact (gridAlpha g)) ++
        attr "stroke-width" "1"))]) (gridLine g x y) := by
  have hpaint := ((reads_attr "stroke" (by decide) (.inert h)).append
    (reads_attr "stroke-opacity" (by decide) (isValue_compact (gridAlpha g)))).append
    (reads_attr "stroke-width" (by decide) isValue_one)
  have hattributes := ((((reads_attr "x1" (by decide) isValue_zero).append
    (reads_attr "y1" (by decide) isValue_zero)).append
    (reads_attr "x2" (by decide) hx)).append (reads_attr "y2" (by decide) hy)).append hpaint
  exact reads_leaf ⟨by decide, hattributes, by simp⟩

theorem reads_gridMarks (h : IsInert (gridColor g)) :
    ReadsContent (Text.below (gridMarkLines m g)) (gridMarks m g) := by
  have hcircle := ((((reads_attr "cx" (by decide) isValue_zero).append
    (reads_attr "cy" (by decide) isValue_zero)).append
    (reads_attr "r" (by decide) isValue_one)).append
    (reads_attr "fill" (by decide) (.inert h))).append
    (reads_attr "fill-opacity" (by decide) (isValue_compact (gridAlpha g)))
  have hmark : ∀ {c : Prop} [Decidable c] {line : String} {nodes : List Xml},
      ReadsContent (Text.below [line]) nodes →
      ReadsContent (Text.below (if c then [line] else [])) (if c then nodes else []) := by
    intro c _ line nodes hline
    split
    · exact hline
    · exact .nil
  simp only [gridMarkLines, gridMarks, Text.below_append]
  exact ((hmark (reads_leaf ⟨by decide, hcircle, by simp⟩)).append
    (hmark (reads_gridLine h isValue_zero (isValue_px m g.sy)))).append
    (hmark (reads_gridLine h (isValue_px m g.sx) isValue_zero))

theorem reads_gridLines (h : ∀ g ∈ m.grids, IsInert (gridColor g)) :
    ReadsContent (Text.below (gridLines m)) (gridNodes m) := by
  cases hgrids : m.grids with
  | nil =>
      simp only [gridLines, gridNodes, hgrids]
      exact .nil
  | cons g gs =>
      have hunits : IsValue "userSpaceOnUse" := .ofChars (by decide)
      have hid : IsValue "grid" := .ofChars (by decide)
      have hattributes := (((reads_attr "id" (by decide) hid).append
        (reads_attr "width" (by decide) (isValue_px m g.sx))).append
        (reads_attr "height" (by decide) (isValue_px m g.sy))).append
        (reads_attr "patternUnits" (by decide) hunits)
      have hpattern : ReadsTag "pattern" _ _ := ⟨by decide, hattributes, by simp⟩
      have hdefs : ReadsTag "defs" "" [] := ⟨by decide, .nil, by simp⟩
      have hmarks : ReadsContent (Text.below (gridMarkLines m g)) (gridMarks m g) :=
        reads_gridMarks (h g (by simp [hgrids]))
      have hblock := reads_block hdefs (reads_block hpattern hmarks)
      have hnodes : gridNodes m = block "defs" [] (block "pattern"
          [("id", "grid"), ("width", px m g.sx), ("height", px m g.sy),
            ("patternUnits", "userSpaceOnUse")] (gridMarks m g)) := by
        simp only [gridNodes, hgrids]
      rw [hnodes, gridLines_cons hgrids]
      simpa [String.append_assoc] using hblock

end

/-! ### Rooms, walls and doors -/

theorem reads_roomPaint (r : Model.Room) : ReadsAttributes (roomPaint r) (roomColors r) := by
  unfold roomPaint roomColors
  split
  · have hfill : IsValue "#bbdefb" := .ofChars (by decide)
    have hstroke : IsValue "#1976d2" := .ofChars (by decide)
    exact (reads_attr "fill" (by decide) hfill).append (reads_attr "stroke" (by decide) hstroke)
  · have hfill : IsValue "rgba(255, 255, 255, 0.9)" := .ofChars (by decide)
    have hstroke : IsValue "#333" := .ofChars (by decide)
    exact (reads_attr "fill" (by decide) hfill).append (reads_attr "stroke" (by decide) hstroke)

/-- An attribute whose value is escaped. -/
theorem reads_id {id : String} (h : IsText id) :
    ReadsAttributes (" id=" ++ Text.attributeText id) [("id", id)] := by
  obtain ⟨quote, body, hquote, htext, hbody⟩ := Xml.attributeText_cases h
  have hid := ReadsAttributes.single "id" (by decide) hquote hbody
  rw [← htext] at hid
  exact hid

/-- The text of a label that is shown. -/
theorem roomText_eq (m : Model) (r : Model.Room) :
    roomText m r = (shownLabel? r).toList.map fun label =>
      "<text" ++ attr "x" (px m (r.x + r.w / 2)) ++ attr "y" (px m (r.y + r.h / 2)) ++
        attr "text-anchor" "middle" ++ attr "dominant-baseline" "middle" ++ attr "fill" "#333" ++
        ">" ++ Text.markup label ++ "</text>" := by
  unfold roomText shownLabel?
  cases hlabel : r.label with
  | none => rfl
  | some label =>
      have hshown : (label.isEmpty || isWindow r) =
          !(!label.isEmpty && decide (label ≠ Stylesheet.windowLabel)) := by
        simp [isWindow, hlabel]
      simp only [hshown, Option.filter_some]
      cases !label.isEmpty && decide (label ≠ Stylesheet.windowLabel) <;> rfl

theorem reads_roomText (m : Model) {r : Model.Room} (h : ∀ label ∈ shownLabel? r, IsText label) :
    ReadsContent (Text.below (roomText m r)) (labelNodes m r) := by
  rw [roomText_eq]
  unfold labelNodes
  cases hlabel : shownLabel? r with
  | none => exact .nil
  | some label =>
      have hmiddle : IsValue "middle" := .ofChars (by decide)
      have hfill : IsValue "#333" := .ofChars (by decide)
      have hattributes := ((((reads_attr "x" (by decide) (isValue_px m (r.x + r.w / 2))).append
        (reads_attr "y" (by decide) (isValue_px m (r.y + r.h / 2)))).append
        (reads_attr "text-anchor" (by decide) hmiddle)).append
        (reads_attr "dominant-baseline" (by decide) hmiddle)).append
        (reads_attr "fill" (by decide) hfill)
      have htag : ReadsTag "text" _ _ := ⟨by decide, hattributes, by simp⟩
      have htext := reads_line (.escaped htag (h label hlabel))
      simpa [String.append_assoc] using htext

theorem reads_roomLines (m : Model) {r : Model.Room} (hid : IsText r.id)
    (hlabel : ∀ label ∈ shownLabel? r, IsText label) :
    ReadsContent (Text.below (roomLines m r)) (roomNodes m r) := by
  have htwo : IsValue "2" := .ofChars (by decide)
  have hattributes := ((((((reads_id hid).append
    (reads_attr "x" (by decide) (isValue_px m r.x))).append
    (reads_attr "y" (by decide) (isValue_px m r.y))).append
    (reads_attr "width" (by decide) (isValue_px m r.w))).append
    (reads_attr "height" (by decide) (isValue_px m r.h))).append (reads_roomPaint r)).append
    (reads_attr "stroke-width" (by decide) htwo)
  have hnames : ((([("id", r.id), ("x", px m r.x), ("y", px m r.y), ("width", px m r.w),
      ("height", px m r.h)] ++ roomColors r ++ [("stroke-width", "2")]).map Prod.fst).Nodup) := by
    unfold roomColors
    split <;> simp
  have htag : ReadsTag "rect" _ _ := ⟨by decide, hattributes, hnames⟩
  have hrect := (reads_leaf htag).append (reads_roomText m hlabel)
  rw [← Text.below_append] at hrect
  exact hrect

theorem isValue_turn (m : Model) (angle : Float) (l : Segment) : IsValue (turnValue m angle l) := by
  have hopen : IsValue "rotate(" := .ofChars (by decide)
  have hblank : IsValue " " := .ofChars (by decide)
  have hclose : IsValue ")" := .ofChars (by decide)
  exact (((((hopen.append (isValue_compact angle)).append hblank).append (isValue_px m l.x1)).append
    hblank).append (isValue_px m l.y1)).append hclose

theorem reads_wallLine (m : Model) (w : Model.Wall) :
    ReadsContent (Text.below [wallLine m w]) (wallNodes m w) := by
  have hfill : IsValue "#333" := .ofChars (by decide)
  have hattributes := (((((reads_attr "x" (by decide) (isValue_px m w.line.x1)).append
    (reads_attr "y" (by decide) (isValue_compact (w.line.y1 * m.scale - wallThickness / 2)))).append
    (reads_attr "width" (by decide) (isValue_px m w.length))).append
    (reads_attr "height" (by decide) (isValue_compact wallThickness))).append
    (reads_attr "fill" (by decide) hfill)).append
    (reads_attr "transform" (by decide) (isValue_turn m w.angle w.line))
  exact reads_leaf ⟨by decide, hattributes, by simp⟩

theorem reads_doorLine (m : Model) (d : Model.Door) :
    ReadsContent (Text.below [doorLine m d]) (doorNodes m d) := by
  have hfill : IsValue "white" := .ofChars (by decide)
  have hstroke : IsValue "#4080ff" := .ofChars (by decide)
  have htwo : IsValue "2" := .ofChars (by decide)
  have hattributes := (((((((reads_attr "x" (by decide) (isValue_px m d.line.x1)).append
    (reads_attr "y" (by decide)
      (isValue_compact (d.line.y1 * m.scale - d.width * m.scale / 2)))).append
    (reads_attr "width" (by decide) (isValue_px m d.length))).append
    (reads_attr "height" (by decide) (isValue_px m d.width))).append
    (reads_attr "fill" (by decide) hfill)).append (reads_attr "stroke" (by decide) hstroke)).append
    (reads_attr "stroke-width" (by decide) htwo)).append
    (reads_attr "transform" (by decide) (isValue_turn m d.angle d.line))
  exact reads_leaf ⟨by decide, hattributes, by simp⟩

/-! ### The whole picture -/

theorem reads_style :
    ReadsContent (Text.below ["<style>text" ++ Text.braced "font:14px system-ui, sans-serif" ++ "</style>"])
      [lineBreak, .element "style" [] (styleText.toList.map .char)] := by
  have hplain : Text.markup styleText = styleText := by decide +kernel
  have hlines : lineEnds styleText.toList = styleText.toList := by decide +kernel
  have htext : IsText styleText := List.all_eq_true.mp (by decide +kernel)
  have htag : ReadsTag "style" "" [] := ⟨by decide, .nil, by simp⟩
  have hstyle := reads_line (.escaped htag htext)
  rw [hplain, hlines] at hstyle
  exact hstyle

theorem reads_group {name : String} (hname : IsValue name) {lines : List String} {nodes : List Xml}
    (h : ReadsContent (Text.below lines) nodes) :
    ReadsContent (Text.below (group name lines)) (block "g" [("id", name)] nodes) := by
  have htag : ReadsTag "g" (attr "id" name) [("id", name)] :=
    ⟨by decide, reads_attr "id" (by decide) hname, by simp⟩
  have htext : group name lines =
      ("<" ++ "g" ++ attr "id" name ++ ">") :: lines ++ ["</" ++ "g" ++ ">"] := rfl
  rw [htext]
  exact reads_block htag h

/-- The lines between the first tag and the last one. -/
def contentLines (m : Model) : List String :=
  ["<style>text" ++ Text.braced "font:14px system-ui, sans-serif" ++ "</style>"] ++
  gridLines m ++
  [sheet m "#fafafa"] ++
  (if m.grids.isEmpty then [] else [sheet m "url(#grid)"]) ++
  group "rooms" (m.rooms.flatMap (roomLines m)) ++
  group "walls" (m.walls.map (wallLine m)) ++
  group "doors" (m.doors.map (doorLine m))

theorem reads_contentLines {m : Model} (h : ∀ g ∈ m.grids, IsInert (gridColor g))
    (hids : ∀ r ∈ m.rooms, IsText r.id)
    (hlabels : ∀ label ∈ labels m, IsText label) :
    ReadsContent (Text.below (contentLines m) ++ "\n") (pictureNodes m) := by
  have hpaper : IsValue "#fafafa" := .ofChars (by decide)
  have hpattern : IsValue "url(#grid)" := .ofChars (by decide)
  have hrooms : IsValue "rooms" := .ofChars (by decide)
  have hwalls : IsValue "walls" := .ofChars (by decide)
  have hdoors : IsValue "doors" := .ofChars (by decide)
  have hsheet : ReadsContent (Text.below (if m.grids.isEmpty then [] else [sheet m "url(#grid)"]))
      (if m.grids.isEmpty then [] else sheetNodes m "url(#grid)") := by
    split
    · exact .nil
    · exact reads_sheet m hpattern
  have hrooms := reads_group hrooms (reads_flatMap m.rooms fun r hr =>
    reads_roomLines m (hids r hr) fun label hlabel =>
      hlabels label (List.mem_filterMap.mpr ⟨r, hr, hlabel⟩))
  have hwalls := reads_group hwalls (reads_flatMap m.walls fun w _ => reads_wallLine m w)
  have hdoors := reads_group hdoors (reads_flatMap m.doors fun d _ => reads_doorLine m d)
  simp only [contentLines, Text.below_append, List.map_eq_flatMap]
  exact ((((((reads_style.append (reads_gridLines h)).append (reads_sheet m hpaper)).append
    hsheet).append hrooms).append hwalls).append hdoors).append reads_lineBreak

/-- The attributes of the root. -/
def rootAttributes (m : Model) : String :=
  attr "width" (px m m.canvas.cols) ++ attr "height" (px m m.canvas.rows) ++
    attr "xmlns" "http://www.w3.org/2000/svg"

theorem render_eq (m : Model) :
    render m = Xml.declaration ++ ("\n" ++ ("<" ++ "svg" ++ rootAttributes m ++ ">" ++
      (Text.below (contentLines m) ++ "\n") ++ ("</" ++ "svg" ++ ">"))) := by
  have hlines : lines m = Xml.declaration :: (("<" ++ "svg" ++ rootAttributes m ++ ">") ::
      contentLines m ++ ["</" ++ "svg" ++ ">"]) := by
    simp [lines, contentLines, rootAttributes, Xml.declaration, String.append_assoc]
  rw [render, hlines, Text.intercalate_cons, below_block]

/-- The preview of a model is read as its picture. -/
theorem read?_render {m : Model} (h : ∀ g ∈ m.grids, IsInert (gridColor g))
    (hids : ∀ r ∈ m.rooms, IsText r.id)
    (hlabels : ∀ label ∈ labels m, IsText label) :
    Xml.read? (render m) = some (picture m) := by
  have hspace : IsValue "http://www.w3.org/2000/svg" := .ofChars (by decide)
  have hattributes := ((reads_attr "width" (by decide) (isValue_px m m.canvas.cols)).append
    (reads_attr "height" (by decide) (isValue_px m m.canvas.rows))).append
    (reads_attr "xmlns" (by decide) hspace)
  have htag : ReadsTag "svg" (rootAttributes m) _ := ⟨by decide, hattributes, by simp⟩
  rw [render_eq]
  exact Xml.read?_document htag (reads_contentLines h hids hlabels)

/-- A label that is shown is part of the preview, but for its escapes. -/
theorem mem_render_of_label {m : Model} {label : String} (h : label ∈ labels m) {c : Char}
    (hc : c ∈ (Text.markup label).toList) : c ∈ (render m).toList := by
  obtain ⟨r, hr, hlabel⟩ := List.mem_filterMap.mp h
  obtain ⟨line, hline, htext⟩ : ∃ line ∈ roomText m r, c ∈ line.toList := by
    rw [roomText_eq, hlabel]
    exact ⟨_, List.mem_singleton_self _, by simp [hc]⟩
  have hrooms : line ∈ m.rooms.flatMap (roomLines m) :=
    List.mem_flatMap.mpr ⟨r, hr, List.mem_cons_of_mem _ hline⟩
  have hcontent : line ∈ contentLines m := by simp [contentLines, group, hrooms]
  rw [render_eq]
  simp [Text.mem_below hcontent htext]

/-- A label that is shown makes the preview unreadable with a character that no document has. -/
theorem read?_render_eq_none {m : Model} {label : String} (hlabel : label ∈ labels m)
    (h : ¬ IsText label) : Xml.read? (render m) = none := by
  obtain ⟨c, hc, hbad⟩ : ∃ c ∈ label.toList, ¬ Xml.isAllowed c = true := by
    simpa [IsText] using h
  have hplain : Text.markupChar c = [c] := by
    have hcases : c = '\ufffe' ∨ c = '\uffff' := by simpa [Xml.isAllowed, imp_iff_not_or] using hbad
    rcases hcases with rfl | rfl <;> rfl
  have hmem : c ∈ (Text.markup label).toList := by
    rw [Text.markup, String.toList_ofList, List.mem_flatMap]
    exact ⟨c, hc, hplain ▸ List.mem_singleton_self c⟩
  have hall : ¬ (render m).toList.all Xml.isAllowed = true := by
    rw [List.all_eq_true]
    exact fun hall => hbad (hall c (mem_render_of_label hlabel hmem))
  exact if_neg hall

/-! ### What the picture shows -/

/-- What a tree shows of a model: one rectangle with an identifier for each room, the rectangles of
the walls and of the doors in groups of their own, and the labels of the rooms as texts, with
newlines for their line ends, all in the order of the model. -/
structure Depicts (m : Model) (svg : Xml) : Prop where
  root : svg.name? = some "svg"
  rooms : (svg.named "rect").filterMap (Xml.attribute? "id") = m.rooms.map (·.id)
  walls : ∃ g, svg.groups "walls" = [g] ∧
    (Xml.elementsIn g.content).map Xml.name? = List.replicate m.walls.length (some "rect")
  doors : ∃ g, svg.groups "doors" = [g] ∧
    (Xml.elementsIn g.content).map Xml.name? = List.replicate m.doors.length (some "rect")
  labels : (svg.named "text").map Xml.content =
    (labels m).map fun label => (lineEnds label.toList).map .char

section

variable (m : Model) {name : String}

@[simp] theorem namedIn_lineBreak (nodes : List Xml) :
    Xml.namedIn name (lineBreak :: nodes) = Xml.namedIn name nodes := Xml.namedIn_char _ _

@[simp] theorem namedIn_leaf (name' : String) (attributes : List (String × String)) :
    Xml.namedIn name (leaf name' attributes) =
      if name' = name then [.element name' attributes []] else [] := by
  simp [leaf]

@[simp] theorem namedIn_block (name' : String) (attributes : List (String × String))
    (nodes : List Xml) :
    Xml.namedIn name (block name' attributes nodes) =
      (if name' = name then [.element name' attributes (nodes ++ [lineBreak])] else []) ++
        Xml.namedIn name nodes := by
  simp [block]

/-- The pattern of a grid has no room, group or text in it. -/
theorem namedIn_gridNodes (h : name ∉ ["defs", "pattern", "circle", "line"]) :
    Xml.namedIn name (gridNodes m) = [] := by
  simp only [List.mem_cons, List.not_mem_nil, or_false, not_or] at h
  unfold gridNodes gridMarks gridLine
  split
  · simp
  · simp [apply_ite (Xml.namedIn name), Ne.symm h.1, Ne.symm h.2.1, Ne.symm h.2.2.1,
      Ne.symm h.2.2.2]

theorem namedIn_labelNodes (r : Model.Room) (h : name ≠ "text") :
    Xml.namedIn name (labelNodes m r) = [] := by
  unfold labelNodes
  split <;> simp [h.symm]

theorem flatMap_eq_nil {α β : Type} (items : List α) {f : α → List β} (h : ∀ a, f a = []) :
    items.flatMap f = [] := List.flatMap_eq_nil_iff.mpr fun a _ => h a

/-- Only the rectangles of the rooms have identifiers. -/
theorem depicts_rooms :
    ((picture m).named "rect").filterMap (Xml.attribute? "id") = m.rooms.map (·.id) := by
  have hgrid : Xml.namedIn "rect" (gridNodes m) = [] := namedIn_gridNodes m (by decide)
  have hsheet : ∀ fill,
      (Xml.namedIn "rect" (sheetNodes m fill)).filterMap (Xml.attribute? "id") = [] := by
    intro fill
    simp [sheetNodes, Xml.attribute?, List.lookup]
  have hroom : ∀ r,
      (Xml.namedIn "rect" (roomNodes m r)).filterMap (Xml.attribute? "id") = [r.id] := by
    intro r
    simp [roomNodes, namedIn_labelNodes, Xml.attribute?, List.lookup]
  have hwall : ∀ w, (Xml.namedIn "rect" (wallNodes m w)).filterMap (Xml.attribute? "id") = [] := by
    intro w
    simp [wallNodes, Xml.attribute?, List.lookup]
  have hdoor : ∀ d, (Xml.namedIn "rect" (doorNodes m d)).filterMap (Xml.attribute? "id") = [] := by
    intro d
    simp [doorNodes, Xml.attribute?, List.lookup]
  simp [picture, pictureNodes, Xml.named, hgrid, hsheet, apply_ite (Xml.namedIn "rect"),
    apply_ite (List.filterMap (Xml.attribute? "id")), List.filterMap_flatMap, hroom, hwall, hdoor,
    List.map_eq_flatMap, flatMap_eq_nil m.walls, flatMap_eq_nil m.doors]

theorem named_groups : (picture m).named "g" =
    [.element "g" [("id", "rooms")] (m.rooms.flatMap (roomNodes m) ++ [lineBreak]),
      .element "g" [("id", "walls")] (m.walls.flatMap (wallNodes m) ++ [lineBreak]),
      .element "g" [("id", "doors")] (m.doors.flatMap (doorNodes m) ++ [lineBreak])] := by
  have hgrid : Xml.namedIn "g" (gridNodes m) = [] := namedIn_gridNodes m (by decide)
  have hroom : ∀ r, Xml.namedIn "g" (roomNodes m r) = [] := by
    intro r
    simp [roomNodes, namedIn_labelNodes]
  have hwall : ∀ w, Xml.namedIn "g" (wallNodes m w) = [] := by simp [wallNodes]
  have hdoor : ∀ d, Xml.namedIn "g" (doorNodes m d) = [] := by simp [doorNodes]
  simp [picture, pictureNodes, Xml.named, hgrid, sheetNodes, apply_ite (Xml.namedIn "g"),
    flatMap_eq_nil m.rooms hroom, flatMap_eq_nil m.walls hwall, flatMap_eq_nil m.doors hdoor]

theorem depicts_labels : ((picture m).named "text").map Xml.content =
    (labels m).map fun label => (lineEnds label.toList).map .char := by
  have hgrid : Xml.namedIn "text" (gridNodes m) = [] := namedIn_gridNodes m (by decide)
  have hroom : ∀ r, (Xml.namedIn "text" (roomNodes m r)).map Xml.content =
      (shownLabel? r).toList.map fun label => (lineEnds label.toList).map .char := by
    intro r
    unfold roomNodes labelNodes
    cases shownLabel? r <;> simp [Xml.content]
  have hwall : ∀ w, Xml.namedIn "text" (wallNodes m w) = [] := by simp [wallNodes]
  have hdoor : ∀ d, Xml.namedIn "text" (doorNodes m d) = [] := by simp [doorNodes]
  simp [labels, picture, pictureNodes, Xml.named, hgrid, sheetNodes,
    apply_ite (Xml.namedIn "text"), hroom, flatMap_eq_nil m.walls hwall,
    flatMap_eq_nil m.doors hdoor, List.map_flatMap, List.filterMap_eq_flatMap_toList]

/-- A group of leaves holds as many elements as it has leaves. -/
theorem names_leaves {α : Type} (items : List α) {nodes : α → List Xml} {name : String}
    (h : ∀ a, ∃ attributes, nodes a = leaf name attributes) :
    (Xml.elementsIn (items.flatMap nodes ++ [lineBreak])).map Xml.name? =
      List.replicate items.length (some name) := by
  induction items with
  | nil => rfl
  | cons a items ih =>
      obtain ⟨attributes, ha⟩ := h a
      rw [List.flatMap_cons, List.append_assoc, ha, List.length_cons, List.replicate_succ, ← ih]
      rfl

/-- The picture of a model shows it. -/
theorem depicts_picture : Depicts m (picture m) := by
  refine ⟨rfl, depicts_rooms m, ?_, ?_, depicts_labels m⟩
  · refine ⟨.element "g" [("id", "walls")] (m.walls.flatMap (wallNodes m) ++ [lineBreak]), ?_, ?_⟩
    · simp [Xml.groups, named_groups, Xml.attribute?, List.lookup]
    · exact names_leaves m.walls fun w => ⟨_, rfl⟩
  · refine ⟨.element "g" [("id", "doors")] (m.doors.flatMap (doorNodes m) ++ [lineBreak]), ?_, ?_⟩
    · simp [Xml.groups, named_groups, Xml.attribute?, List.lookup]
    · exact names_leaves m.doors fun d => ⟨_, rfl⟩

end

end FloorPlan.Preview
