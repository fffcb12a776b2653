import FloorPlan.Proofs.Token.Spelling
import FloorPlan.Drawing.Grammar
import Mathlib.Data.List.Basic

/-! # Printed drawings

A drawing is printed in two steps.  First it is put into words: `Drawing.Prints d ws` lists the
words of the statements, each with its units, where the statements may come in any order that
keeps the order of each sort.  Then the words are written with blanks between them
(`Spaced Word.Written`).  A word may have several texts: a number any numeral for it, a color any
blanks between its digits.

`Drawing.Printable` says which drawings can be printed: their names are identifiers, their numbers
come from numerals, and their style values are made of lexemes. -/

namespace FloorPlan

open Drawing

/-! ### Words -/

/-- A number that a numeral stands for. -/
def IsNumber (x : Float) : Prop :=
  ∃ cs, IsNumeral cs ∧ Number.readFloat? (String.ofList cs) = some x

/-- A lexeme that may stand in a style value: no string, no semicolon and no closing brace. -/
inductive IsPlain : String → Prop
  | number {p : String} (h : IsNumeral p.toList) : IsPlain p
  | word {p : String} (h : IsWord p.toList) : IsPlain p
  | mark {c : Char} {k : Kind} (h : Kind.ofMark? c = some k)
      (hk : k ∉ [Kind.semicolon, .rightBrace]) : IsPlain (String.ofList [c])

/-- Lexemes with one blank between them. -/
def IsStyleValue (v : String) : Prop :=
  ∃ parts, (∀ p ∈ parts, IsPlain p) ∧ v = " ".intercalate parts

/-- The color of a grid: a hash and hexadecimal digits, or a name. -/
def IsColor (c : String) : Prop :=
  IsName c ∨ ∃ ds, c.toList = '#' :: ds ∧ ∀ d ∈ ds, d.isHexDigit = true

/-- A word of a printed drawing. -/
inductive Word where
  /-- A keyword or a mark. -/
  | keyword (k : Kind)
  | name (w : String)
  | number (x : Float)
  | string (s : String)
  /-- A hash with the digits after it. -/
  | color (digits : List Char)
  /-- The value of a style property. -/
  | value (v : String)

namespace Word

/-- The texts of a word. -/
def Written : Word → List Char → Prop
  | keyword k, cs => cs = k.text.toList
  | name w, cs => cs = w.toList
  | number x, cs => IsNumeral cs ∧ Number.readFloat? (String.ofList cs) = some x
  | string s, cs => cs = quoted s.toList
  | color ds, cs => ∃ es, cs = '#' :: es ∧ es.filter (!Text.isBlank ·) = ds
  | value v, cs => ∃ parts, (∀ p ∈ parts, IsPlain p) ∧ v = " ".intercalate parts ∧
      Spaced (fun p cs => cs = p.toList) parts cs

/-- The kinds that stand for one text only. -/
def fixedKinds : List Kind := Kind.words.map (·.2) ++ Kind.marks.map (·.2)

/-- The words that can be written. -/
def Proper : Word → Prop
  | keyword k => k ∈ fixedKinds
  | name w => IsName w
  | number x => IsNumber x
  | string _ => True
  | color ds => ∀ d ∈ ds, d.isHexDigit = true
  | value v => IsStyleValue v

end Word

/-! ### Drawings in words -/

/-- A number with its unit. -/
def measureWords (x : Float) (unit : String) : List Word := [.number x, .name unit]

/-- A point. -/
def coordinateWords (c : Coordinate) : List Word :=
  .keyword .leftParen :: (measureWords c.x c.unit ++
    .keyword .comma :: (measureWords c.y c.unit ++ [.keyword .rightParen]))

/-- The two ends of a line. -/
def segmentWords (l : Segment) (unit : String) : List Word :=
  .keyword .fromWord :: (coordinateWords ⟨l.x1, l.y1, unit⟩ ++
    .keyword .toWord :: coordinateWords ⟨l.x2, l.y2, unit⟩)

/-- What stands for an optional part. -/
def optionWords {α : Type} (words : α → List Word) (a : Option α) : List Word := a.elim [] words

/-- `@module name ;` -/
def moduleWords (m : Module) : List Word :=
  [.keyword .atModule, .name m.name, .keyword .semicolon]

/-- A statement before the draw block. -/
def TopItem.words : TopItem → List Word
  | unit u => .keyword .atUnit :: .name u.name :: .keyword .equals ::
      (measureWords u.value u.unit ++ [.keyword .semicolon])
  | imported i => .keyword .importWord :: .name i.name ::
      (optionWords (fun a => [.keyword .asWord, .name a]) i.localName ++
        (optionWords (fun s => [.keyword .fromWord, .string s]) i.source ++ [.keyword .semicolon]))
  | exported e => .keyword .exportWord ::
      ((if e.isDefault then [.keyword .defaultWord] else []) ++
        [.name e.name, .keyword .semicolon])

/-- `@canvas 10 U x 8 U ;` -/
def canvasWords (c : Canvas) : List Word :=
  .keyword .atCanvas :: (measureWords c.width c.unit ++
    .keyword .xWord :: (measureWords c.height c.unit ++ [.keyword .semicolon]))

/-- A statement in a room's braces. -/
def Property.words : Property → List Word
  | label text => [.keyword .labelWord, .keyword .colon, .string (text.getD ""), .keyword .semicolon]
  | style name value => [.name name, .keyword .colon, .value value, .keyword .semicolon]

/-- The statements in a room's braces, where the label may stand anywhere. -/
def arranged (label : Option String) (before after : Entries String) : List Property :=
  before.map (fun e => .style e.1 e.2) ++ (label.toList.map (fun t => .label (some t)) ++
    after.map (fun e => .style e.1 e.2))

/-- What stands after the size of a room.  A room without label and properties needs no braces. -/
inductive RoomEnd (r : Room) : List Word → Prop
  | braces {before after : Entries String} (h : r.properties.getD [] = before ++ after) :
      RoomEnd r (.keyword .leftBrace ::
        ((arranged r.label before after).flatMap Property.words ++ [.keyword .rightBrace]))
  | semicolon (hl : r.label = none) (hp : r.properties = none) : RoomEnd r [.keyword .semicolon]
  | nothing (hl : r.label = none) (hp : r.properties = none) : RoomEnd r []

/-- The size of a grid.  Two equal numbers may be written as one. -/
inductive GridSize (g : Grid) : List Word → Prop
  | both : GridSize g (.keyword .sizeWord :: (measureWords g.sizeX g.unit ++
      .keyword .xWord :: measureWords g.sizeY g.unit))
  | single (h : g.sizeX = g.sizeY) :
      GridSize g (.keyword .sizeWord :: measureWords g.sizeX g.unit)

/-- The color of a grid. -/
def colorWords (c : String) : List Word :=
  match c.toList with
  | '#' :: ds => [.keyword .colorWord, .color ds]
  | _ => [.keyword .colorWord, .name c]

/-- An option of a placement. -/
def PlacementOption.words : PlacementOption → List Word
  | place c => .keyword .atWord :: coordinateWords c
  | rotate x => [.keyword .rotateWord, .number x]
  | scale x => [.keyword .scaleWord, .number x]

/-- A point whose numbers may stand without a unit, which is then the base unit.  The unit of the
second number does not count. -/
inductive LooseCoordinate : Coordinate → List Word → Prop
  | mk (x y : Float) (unit other : Option String) :
      LooseCoordinate ⟨x, y, unit.getD baseUnit⟩ (.keyword .leftParen :: .number x ::
        (optionWords (fun u => [.name u]) unit ++ .keyword .comma :: .number y ::
          (optionWords (fun u => [.name u]) other ++ [.keyword .rightParen])))

/-- An option of a placement, with or without units. -/
inductive PlacementOption.Prints : PlacementOption → List Word → Prop
  | place {c : Coordinate} {ws : List Word} (h : LooseCoordinate c ws) :
      Prints (place c) (.keyword .atWord :: ws)
  | rotate (x : Float) : Prints (rotate x) [.keyword .rotateWord, .number x]
  | scale (x : Float) : Prints (scale x) [.keyword .scaleWord, .number x]

theorem PlacementOption.prints_words (o : PlacementOption) : o.Prints o.words := by
  cases o with
  | place c => exact .place (.mk c.x c.y (some c.unit) (some c.unit))
  | rotate x => exact .rotate x
  | scale x => exact .scale x

/-- The options of a placement. -/
def placementOptions (p : Placement) : List PlacementOption :=
  p.place.toList.map .place ++ (p.rotate.toList.map .rotate ++ p.scale.toList.map .scale)

/-- A statement in the draw block. -/
inductive BodyItem.Prints : BodyItem → List Word → Prop
  | room {r : Room} {ws : List Word} (h : RoomEnd r ws) :
      Prints (.room r) (.keyword .roomWord :: .name r.id :: .keyword .atWord ::
        (coordinateWords ⟨r.x, r.y, r.unit⟩ ++ .keyword .sizeWord ::
          (coordinateWords ⟨r.width, r.height, r.unit⟩ ++ ws)))
  | wall (w : Wall) :
      Prints (.wall w) (.keyword .wallWord :: (segmentWords w.line w.unit ++ [.keyword .semicolon]))
  | door (d : Door) :
      Prints (.door d) (.keyword .doorWord :: (segmentWords d.line d.unit ++ .keyword .widthWord ::
        (measureWords d.width d.unit ++ [.keyword .semicolon])))
  | grid {g : Grid} {ws : List Word} (h : GridSize g ws) :
      Prints (.grid g) (.keyword .atGrid :: .keyword (Kind.ofWord g.mode) :: (ws ++
        (optionWords colorWords g.color ++
          (optionWords (fun x => [.keyword .alphaWord, .number x]) g.alpha ++
            [.keyword .semicolon]))))
  | copies (r : Repeat) :
      Prints (.copies r) (.keyword .repeatWord :: .name r.component ::
        (segmentWords r.line r.unit ++ .keyword .spaceWord ::
          (measureWords r.spacing r.unit ++ [.keyword .semicolon])))
  | placement (p : Placement) :
      Prints (.placement p) (.keyword .useWord :: .name p.source ::
        (optionWords (fun w => [.keyword .dot, .name w]) p.part ++
          ((placementOptions p).flatMap PlacementOption.words ++ [.keyword .semicolon])))

/-- The statements of a drawing, in any order that keeps the order of each sort. -/
structure Drawing.Statements (d : Drawing) (top : List TopItem) (body : List BodyItem) : Prop where
  units : top.filterMap TopItem.unit? = d.units
  imports : top.filterMap TopItem.imported? = d.imports
  exports : top.filterMap TopItem.exported? = d.exports
  rooms : body.filterMap BodyItem.room? = d.rooms
  walls : body.filterMap BodyItem.wall? = d.walls
  doors : body.filterMap BodyItem.door? = d.doors
  grids : body.filterMap BodyItem.grid? = d.grids
  repeats : body.filterMap BodyItem.copies? = d.repeats
  placements : body.filterMap BodyItem.placement? = d.placements

/-- The words of a drawing: its module first, its canvas first in the draw block. -/
inductive Drawing.Prints (d : Drawing) : List Word → Prop
  | mk {top : List TopItem} {body : List BodyItem} {ws : List Word} (h : d.Statements top body)
      (hbody : Joined BodyItem.Prints body ws) :
      Prints d (optionWords moduleWords d.module ++ (top.flatMap TopItem.words ++
        .keyword .atDraw :: .name d.name :: .keyword .leftBrace ::
          (canvasWords d.canvas ++ (ws ++ [.keyword .rightBrace]))))

/-- The source is a printed form of the drawing. -/
def Drawing.Printed (d : Drawing) (source : String) : Prop :=
  ∃ ws, d.Prints ws ∧ Spaced Word.Written ws source.toList

/-! ### Drawings that can be printed -/

/-- The ends of a line are numbers. -/
def Segment.Printable (l : Segment) : Prop :=
  IsNumber l.x1 ∧ IsNumber l.y1 ∧ IsNumber l.x2 ∧ IsNumber l.y2

namespace Drawing

def UnitDecl.Printable (u : UnitDecl) : Prop := IsName u.name ∧ IsNumber u.value ∧ IsName u.unit

def Canvas.Printable (c : Canvas) : Prop := IsNumber c.width ∧ IsNumber c.height ∧ IsName c.unit

def Coordinate.Printable (c : Coordinate) : Prop := IsNumber c.x ∧ IsNumber c.y ∧ IsName c.unit

/-- A room has no properties at all, or some, with different names. -/
structure Room.Printable (r : Room) : Prop where
  id : IsName r.id
  place : Coordinate.Printable ⟨r.x, r.y, r.unit⟩
  size : Coordinate.Printable ⟨r.width, r.height, r.unit⟩
  some_properties : r.properties ≠ some []
  properties : ∀ e ∈ r.properties.getD [], IsName e.1 ∧ IsStyleValue e.2
  distinct : (r.properties.getD []).names.Nodup

def Wall.Printable (w : Wall) : Prop := w.line.Printable ∧ IsName w.unit

def Door.Printable (d : Door) : Prop := d.line.Printable ∧ IsNumber d.width ∧ IsName d.unit

structure Grid.Printable (g : Grid) : Prop where
  mode : g.mode ∈ Parse.modeWords.map Kind.text
  sizes : IsNumber g.sizeX ∧ IsNumber g.sizeY
  unit : IsName g.unit
  color : ∀ c ∈ g.color, IsColor c
  alpha : ∀ x ∈ g.alpha, IsNumber x

def Repeat.Printable (r : Repeat) : Prop :=
  IsName r.component ∧ r.line.Printable ∧ IsNumber r.spacing ∧ IsName r.unit

def Import.Printable (i : Import) : Prop := IsName i.name ∧ ∀ a ∈ i.localName, IsName a

structure Placement.Printable (p : Placement) : Prop where
  source : IsName p.source
  part : ∀ w ∈ p.part, IsName w
  place : ∀ c ∈ p.place, c.Printable
  rotate : ∀ x ∈ p.rotate, IsNumber x
  scale : ∀ x ∈ p.scale, IsNumber x

end Drawing

/-- Every name is an identifier, every number comes from a numeral, and colors, modes and style
values are as they are written. -/
structure Drawing.Printable (d : Drawing) : Prop where
  name : IsName d.name
  module : ∀ m ∈ d.module, IsName m.name
  canvas : d.canvas.Printable
  units : ∀ u ∈ d.units, u.Printable
  rooms : ∀ r ∈ d.rooms, r.Printable
  walls : ∀ w ∈ d.walls, w.Printable
  doors : ∀ w ∈ d.doors, w.Printable
  grids : ∀ g ∈ d.grids, g.Printable
  repeats : ∀ r ∈ d.repeats, r.Printable
  imports : ∀ i ∈ d.imports, i.Printable
  exports : ∀ e ∈ d.exports, IsName e.name
  placements : ∀ p ∈ d.placements, p.Printable

/-- A statement before the draw block that can be printed. -/
def TopItem.Printable : TopItem → Prop
  | unit u => u.Printable
  | imported i => i.Printable
  | exported e => IsName e.name

/-- A statement in the draw block that can be printed. -/
def BodyItem.Printable : BodyItem → Prop
  | room r => r.Printable
  | wall w => w.Printable
  | door d => d.Printable
  | grid g => g.Printable
  | copies r => r.Printable
  | placement p => p.Printable

namespace Drawing.Statements

variable {d : Drawing} {top : List TopItem} {body : List BodyItem}

theorem top_printable (hst : d.Statements top body) (h : d.Printable) :
    ∀ item ∈ top, item.Printable := by
  intro item hi
  cases item with
  | unit u =>
      refine h.units u ?_
      rw [← hst.units]
      exact List.mem_filterMap.mpr ⟨_, hi, rfl⟩
  | imported i =>
      refine h.imports i ?_
      rw [← hst.imports]
      exact List.mem_filterMap.mpr ⟨_, hi, rfl⟩
  | exported e =>
      refine h.exports e ?_
      rw [← hst.exports]
      exact List.mem_filterMap.mpr ⟨_, hi, rfl⟩

theorem body_printable (hst : d.Statements top body) (h : d.Printable) :
    ∀ item ∈ body, item.Printable := by
  intro item hi
  cases item with
  | room r =>
      refine h.rooms r ?_
      rw [← hst.rooms]
      exact List.mem_filterMap.mpr ⟨_, hi, rfl⟩
  | wall w =>
      refine h.walls w ?_
      rw [← hst.walls]
      exact List.mem_filterMap.mpr ⟨_, hi, rfl⟩
  | door w =>
      refine h.doors w ?_
      rw [← hst.doors]
      exact List.mem_filterMap.mpr ⟨_, hi, rfl⟩
  | grid g =>
      refine h.grids g ?_
      rw [← hst.grids]
      exact List.mem_filterMap.mpr ⟨_, hi, rfl⟩
  | copies r =>
      refine h.repeats r ?_
      rw [← hst.repeats]
      exact List.mem_filterMap.mpr ⟨_, hi, rfl⟩
  | placement p =>
      refine h.placements p ?_
      rw [← hst.placements]
      exact List.mem_filterMap.mpr ⟨_, hi, rfl⟩

end Drawing.Statements

/-! ### The words of such a drawing -/

@[simp] theorem Word.mem_fixedKinds {k : Kind} :
    k ∈ fixedKinds ↔
      k ∉ [Kind.identifier, .number, .string, .hierarchy, .comment, .blank, .endOfInput] := by
  cases k <;> decide

/-- The word for a mode is that mode. -/
theorem mode_kind {mode : String} (h : mode ∈ Parse.modeWords.map Kind.text) :
    Kind.ofWord mode ∈ Parse.modeWords ∧ (Kind.ofWord mode).text = mode := by
  have hmodes : ∀ k ∈ Parse.modeWords, Kind.ofWord k.text = k := by decide
  obtain ⟨k, hk, rfl⟩ := List.mem_map.mp h
  rw [hmodes k hk]
  exact ⟨hk, rfl⟩

/-- Every word can be written. -/
def Proper (ws : List Word) : Prop := ∀ w ∈ ws, w.Proper

namespace Proper

variable {ws ws' : List Word} {w : Word} {unit : String}

@[simp] theorem nil : Proper [] := by simp [Proper]

@[simp] theorem cons_iff : Proper (w :: ws) ↔ w.Proper ∧ Proper ws := List.forall_mem_cons

@[simp] theorem append_iff : Proper (ws ++ ws') ↔ Proper ws ∧ Proper ws' := List.forall_mem_append

theorem flatMap {α : Type} {words : α → List Word} {as : List α}
    (h : ∀ a ∈ as, Proper (words a)) : Proper (as.flatMap words) := by
  intro w hw
  obtain ⟨a, ha, hw⟩ := List.mem_flatMap.mp hw
  exact h a ha w hw

theorem option {α : Type} {words : α → List Word} {a : Option α} (h : ∀ b ∈ a, Proper (words b)) :
    Proper (optionWords words a) := by
  cases a with
  | none => exact nil
  | some b => exact h b rfl

theorem measure {x : Float} (hx : IsNumber x) (hu : IsName unit) : Proper (measureWords x unit) := by
  simp [measureWords, Word.Proper, hx, hu]

theorem coordinate {c : Coordinate} (h : c.Printable) : Proper (coordinateWords c) := by
  obtain ⟨hx, hy, hu⟩ := h
  simp [coordinateWords, Word.Proper, measure hx hu, measure hy hu]

theorem segment {l : Segment} (hl : l.Printable) (hu : IsName unit) :
    Proper (segmentWords l unit) := by
  obtain ⟨h₁, h₂, h₃, h₄⟩ := hl
  have ha : Proper (coordinateWords ⟨l.x1, l.y1, unit⟩) := coordinate ⟨h₁, h₂, hu⟩
  have hb : Proper (coordinateWords ⟨l.x2, l.y2, unit⟩) := coordinate ⟨h₃, h₄, hu⟩
  simp [segmentWords, Word.Proper, ha, hb]

theorem topItem {item : TopItem} (h : item.Printable) : Proper item.words := by
  cases item with
  | unit u =>
      obtain ⟨hn, hx, hu⟩ := h
      simp [TopItem.words, Word.Proper, hn, measure hx hu]
  | imported i =>
      obtain ⟨hn, ha⟩ := h
      have halias : Proper (optionWords (fun a => [.keyword .asWord, .name a]) i.localName) :=
        option fun a hm => by simp [Word.Proper, ha a hm]
      have hsource : Proper (optionWords (fun s => [.keyword .fromWord, .string s]) i.source) :=
        option fun s _ => by simp [Word.Proper]
      simp [TopItem.words, Word.Proper, hn, halias, hsource]
  | exported e =>
      have hn : IsName e.name := h
      cases hd : e.isDefault <;> simp [TopItem.words, Word.Proper, hn, hd]

theorem room {r : Room} (h : r.Printable) (hend : RoomEnd r ws) : Proper ws := by
  cases hend with
  | @braces before after hp =>
      have hitems : Proper ((arranged r.label before after).flatMap Property.words) := by
        refine flatMap fun q hq => ?_
        have hstyle : ∀ e ∈ before ++ after, Proper (Property.style e.1 e.2).words := by
          intro e he
          rw [← hp] at he
          have hprop := h.properties e he
          simp [Property.words, Word.Proper, hprop]
        simp only [arranged, List.mem_append, List.mem_map] at hq
        rcases hq with ⟨e, he, rfl⟩ | ⟨t, -, rfl⟩ | ⟨e, he, rfl⟩
        · exact hstyle e (List.mem_append_left _ he)
        · simp [Property.words, Word.Proper]
        · exact hstyle e (List.mem_append_right _ he)
      simp [Word.Proper, hitems]
  | semicolon _ _ => simp [Word.Proper]
  | nothing _ _ => exact nil

theorem gridSize {g : Grid} (h : g.Printable) (hs : GridSize g ws) : Proper ws := by
  have hx := measure h.sizes.1 h.unit
  have hy := measure h.sizes.2 h.unit
  cases hs with
  | both => simp [Word.Proper, hx, hy]
  | single _ => simp [Word.Proper, hx]

theorem color {c : String} (h : IsColor c) : Proper (colorWords c) := by
  unfold colorWords
  split
  · next ds hc =>
      rcases h with h | ⟨es, he, hhex⟩
      · have hword := h.1
        rw [hc] at hword
        cases hword with
        | plain hs _ => cases hs
      · rw [hc] at he
        cases he
        simpa [Word.Proper] using hhex
  · next hc =>
      rcases h with h | ⟨es, he, -⟩
      · simp [Word.Proper, h]
      · exact absurd he (hc es)

theorem placementOption {p : Placement} (h : p.Printable) {o : PlacementOption}
    (ho : o ∈ placementOptions p) : Proper o.words := by
  simp only [placementOptions, List.mem_append, List.mem_map, Option.mem_toList] at ho
  rcases ho with ⟨c, hc, rfl⟩ | ⟨x, hx, rfl⟩ | ⟨x, hx, rfl⟩
  · simp [PlacementOption.words, Word.Proper, coordinate (h.place c hc)]
  · simp [PlacementOption.words, Word.Proper, h.rotate x hx]
  · simp [PlacementOption.words, Word.Proper, h.scale x hx]

theorem bodyItem {item : BodyItem} (h : item.Printable) (hp : item.Prints ws) : Proper ws := by
  cases hp with
  | @room r ws hend =>
      have hr : r.Printable := h
      simp [Word.Proper, hr.id, coordinate hr.place, coordinate hr.size, room hr hend]
  | wall w => simp [Word.Proper, segment h.1 h.2]
  | door d =>
      obtain ⟨hl, hw, hu⟩ := h
      simp [Word.Proper, segment hl hu, measure hw hu]
  | @grid g ws hs =>
      have hg : g.Printable := h
      have hcolor : Proper (optionWords colorWords g.color) := option fun c hc => color (hg.color c hc)
      have halpha : Proper (optionWords (fun x => [.keyword .alphaWord, .number x]) g.alpha) :=
        option fun x hx => by simp [Word.Proper, hg.alpha x hx]
      have hmodes : ∀ k ∈ Parse.modeWords, k ∈ Word.fixedKinds := by decide
      have hfixed : (Word.keyword (Kind.ofWord g.mode)).Proper := hmodes _ (mode_kind hg.mode).1
      rw [cons_iff, cons_iff]
      refine ⟨by simp [Word.Proper], hfixed, ?_⟩
      simp [Word.Proper, gridSize hg hs, hcolor, halpha]
  | copies r =>
      obtain ⟨hn, hl, hx, hu⟩ := h
      simp [Word.Proper, hn, segment hl hu, measure hx hu]
  | placement p =>
      have hplace : p.Printable := h
      have hpart : Proper (optionWords (fun w => [.keyword .dot, .name w]) p.part) :=
        option fun w hw => by simp [Word.Proper, hplace.part w hw]
      have hoptions : Proper ((placementOptions p).flatMap PlacementOption.words) :=
        flatMap fun o ho => placementOption hplace ho
      simp [Word.Proper, hplace.source, hpart, hoptions]

theorem joined {body : List BodyItem} (h : ∀ item ∈ body, item.Printable)
    (hj : Joined BodyItem.Prints body ws) : Proper ws := by
  induction hj with
  | nil => exact nil
  | cons hp _ ih =>
      rw [append_iff]
      exact ⟨bodyItem (h _ (by simp)) hp, ih fun item hi => h item (by simp [hi])⟩

/-- The words of a drawing that can be printed can be written. -/
theorem drawing {d : Drawing} (h : d.Printable) (hp : d.Prints ws) : Proper ws := by
  cases hp with
  | @mk top body ws hst hbody =>
      have hmodule : Proper (optionWords moduleWords d.module) :=
        option fun m hm => by simp [moduleWords, Word.Proper, h.module m hm]
      have hcanvas : Proper (canvasWords d.canvas) := by
        obtain ⟨hw, hh, hu⟩ := h.canvas
        simp [canvasWords, Word.Proper, measure hw hu, measure hh hu]
      have htop : Proper (top.flatMap TopItem.words) :=
        flatMap fun item hi => topItem (hst.top_printable h item hi)
      simp [Word.Proper, hmodule, htop, h.name, hcanvas, joined (hst.body_printable h) hbody]

end Proper

/-! ### From words to tokens -/

/-- The tokens of a word. -/
def Word.Tokens : Word → List (Kind × String) → Prop
  | keyword k, ts => ts = [(k, k.text)]
  | name w, ts => ts = [(.identifier, w)]
  | number x, ts => ∃ v, ts = [(.number, v)] ∧ Number.readFloat? v = some x
  | string s, ts => ts = [(.string, s)]
  | color ds, ts => ∃ us, ts = (.hash, "#") :: us ∧ HexParts ds us
  | value v, ts => (∀ t ∈ ts, t.1 ∉ Parse.valueEnds) ∧ " ".intercalate (ts.map (·.2)) = v

theorem spells_keyword {k : Kind} (h : k ∈ Word.fixedKinds) :
    Spells k.text.toList [(k, k.text)] := by
  have hwords : ∀ e ∈ Kind.words, IsWord e.2.text.toList ∧ wordKind e.2.text.toList = e.2 := by
    decide
  have hmarks : ∀ e ∈ Kind.marks, e.2.text = String.ofList [e.1] ∧ Kind.ofMark? e.1 = some e.2 := by
    decide
  rcases List.mem_append.mp h with h | h
  · obtain ⟨e, he, rfl⟩ := List.mem_map.mp h
    obtain ⟨hword, hkind⟩ := hwords e he
    have hs := spells_word hword
    rwa [hkind, String.ofList_toList] at hs
  · obtain ⟨e, he, rfl⟩ := List.mem_map.mp h
    obtain ⟨htext, hmark⟩ := hmarks e he
    rw [htext, String.toList_ofList]
    exact spells_mark hmark

/-- A lexeme of a style value is read as it is and does not end the value. -/
theorem spells_plain {p : String} (h : IsPlain p) :
    ∃ k, k ∉ Parse.valueEnds ∧ Spells p.toList [(k, p)] := by
  cases h with
  | number h =>
      have hs := spells_numeral h
      rw [String.ofList_toList] at hs
      exact ⟨.number, by decide, hs⟩
  | word h =>
      have hs := spells_word h
      rw [String.ofList_toList] at hs
      refine ⟨_, ?_, hs⟩
      have hwords : ∀ e ∈ Kind.words, e.2 ∉ Parse.valueEnds := by decide
      rcases wordKind_cases p.toList with hk | hk | hk
      · rw [hk]
        decide
      · rw [hk]
        decide
      · exact hwords _ hk
  | @mark c k h hk =>
      have hs := spells_mark h
      have hmarks : ∀ e ∈ Kind.marks, e.2 ≠ .endOfInput := by decide
      have hend : k ≠ .endOfInput := hmarks _ (Kind.mem_of_lookup h)
      rw [String.toList_ofList]
      refine ⟨k, ?_, hs⟩
      simp only [List.mem_cons, List.not_mem_nil, or_false, not_or] at hk
      simp [Parse.valueEnds, hk, hend]

theorem spells_value {parts : List String} (h : ∀ p ∈ parts, IsPlain p) {cs : List Char}
    (hcs : Spaced (fun p cs => cs = p.toList) parts cs) :
    ∃ ts, (Word.value (" ".intercalate parts)).Tokens ts ∧ Spells cs ts := by
  have hread : ∀ p ∈ parts, ∀ cs, cs = p.toList →
      ∃ ts, (∃ k, k ∉ Parse.valueEnds ∧ ts = [(k, p)]) ∧ Spells cs ts := by
    rintro p hp cs rfl
    obtain ⟨k, hk, hs⟩ := spells_plain (h p hp)
    exact ⟨_, ⟨k, hk, rfl⟩, hs⟩
  obtain ⟨ts, hjoined, hs⟩ := hcs.spells hread
  refine ⟨ts, ?_, hs⟩
  have hparts : (∀ t ∈ ts, t.1 ∉ Parse.valueEnds) ∧ ts.map (·.2) = parts := by
    clear h hcs hs hread
    induction hjoined with
    | nil => simp
    | cons hp _ ih =>
        obtain ⟨k, hk, rfl⟩ := hp
        simpa [hk] using ih
  exact ⟨hparts.1, by rw [hparts.2]⟩

theorem Word.spells {w : Word} (h : w.Proper) {cs : List Char} (hcs : w.Written cs) :
    ∃ ts, w.Tokens ts ∧ Spells cs ts := by
  cases w with
  | keyword k =>
      rw [hcs]
      exact ⟨_, rfl, spells_keyword h⟩
  | name w =>
      rw [hcs]
      exact ⟨_, rfl, spells_name h⟩
  | number x => exact ⟨_, ⟨_, rfl, hcs.2⟩, spells_numeral hcs.1⟩
  | string s =>
      rw [hcs]
      exact ⟨_, rfl, spells_string s⟩
  | color ds =>
      obtain ⟨es, rfl, hes⟩ := hcs
      have hhex : ∀ c ∈ es, c.isHexDigit = true ∨ Text.isBlank c = true := by
        intro c hc
        by_cases hb : Text.isBlank c = true
        · exact .inr hb
        · refine .inl (h c ?_)
          rw [← hes]
          exact List.mem_filter.mpr ⟨hc, by simpa using hb⟩
      obtain ⟨us, hs, hparts⟩ := spells_hex hhex
      rw [hes] at hparts
      refine ⟨_, ⟨us, rfl, hparts⟩, ?_⟩
      have hhash : ∀ rest, Apart rest →
          Lexeme.front? '#' (es ++ rest) = some (.token .hash ['#'] 1) := by
        intro rest hrest
        refine Lexeme.front?_mark rfl ?_
        cases es with
        | nil => exact hrest.head?_ne (by decide)
        | cons c es =>
            rintro ⟨⟩
            exact absurd (hhex '*' (by simp)) (by decide)
      have ht : Spells ('#' :: [] ++ es) ((.hash, String.ofList ['#']) :: us) := .token hhash hs
      exact ht
  | value v =>
      obtain ⟨parts, hplain, rfl, hspaced⟩ := hcs
      exact spells_value hplain hspaced

/-- A printed drawing has the tokens of its words. -/
theorem Drawing.Printed.lexes {d : Drawing} (h : d.Printable) {source : String}
    (hp : d.Printed source) :
    ∃ ws ts, d.Prints ws ∧ Joined Word.Tokens ws ts ∧ Lexes source.toList ts := by
  obtain ⟨ws, hprints, hspaced⟩ := hp
  have hproper := Proper.drawing h hprints
  obtain ⟨ts, hts, hs⟩ := hspaced.spells fun w hw cs hcs => Word.spells (hproper w hw) hcs
  refine ⟨ws, ts, hprints, hts, ?_⟩
  have hl := hs [] [] (by simp [Apart]) .nil
  rwa [List.append_nil, List.append_nil] at hl

/-! ### Every such drawing has a printed form -/

theorem Spaced.exists {α : Type} {text : α → List Char → Prop} {as : List α}
    (h : ∀ a ∈ as, ∃ cs, text a cs) : ∃ cs, Spaced text as cs ∧ Apart cs := by
  induction as with
  | nil => exact ⟨[], .nil (by simp), by simp [Apart]⟩
  | cons a as ih =>
      obtain ⟨cs, hcs⟩ := h a (by simp)
      obtain ⟨rest, hrest, hapart⟩ := ih fun b hb => h b (by simp [hb])
      have hgap : ∀ c ∈ [' '], Text.isBlank c = true := List.all_eq_true.mp (by decide)
      refine ⟨[' '] ++ (cs ++ rest), .cons hgap hcs hrest hapart, ?_⟩
      intro c hc
      cases hc
      exact hgap ' ' (by simp)

theorem Joined.exists {α β : Type} {tokens : α → List β → Prop} {as : List α}
    (h : ∀ a ∈ as, ∃ ts, tokens a ts) : ∃ ts, Joined tokens as ts := by
  induction as with
  | nil => exact ⟨[], .nil⟩
  | cons a as ih =>
      obtain ⟨ts, hts⟩ := h a (by simp)
      obtain ⟨us, hus⟩ := ih fun b hb => h b (by simp [hb])
      exact ⟨ts ++ us, .cons hts hus⟩

theorem Word.Proper.written {w : Word} (h : w.Proper) : ∃ cs, w.Written cs := by
  cases w with
  | keyword k => exact ⟨_, rfl⟩
  | name w => exact ⟨_, rfl⟩
  | number x => exact h
  | string s => exact ⟨_, rfl⟩
  | color ds =>
      have hblank : ∀ d ∈ ds, (!Text.isBlank d) = true := by
        intro d hd
        rw [isBlank_of_isWordChar (isWordChar_of_isHexDigit (h d hd))]
        rfl
      exact ⟨_, ds, rfl, List.filter_eq_self.mpr hblank⟩
  | value v =>
      obtain ⟨parts, hparts, rfl⟩ := h
      have htext : ∀ p ∈ parts, ∃ cs, cs = p.toList := fun p _ => ⟨_, rfl⟩
      obtain ⟨cs, hcs, -⟩ := Spaced.exists htext
      exact ⟨cs, parts, hparts, rfl, hcs⟩

theorem BodyItem.prints (item : BodyItem) : ∃ ws, item.Prints ws := by
  cases item with
  | room r =>
      have hr : r.properties.getD [] = r.properties.getD [] ++ [] := (List.append_nil _).symm
      exact ⟨_, .room (.braces hr)⟩
  | wall w => exact ⟨_, .wall w⟩
  | door d => exact ⟨_, .door d⟩
  | grid g => exact ⟨_, .grid .both⟩
  | copies r => exact ⟨_, .copies r⟩
  | placement p => exact ⟨_, .placement p⟩

/-- The statements of a drawing in the order of their sorts. -/
theorem Drawing.statements (d : Drawing) : d.Statements
    (d.units.map .unit ++ d.imports.map .imported ++ d.exports.map .exported)
    (d.rooms.map .room ++ d.walls.map .wall ++ d.doors.map .door ++ d.grids.map .grid ++
      d.repeats.map .copies ++ d.placements.map .placement) where
  units := by simp [Function.comp_def, TopItem.unit?]
  imports := by simp [Function.comp_def, TopItem.imported?]
  exports := by simp [Function.comp_def, TopItem.exported?]
  rooms := by simp [Function.comp_def, BodyItem.room?]
  walls := by simp [Function.comp_def, BodyItem.wall?]
  doors := by simp [Function.comp_def, BodyItem.door?]
  grids := by simp [Function.comp_def, BodyItem.grid?]
  repeats := by simp [Function.comp_def, BodyItem.copies?]
  placements := by simp [Function.comp_def, BodyItem.placement?]

theorem Drawing.prints (d : Drawing) : ∃ ws, d.Prints ws := by
  obtain ⟨ws, hws⟩ := Joined.exists fun item (_ : item ∈ _) => BodyItem.prints item
  exact ⟨_, .mk d.statements hws⟩

theorem Drawing.Printable.printed {d : Drawing} (h : d.Printable) : ∃ source, d.Printed source := by
  obtain ⟨ws, hws⟩ := d.prints
  obtain ⟨cs, hcs, -⟩ := Spaced.exists fun w hw => (Proper.drawing h hws w hw).written
  refine ⟨String.ofList cs, ws, hws, ?_⟩
  rwa [String.toList_ofList]

end FloorPlan
