import FloorPlan.Model.Json
import FloorPlan.Proofs.Json.Reading

/-! # Models recovered from their JSON

`ofJson?` takes a model from the members of a JSON value, whatever other members there are.  The
JSON text of a model whose units and styles name nothing twice is read as the JSON of the model,
member by member in order, and the model is taken back from it, so the text determines the model
(`toJson_recovered`). -/

namespace FloorPlan

namespace Json

/-- The value of a member of an object. -/
def member? (name : String) : Json → Option Json
  | object ms => Entries.get? ms name
  | _ => none

def number? : Json → Option Float
  | number x => some x
  | _ => none

def text? : Json → Option String
  | text s => some s
  | _ => none

variable {α : Type}

/-- The items of a list, each taken by `f`. -/
def items? (f : Json → Option α) : Json → Option (List α)
  | list xs => xs.mapM f
  | _ => none

/-- The members of an object, each value taken by `f`. -/
def entries? (f : Json → Option α) : Json → Option (Entries α)
  | object ms => ms.mapM fun m => (f m.2).map fun a => (m.1, a)
  | _ => none

/-- A member that has to be there. -/
def required? (f : Json → Option α) (name : String) (v : Json) : Option α :=
  (v.member? name).bind f

/-- A member that may be left out. -/
def optional? (f : Json → Option α) (name : String) (v : Json) : Option (Option α) :=
  match v.member? name with
  | none => some none
  | some w => (f w).map some

/-- Items that are taken back one by one are taken back as a list. -/
theorem items?_map {β : Type} {f : Json → Option β} {g : β → Json} (h : ∀ b, f (g b) = some b)
    (bs : List β) : items? f (list (bs.map g)) = some bs := by
  induction bs with
  | nil => rfl
  | cons b bs ih =>
      simp only [items?, List.map_cons, List.mapM_cons] at ih ⊢
      rw [h b, ih]
      rfl

theorem entries?_map {β : Type} {f : Json → Option β} {g : β → Json} (h : ∀ b, f (g b) = some b)
    (es : Entries β) : entries? f (object (es.map fun e => (e.1, g e.2))) = some es := by
  induction es with
  | nil => rfl
  | cons e es ih =>
      simp only [entries?, List.map_cons, List.mapM_cons] at ih ⊢
      rw [h e.2, ih]
      rfl

end Json

namespace Model

open Json

/-! ### Taking a model from its members -/

def lineOfJson? (v : Json) : Option Segment := do
  some { x1 := ← required? number? "x1" v, y1 := ← required? number? "y1" v,
         x2 := ← required? number? "x2" v, y2 := ← required? number? "y2" v }

def Room.ofJson? (v : Json) : Option Room := do
  some { id := ← required? text? "id" v
         x := ← required? number? "x" v, y := ← required? number? "y" v
         w := ← required? number? "w" v, h := ← required? number? "h" v
         label := ← optional? text? "label" v
         css := ← optional? (entries? text?) "css" v }

def Wall.ofJson? (v : Json) : Option Wall := do
  some { line := ← lineOfJson? v
         length := ← required? number? "length" v, angle := ← required? number? "angle" v }

def Door.ofJson? (v : Json) : Option Door := do
  some { line := ← lineOfJson? v, width := ← required? number? "width" v
         length := ← required? number? "length" v, angle := ← required? number? "angle" v }

def Grid.ofJson? (v : Json) : Option Grid := do
  some { mode := ← required? text? "mode" v
         sx := ← required? number? "sx" v, sy := ← required? number? "sy" v
         color := ← optional? text? "color" v, alpha := ← optional? number? "alpha" v }

def Canvas.ofJson? (v : Json) : Option Canvas := do
  some { cols := ← required? number? "cols" v, rows := ← required? number? "rows" v }

/-- The model that a JSON value holds. -/
def ofJson? (v : Json) : Option Model := do
  some { scale := ← required? number? "scale" v
         canvas := ← required? Canvas.ofJson? "canvas" v
         units := ← required? (entries? number?) "units" v
         rooms := ← required? (items? Room.ofJson?) "rooms" v
         walls := ← required? (items? Wall.ofJson?) "walls" v
         doors := ← required? (items? Door.ofJson?) "doors" v
         grids := ← required? (items? Grid.ofJson?) "grids" v }

theorem entries?_textsJson (es : Entries String) : entries? text? (textsJson es) = some es :=
  entries?_map (g := Json.text) (fun _ => rfl) es

theorem entries?_numbersJson (es : Entries Float) : entries? number? (numbersJson es) = some es :=
  entries?_map (g := Json.number) (fun _ => rfl) es

theorem Room.ofJson?_json (r : Room) : Room.ofJson? r.json = some r := by
  obtain ⟨id, x, y, w, h, label, css⟩ := r
  cases label <;> cases css <;>
    simp [Room.ofJson?, Room.json, optional, required?, optional?, member?, Entries.get?,
      List.lookup, text?, number?, entries?_textsJson]

theorem Wall.ofJson?_json (w : Wall) : Wall.ofJson? w.json = some w := rfl

theorem Door.ofJson?_json (d : Door) : Door.ofJson? d.json = some d := rfl

theorem Grid.ofJson?_json (g : Grid) : Grid.ofJson? g.json = some g := by
  obtain ⟨mode, sx, sy, color, alpha⟩ := g
  cases color <;> cases alpha <;> rfl

/-- A model is taken back from its JSON. -/
theorem ofJson?_json (m : Model) : ofJson? m.json = some m := by
  simp [ofJson?, json, required?, member?, Entries.get?, List.lookup, number?,
    entries?_numbersJson, items?_map Room.ofJson?_json, items?_map Wall.ofJson?_json,
    items?_map Door.ofJson?_json, items?_map Grid.ofJson?_json]
  rfl

/-! ### The text of a model -/

/-- No unit and no property of a style is named twice. -/
structure DistinctNames (m : Model) : Prop where
  units : m.units.names.Nodup
  css : ∀ r ∈ m.rooms, ∀ es ∈ r.css, (Entries.names es).Nodup

theorem distinct_entries {α : Type} {f : α → Json} {es : Entries α} (h : es.names.Nodup)
    (hf : ∀ a, (f a).Distinct) : (Json.object (es.map fun e => (e.1, f e.2))).Distinct := by
  have hnames : Entries.names (es.map fun e => (e.1, f e.2)) = es.names := List.map_map
  refine .object (hnames ▸ h) ?_
  intro m hm
  obtain ⟨e, -, rfl⟩ := List.mem_map.mp hm
  exact hf e.2

theorem distinct_numbers {es : Entries Float} (h : es.names.Nodup) : (numbersJson es).Distinct :=
  distinct_entries h .number

theorem distinct_list {α : Type} {f : α → Json} {xs : List α} (h : ∀ a ∈ xs, (f a).Distinct) :
    (Json.list (xs.map f)).Distinct := by
  refine .list ?_
  intro v hv
  obtain ⟨a, ha, rfl⟩ := List.mem_map.mp hv
  exact h a ha

theorem Room.distinct {r : Room} (h : ∀ es ∈ r.css, (Entries.names es).Nodup) :
    r.json.Distinct := by
  have hcss : ∀ es ∈ r.css, (textsJson es).Distinct :=
    fun es hes => distinct_entries (h es hes) .text
  refine .object ?_ ?_
  · cases r.label <;> cases r.css <;> simp [optional, Entries.names]
  · cases hlabel : r.label <;> cases hstyle : r.css <;>
      simp_all [optional, Json.Distinct.number, Json.Distinct.text]

theorem Grid.distinct (g : Grid) : g.json.Distinct := by
  refine .object ?_ ?_
  · cases g.color <;> cases g.alpha <;> simp [optional, Entries.names]
  · cases g.color <;> cases g.alpha <;> simp [optional, Json.Distinct.number, Json.Distinct.text]

theorem distinct_json {m : Model} (h : m.DistinctNames) : m.json.Distinct := by
  have hcanvas : (numbersJson [("cols", m.canvas.cols), ("rows", m.canvas.rows)]).Distinct :=
    distinct_numbers (by simp [Entries.names])
  have hrooms := distinct_list fun r hr => Room.distinct (h.css r hr)
  have hwalls : (Json.list (m.walls.map Wall.json)).Distinct :=
    distinct_list fun w _ => distinct_numbers (by simp [Entries.names, lineMembers])
  have hdoors : (Json.list (m.doors.map Door.json)).Distinct :=
    distinct_list fun d _ => distinct_numbers (by simp [Entries.names, lineMembers])
  have hgrids : (Json.list (m.grids.map Grid.json)).Distinct :=
    distinct_list fun g _ => Grid.distinct g
  refine .object (by simp [Entries.names]) ?_
  simp only [List.forall_mem_cons]
  exact ⟨.number _, hcanvas, distinct_numbers h.units, hrooms, hwalls, hdoors, hgrids, by simp⟩

/-- The JSON text of a model is read whole, as the JSON of the model; the model is taken back from
it, so models with the same text are the same. -/
theorem toJson_recovered {m : Model} (hm : m.DistinctNames) (indent : Option Int) :
    Json.read? (m.toJson indent) = some m.json ∧ ofJson? m.json = some m ∧
      ∀ (m' : Model) (indent' : Option Int), m'.DistinctNames →
        m'.toJson indent' = m.toJson indent → m' = m := by
  have hread : ∀ {m : Model}, m.DistinctNames → ∀ indent,
      (Json.read? (m.toJson indent)).bind ofJson? = some m := by
    intro m hm indent
    rw [toJson, Json.read?_render (distinct_json hm), Option.bind_some, ofJson?_json]
  refine ⟨Json.read?_render (distinct_json hm) indent, ofJson?_json m, ?_⟩
  intro m' indent' hm' htext
  have h := hread hm' indent'
  rw [htext, hread hm indent] at h
  exact (Option.some_inj.mp h).symm

/-- A model with floats that have no figures, an empty style, and texts that need escapes. -/
def attic : Model :=
  { scale := 1 / 0, canvas := ⟨-0.0, 0 / 0⟩
    units := [("m", 5e-324), ("ft", 0.1 + 0.2)]
    rooms := [⟨"a\"\\/\n", 1e16, 1, 2, 3, none, some []⟩,
      ⟨"é𝄞", 0, 1e-7, 2, 3, some "", some [("fill", "#fff"), ("", "\t")]⟩]
    walls := [], doors := [⟨⟨0, 0, 1, 1⟩, 0.9, 1.5, 45⟩]
    grids := [⟨"grid", 1, 1, none, some 0.5⟩, ⟨"dotted", 1, 2, some "red", none⟩] }

theorem toJson_recovered_attic :
    attic.DistinctNames ∧ Json.read? (attic.toJson (some 2)) = some attic.json ∧
      ofJson? attic.json = some attic := by
  have hnames : attic.DistinctNames := by
    constructor
    · decide
    · simp [attic, Entries.names]
  obtain ⟨hread, hmodel, -⟩ := toJson_recovered hnames (some 2)
  exact ⟨hnames, hread, hmodel⟩

end Model

end FloorPlan
