import FloorPlan.Model.Lowering
import FloorPlan.Proofs.Entries
import FloorPlan.Proofs.Drawing.RoundTrip
import FloorPlan.Proofs.Number.Values

/-! # Lowering as a function of the drawing

Lowering collects problems, writes to the log and remembers which parts it has warned of.  None of
this reaches the model: `Drawing.lowered` is the model of a drawing without any state, and lowering
gives it from every state, unless a repeat pattern has no number of copies (`Drawing.fault?`).  The
state it leaves is described as well (`Lowering.after`): it goes through the parts of the drawing
one by one (`Lowering.visit`). -/

namespace FloorPlan

open Drawing

/-! ### Lengths -/

namespace UnitTable

/-- A length in base units, if the unit is known and neither its size nor that of the base unit is
zero; any other length is kept. -/
def convert (t : UnitTable) (unit : String) (value : Float) : Float :=
  match t.pixels? unit with
  | some px => if px == 0 || t.scale == 0 then value else value * px / t.scale
  | none => value

/-- What is wrong with a unit that cannot be used. -/
def complaint? (t : UnitTable) (unit : String) : Option String :=
  match t.pixels? unit with
  | none => some ("Unknown unit: " ++ unit ++ ", using value as-is")
  | some px =>
    if t.scale == 0 then some ("Unit " ++ baseUnit ++ " resolves to 0px, using value as-is")
    else if px == 0 then some ("Unit " ++ unit ++ " resolves to 0px, using value as-is")
    else none

variable {t : UnitTable} {unit : String}

/-- A unit is usable, or there is something to say of it. -/
theorem toBase?_eq (t : UnitTable) (unit : String) (value : Float) :
    t.toBase? value unit = if t.complaint? unit = none then some (t.convert unit value) else none := by
  unfold toBase? complaint? convert
  cases t.pixels? unit with
  | none => rfl
  | some px => cases hscale : t.scale == 0 <;> cases hpx : px == 0 <;> simp [hpx]

theorem convert_of_complaint {text : String} (h : t.complaint? unit = some text) (value : Float) :
    t.convert unit value = value := by
  unfold complaint? at h
  unfold convert
  cases hpixels : t.pixels? unit with
  | none => rfl
  | some px =>
      rw [hpixels] at h
      cases hscale : t.scale == 0 with
      | true => simp
      | false =>
          cases hpx : px == 0 with
          | true => simp [hpx]
          | false => simp [hscale, hpx] at h

theorem unusableText_eq {text : String} (h : t.complaint? unit = some text) :
    Lower.unusableText t unit = text := by
  unfold complaint? at h
  unfold Lower.unusableText
  cases hpixels : t.pixels? unit with
  | none =>
      have hhas : ¬ t.sizes.has unit = true := fun hh =>
        Entries.get?_eq_none_iff.mp hpixels (Entries.has_iff.mp hh)
      rw [hpixels] at h
      rw [if_neg hhas]
      exact Option.some_inj.mp h
  | some px =>
      have hhas : t.sizes.has unit = true := by
        rw [Entries.has_iff, ← Entries.get?_isSome_iff]
        exact Option.isSome_iff_exists.mpr ⟨px, hpixels⟩
      rw [hpixels] at h
      rw [if_pos hhas]
      cases hscale : t.scale == 0 with
      | true => simpa [hscale] using h
      | false =>
          cases hpx : px == 0 with
          | true => simpa [hscale, hpx] using h
          | false => simp [hscale, hpx] at h

end UnitTable

/-! ### Sequences of steps -/

/-- The state with more records. -/
def Lowering.noted (s : Lowering) (rs : List Log.Record) : Lowering :=
  { s with log := s.log ++ rs }

namespace Lower

variable {α β : Type} {p : Lower α} {q : α → Lower β} {s s' : Lowering} {a : α} {f : Fault}

theorem bind_ok (h : p s = .ok a s') : (p >>= q) s = q a s' := by
  show EStateM.bind p q s = _
  simp [EStateM.bind, h]

theorem bind_error (h : p s = .error f s') : (p >>= q) s = .error f s' := by
  show EStateM.bind p q s = _
  simp [EStateM.bind, h]

theorem map_ok {g : α → β} (h : p s = .ok a s') : (g <$> p) s = .ok (g a) s' := by
  show EStateM.map g p s = _
  simp [EStateM.map, h]

theorem map_error {g : α → β} (h : p s = .error f s') : (g <$> p) s = .error f s' := by
  show EStateM.map g p s = _
  simp [EStateM.map, h]

theorem pure_run (a : α) (s : Lowering) : (pure a : Lower α) s = .ok a s := rfl

theorem get_run (s : Lowering) : (get : Lower Lowering) s = .ok s s := rfl

theorem modify_run (f : Lowering → Lowering) (s : Lowering) :
    (modify f : Lower Unit) s = .ok () (f s) := rfl

theorem note_run (rs : List Log.Record) (s : Lowering) :
    note rs s = .ok () (s.noted rs) := rfl

/-- A step for each element, one after the other. -/
theorem mapM_ok {step : α → Lower β} {result : α → β} {next : Lowering → α → Lowering}
    {as : List α} (h : ∀ a ∈ as, ∀ s, step a s = .ok (result a) (next s a)) :
    ∀ s, as.mapM step s = .ok (as.map result) (as.foldl next s) := by
  induction as with
  | nil => exact fun s => rfl
  | cons a as ih =>
      intro s
      have hothers := ih fun b hb => h b (List.mem_cons_of_mem a hb)
      rw [List.mapM_cons, bind_ok (h a (by simp) s), bind_ok (hothers _)]
      rfl

end Lower

/-! ### Parts of a drawing -/

/-- A part of a drawing, as the warnings see it: its unit and its stretch. -/
abbrev Part := String × Option Span

/-- A warning of lowering. -/
structure Warning where
  text : String
  span : Option Span
  deriving DecidableEq, Repr

namespace Warning

/-- The warning among the problems. -/
def diagnostic (w : Warning) : Diagnostic := .warning .semantic w.text w.span

/-- The warning in the log. -/
def record (w : Warning) : Log.Record := ⟨.warning, .compiler, w.text ++ Diagnostic.place w.span⟩

end Warning

/-- The warning for a part: its unit cannot be used. -/
def UnitTable.warning? (t : UnitTable) (part : Part) : Option Warning :=
  (t.complaint? part.1).map fun text => ⟨text, part.2⟩

namespace Lowering

/-- The state with more warnings. -/
def warned (s : Lowering) (ws : List Warning) : Lowering :=
  { s with
    messages := s.messages ++ ws.map Warning.diagnostic
    log := s.log ++ ws.map Warning.record }

/-- The state after a part: an unusable unit is warned of, unless this was done before. -/
def visit (t : UnitTable) (s : Lowering) (part : Part) : Lowering :=
  match t.warning? part with
  | none => s
  | some w =>
    if part ∈ s.reported then s
    else { s.warned [w] with reported := part :: s.reported }

/-- A part is warned of once. -/
@[simp] theorem visit_visit (t : UnitTable) (s : Lowering) (part : Part) :
    (s.visit t part).visit t part = s.visit t part := by
  unfold visit
  cases t.warning? part with
  | none => rfl
  | some w => by_cases h : part ∈ s.reported <;> simp [h]

end Lowering

namespace Lower

variable {t : UnitTable}

/-- A length is converted, and its part is visited. -/
theorem toBase_run (unit : String) (span : Option Span) (value : Float) (s : Lowering) :
    toBase t unit span value s = .ok (t.convert unit value) (s.visit t (unit, span)) := by
  unfold toBase Lowering.visit UnitTable.warning?
  rw [t.toBase?_eq]
  cases h : t.complaint? unit with
  | none => simp [pure_run]
  | some text =>
      simp only [reduceCtorEq, if_false, Option.map_some, t.convert_of_complaint h, t.unusableText_eq h]
      rw [bind_ok (get_run s)]
      by_cases hmem : (unit, span) ∈ s.reported
      · have hcontains : s.reported.contains (unit, span) = true := by simpa using hmem
        rw [if_pos hmem, if_pos hcontains]
        rfl
      · have hcontains : ¬ s.reported.contains (unit, span) = true := by simpa using hmem
        rw [if_neg hmem, if_neg hcontains]
        rfl

end Lower

/-! ### Models without a state -/

/-- A line in base units. -/
def UnitTable.convertLine (t : UnitTable) (unit : String) (l : Segment) : Segment :=
  ⟨t.convert unit l.x1, t.convert unit l.y1, t.convert unit l.x2, t.convert unit l.y2⟩

/-- The length of a line. -/
def Segment.length (l : Segment) : Float := Number.distance (l.x2 - l.x1) (l.y2 - l.y1)

/-- The angle of a line in degrees. -/
def Segment.angle (l : Segment) : Float :=
  Float.atan2 (l.y2 - l.y1) (l.x2 - l.x1) * (180 / 3.141592653589793)

namespace Drawing

def Room.part (r : Room) : Part := (r.unit, r.span)

def Wall.part (w : Wall) : Part := (w.unit, w.span)

def Door.part (d : Door) : Part := (d.unit, d.span)

def Grid.part (g : Grid) : Part := (g.unit, g.span)

def Room.lowered (t : UnitTable) (r : Room) : Model.Room :=
  { id := r.id
    x := t.convert r.unit r.x
    y := t.convert r.unit r.y
    w := t.convert r.unit r.width
    h := t.convert r.unit r.height
    label := r.label
    css := r.properties }

def Wall.lowered (t : UnitTable) (w : Wall) : Model.Wall :=
  let line := t.convertLine w.unit w.line
  { line, length := line.length, angle := line.angle }

def Door.lowered (t : UnitTable) (d : Door) : Model.Door :=
  let line := t.convertLine d.unit d.line
  { line, width := t.convert d.unit d.width, length := line.length, angle := line.angle }

def Grid.lowered (t : UnitTable) (g : Grid) : Model.Grid :=
  { mode := g.mode
    sx := t.convert g.unit g.sizeX
    sy := t.convert g.unit g.sizeY
    color := g.color
    alpha := g.alpha }

/-- The warning for a repeat pattern that is skipped. -/
def Repeat.skipped (r : Repeat) : Warning :=
  ⟨"Repeat spacing must be positive for " ++ r.component ++ ", pattern skipped", r.span⟩

/-- The length of the line in steps of the pattern. -/
def Repeat.steps (r : Repeat) : Float := r.line.length / r.spacing

/-- The number of rooms on the line: one more than it has whole steps. -/
def Repeat.count (r : Repeat) : Nat :=
  match Number.value? r.steps with
  | some steps => (⌊steps⌋ + 1).toNat
  | none => 0

/-- How far along the line a room stands: the rooms are spread evenly from its start to its end. -/
def Repeat.share (r : Repeat) (i : Nat) : Float := Float.ofNat i / Float.ofNat (max (r.count - 1) 1)

/-- The room with a given index: a square at its share of the line, with the component as its label
and a numbered id. -/
def Repeat.copy (r : Repeat) (i : Nat) : Room :=
  { id := Text.lower r.component ++ "_" ++ i.repr
    x := r.line.x1 + (r.line.x2 - r.line.x1) * r.share i
    y := r.line.y1 + (r.line.y2 - r.line.y1) * r.share i
    width := 0.3
    height := 0.3
    unit := r.unit
    label := some r.component
    properties := none
    span := r.span }

/-- The rooms of a repeat pattern; there are none if its spacing is not positive. -/
def Repeat.copies (r : Repeat) : List Room :=
  if r.spacing ≤ 0 then [] else (List.range r.count).map r.copy

/-- Why a repeat pattern has no number of copies. -/
def Repeat.fault? (r : Repeat) : Option Number.Unbounded :=
  if r.spacing ≤ 0 then none else Number.unbounded? r.steps

variable (d : Drawing)

/-- The sizes of the units of the drawing. -/
def table : UnitTable := (resolveUnits d.units).table

/-- The rooms of the drawing: those written out, then those of the repeat patterns. -/
def allRooms : List Room := d.rooms ++ d.repeats.flatMap Repeat.copies

/-- The model of the drawing: each part for itself, in its own unit. -/
def lowered : Model :=
  { scale := d.table.scale
    canvas := ⟨d.table.convert d.canvas.unit d.canvas.width,
      d.table.convert d.canvas.unit d.canvas.height⟩
    units := d.table.sizes
    rooms := d.allRooms.map (Room.lowered d.table)
    walls := d.walls.map (Wall.lowered d.table)
    doors := d.doors.map (Door.lowered d.table)
    grids := d.grids.map (Grid.lowered d.table) }

/-- The first fault among the repeat patterns. -/
def fault? : Option Number.Unbounded := d.repeats.findSome? Repeat.fault?

/-- The parts in the order of lowering; the canvas stands for the whole drawing. -/
def parts : List Part :=
  (d.canvas.unit, d.span) ::
    (d.allRooms.map Room.part ++ d.walls.map Wall.part ++ d.doors.map Door.part ++
      d.grids.map Grid.part)

/-- The record of a finished lowering. -/
def summary : Log.Record :=
  ⟨.debug, .compiler, "Compiled " ++ Text.quote d.name ++ ": " ++ d.allRooms.length.repr ++
    " rooms, " ++ d.walls.length.repr ++ " walls, " ++ d.doors.length.repr ++ " doors"⟩

end Drawing

namespace Lowering

/-- The state after unit resolution. -/
def resolved (s : Lowering) (units : List UnitDecl) : Lowering :=
  { s with
    messages := s.messages ++ (resolveUnits units).diagnostics
    log := s.log ++ (resolveUnits units).log }

/-- The state after a repeat pattern. -/
def expanded (s : Lowering) (r : Repeat) : Lowering :=
  if r.spacing ≤ 0 then s.warned [r.skipped] else s

/-- The state after a whole drawing. -/
def after (s : Lowering) (d : Drawing) : Lowering :=
  (d.parts.foldl (visit d.table) (d.repeats.foldl expanded (s.resolved d.units))).noted [d.summary]

end Lowering

namespace Lower

variable {t : UnitTable}

/-! ### The parts one by one -/

theorem segment_run (unit : String) (span : Option Span) (l : Segment) (s : Lowering) :
    segment t unit span l s = .ok (t.convertLine unit l) (s.visit t (unit, span)) := by
  unfold segment
  rw [bind_ok (toBase_run ..), bind_ok (toBase_run ..), bind_ok (toBase_run ..),
    bind_ok (toBase_run ..), Lowering.visit_visit, Lowering.visit_visit, Lowering.visit_visit]
  rfl

theorem canvas_run (d : Drawing) (s : Lowering) :
    canvas t d s = .ok ⟨t.convert d.canvas.unit d.canvas.width,
      t.convert d.canvas.unit d.canvas.height⟩ (s.visit t (d.canvas.unit, d.span)) := by
  unfold canvas
  rw [bind_ok (toBase_run ..), bind_ok (toBase_run ..), Lowering.visit_visit]
  rfl

theorem room_run (r : Drawing.Room) (s : Lowering) :
    room t r s = .ok (r.lowered t) (s.visit t r.part) := by
  unfold room
  rw [bind_ok (toBase_run ..), bind_ok (toBase_run ..), bind_ok (toBase_run ..),
    bind_ok (toBase_run ..), Lowering.visit_visit, Lowering.visit_visit, Lowering.visit_visit]
  rfl

theorem wall_run (w : Drawing.Wall) (s : Lowering) :
    wall t w s = .ok (w.lowered t) (s.visit t w.part) := by
  unfold wall
  rw [bind_ok (segment_run ..)]
  rfl

theorem door_run (d : Drawing.Door) (s : Lowering) :
    door t d s = .ok (d.lowered t) (s.visit t d.part) := by
  unfold door
  rw [bind_ok (segment_run ..)]
  simp only
  rw [bind_ok (toBase_run ..), Lowering.visit_visit]
  rfl

theorem grid_run (g : Drawing.Grid) (s : Lowering) :
    grid t g s = .ok (g.lowered t) (s.visit t g.part) := by
  unfold grid
  rw [bind_ok (toBase_run ..), bind_ok (toBase_run ..), Lowering.visit_visit]
  rfl

/-! ### Repeat patterns -/

theorem copyCount_eq_error_iff {r : Repeat} {cause : Number.Unbounded} :
    copyCount r = .error cause ↔ Number.unbounded? r.steps = some cause := by
  rw [← Number.floor_eq_error_iff]
  show Except.bind (Number.floor r.steps) _ = _ ↔ _
  cases Number.floor r.steps <;> simp [Except.bind, Pure.pure, Except.pure]

theorem copyCount_eq {r : Repeat} (h : Number.unbounded? r.steps = none) :
    copyCount r = .ok r.count := by
  obtain ⟨steps, hvalue, hfloor⟩ := Number.exists_floor h
  show Except.bind (Number.floor r.steps) _ = _
  unfold Repeat.count
  rw [hvalue, hfloor]
  rfl

theorem copyRoom_eq (r : Repeat) : copyRoom r r.count = r.copy := rfl

theorem copies_run {r : Repeat} (h : r.fault? = none) (s : Lowering) :
    copies r s = .ok r.copies (s.expanded r) := by
  unfold Repeat.fault? at h
  unfold copies Repeat.copies Lowering.expanded
  by_cases hspacing : r.spacing ≤ 0
  · rw [if_pos hspacing, if_pos hspacing, if_pos hspacing]
    rfl
  · rw [if_neg hspacing] at h
    rw [if_neg hspacing, if_neg hspacing, if_neg hspacing, copyCount_eq h, ← copyRoom_eq]
    rfl

theorem copies_fault {r : Repeat} {cause : Number.Unbounded} (h : r.fault? = some cause)
    (s : Lowering) : copies r s = .error (.unbounded cause) s := by
  unfold Repeat.fault? at h
  unfold copies
  by_cases hspacing : r.spacing ≤ 0
  · rw [if_pos hspacing] at h
    nomatch h
  · rw [if_neg hspacing] at h
    rw [if_neg hspacing, copyCount_eq_error_iff.mpr h]
    rfl

theorem expandRepeats_run {rs : List Repeat} (h : rs.findSome? Repeat.fault? = none)
    (s : Lowering) :
    expandRepeats rs s = .ok (rs.flatMap Repeat.copies) (rs.foldl Lowering.expanded s) := by
  unfold expandRepeats
  rw [List.findSome?_eq_none_iff] at h
  rw [map_ok (mapM_ok (fun r hr => copies_run (h r hr)) s), List.flatMap_def]

/-- The patterns before the first one with a fault are expanded. -/
theorem expandRepeats_fault {rs : List Repeat} {cause : Number.Unbounded}
    (h : rs.findSome? Repeat.fault? = some cause) (s : Lowering) :
    ∃ s', expandRepeats rs s = .error (.unbounded cause) s' := by
  suffices ∃ s', rs.mapM copies s = .error (.unbounded cause) s' by
    obtain ⟨s', hs'⟩ := this
    exact ⟨s', map_error hs'⟩
  induction rs generalizing s with
  | nil => simp at h
  | cons r rs ih =>
      rw [List.mapM_cons]
      cases hr : r.fault? with
      | some cause' =>
          obtain rfl : cause' = cause := by simpa [hr] using h
          exact ⟨s, bind_error (copies_fault hr s)⟩
      | none =>
          obtain ⟨s', hs'⟩ := ih (by simpa [hr] using h) (s.expanded r)
          exact ⟨s', by rw [bind_ok (copies_run hr s), bind_error hs']⟩

/-! ### Whole drawings -/

/-- A step for each part visits the parts. -/
theorem mapM_visit {α β : Type} {step : α → Lower β} {result : α → β} {part : α → Part}
    (h : ∀ a s, step a s = .ok (result a) (s.visit t (part a))) (as : List α) (s : Lowering) :
    as.mapM step s = .ok (as.map result) ((as.map part).foldl (Lowering.visit t) s) := by
  rw [mapM_ok (fun a _ => h a) s, List.foldl_map]

/-- Lowering gives the model of the drawing, from every state. -/
theorem drawing_run {d : Drawing} (h : d.fault? = none) (s : Lowering) :
    drawing d s = .ok d.lowered (s.after d) := by
  unfold drawing
  rw [bind_ok (note_run ..), bind_ok (modify_run ..),
    bind_ok (expandRepeats_run h _), bind_ok (canvas_run ..), bind_ok (mapM_visit room_run ..),
    bind_ok (mapM_visit wall_run ..), bind_ok (mapM_visit door_run ..),
    bind_ok (mapM_visit grid_run ..)]
  simp only [List.length_map, ← List.foldl_append]
  rfl

theorem drawing_fault {d : Drawing} {cause : Number.Unbounded} (h : d.fault? = some cause)
    (s : Lowering) : ∃ s', drawing d s = .error (.unbounded cause) s' := by
  obtain ⟨s', hs'⟩ := expandRepeats_fault h (s.resolved d.units)
  refine ⟨s', ?_⟩
  unfold drawing
  rw [bind_ok (note_run ..), bind_ok (modify_run ..)]
  exact bind_error hs'

theorem drawing_eq_ok_iff {d : Drawing} {m : Model} {s s' : Lowering} :
    drawing d s = .ok m s' ↔ d.fault? = none ∧ m = d.lowered ∧ s' = s.after d := by
  cases hfault : d.fault? with
  | none =>
      rw [drawing_run hfault, EStateM.Result.ok.injEq]
      exact ⟨fun h => ⟨rfl, h.1.symm, h.2.symm⟩, fun h => ⟨h.2.1.symm, h.2.2.symm⟩⟩
  | some cause =>
      obtain ⟨s₁, hs₁⟩ := drawing_fault hfault s
      rw [hs₁]
      simp

end Lower

/-! ### What the model depends on -/

namespace Drawing

/-- The drawing without all that the model does not show: places, imports, exports, placements and
the module. -/
def core (d : Drawing) : Drawing :=
  { d.eraseSpans with imports := [], exports := [], placements := [], module := none }

end Drawing

namespace Units

theorem pass_eraseSpan (us : List UnitDecl) (sizes : Entries Float) :
    pass (us.map UnitDecl.eraseSpan) sizes = pass us sizes := by
  unfold pass
  rw [List.foldl_map]
  rfl

theorem passes_eraseSpan (us : List UnitDecl) (n : Nat) (sizes : Entries Float) :
    passes (us.map UnitDecl.eraseSpan) n sizes = passes us n sizes := by
  induction n generalizing sizes with
  | zero => rfl
  | succ n ih => simp only [passes, pass_eraseSpan, ih]

theorem scale_eraseSpan (us : List UnitDecl) : scale (us.map UnitDecl.eraseSpan) = scale us := by
  unfold scale
  rw [List.find?_map]
  cases h : us.find? ((fun u => decide (u.name = baseUnit)) ∘ UnitDecl.eraseSpan) with
  | none =>
      rw [show us.find? (fun u => decide (u.name = baseUnit)) = none from h]
      rfl
  | some u =>
      rw [show us.find? (fun u => decide (u.name = baseUnit)) = some u from h]
      rfl

end Units

theorem resolveUnits_table_eraseSpan (us : List UnitDecl) :
    (resolveUnits (us.map UnitDecl.eraseSpan)).table = (resolveUnits us).table := by
  simp only [resolveUnits, Resolver.run, Resolver.ofDeclarations, Units.passes_eraseSpan,
    Units.scale_eraseSpan]

namespace Drawing

theorem table_core (d : Drawing) : d.core.table = d.table := resolveUnits_table_eraseSpan d.units

/-- The copies have the place of their pattern. -/
theorem Repeat.copies_eraseSpan (r : Repeat) : r.eraseSpan.copies = r.copies.map Room.eraseSpan := by
  unfold copies
  by_cases hspacing : r.spacing ≤ 0
  · rw [if_pos hspacing, if_pos (show r.eraseSpan.spacing ≤ 0 from hspacing)]
    rfl
  · rw [if_neg hspacing, if_neg (show ¬ r.eraseSpan.spacing ≤ 0 from hspacing), List.map_map]
    rfl

theorem fault?_core (d : Drawing) : d.core.fault? = d.fault? := by
  show (d.repeats.map Repeat.eraseSpan).findSome? Repeat.fault? = _
  rw [List.findSome?_map]
  rfl

theorem allRooms_core (d : Drawing) : d.core.allRooms = d.allRooms.map Room.eraseSpan := by
  show d.rooms.map Room.eraseSpan ++ (d.repeats.map Repeat.eraseSpan).flatMap Repeat.copies = _
  unfold allRooms
  rw [List.flatMap_map, List.map_append, List.map_flatMap]
  simp only [Repeat.copies_eraseSpan]

theorem lowered_core (d : Drawing) : d.core.lowered = d.lowered := by
  unfold lowered
  rw [table_core, allRooms_core]
  simp only [core, eraseSpans, List.map_map]
  rfl

end Drawing

/-- **Lowering is a function of the drawing**: where it gives a model once, it gives this model at
every run, from every state and for every drawing with the same core. -/
theorem drawing_stateless {d d' : Drawing} {m : Model} {s₀ s₁ : Lowering}
    (hd : Lower.drawing d s₀ = .ok m s₁) (hcore : d'.core = d.core) (n : Nat) (s : Lowering) :
    m = d.lowered ∧
      ∃ s', (List.replicate n d').mapM Lower.drawing s = .ok (List.replicate n d.lowered) s' := by
  obtain ⟨hnone, hm, -⟩ := Lower.drawing_eq_ok_iff.mp hd
  have hnone' : d'.fault? = none := by
    rw [← Drawing.fault?_core, hcore, Drawing.fault?_core, hnone]
  have hlowered : d'.lowered = d.lowered := by
    rw [← Drawing.lowered_core, hcore, Drawing.lowered_core]
  have hstep : ∀ a ∈ List.replicate n d', ∀ s, Lower.drawing a s = .ok a.lowered (s.after a) := by
    intro a ha s
    rw [List.eq_of_mem_replicate ha]
    exact Lower.drawing_run hnone' s
  have hruns := Lower.mapM_ok hstep s
  rw [List.map_replicate, hlowered] at hruns
  exact ⟨hm, _, hruns⟩

/-- A drawing with an unknown unit, a unit without size and two repeat patterns. -/
def terrace : Drawing :=
  { name := "Terrace"
    canvas := ⟨8, 6, baseUnit⟩
    units := [⟨"step", 25, "px", none⟩, ⟨"dot", 0, "px", none⟩]
    rooms := [⟨"shed", 1, 2, 3, 4, "step", some "Shed", none, none⟩,
      ⟨"pond", 1, 1, 2, 2, "ell", none, some [("fill", "blue")], none⟩]
    walls := [⟨⟨0, 0, 3, 4⟩, "dot", none⟩]
    doors := [⟨⟨0, 0, 1, 0⟩, 0.5, baseUnit, none⟩]
    grids := [⟨"dots", 1, 1, baseUnit, some "grey", some 0.25, none⟩]
    repeats := [⟨"Post", ⟨0, 0, 3, 4⟩, 2.5, baseUnit, none⟩, ⟨"Lamp", ⟨0, 0, 1, 1⟩, 0, baseUnit, none⟩]
    imports := []
    exports := []
    placements := []
    module := none
    span := none }

/-- The terrace at another place, with an import. -/
def movedTerrace : Drawing :=
  { terrace with
    imports := [⟨"tree", none, some "garden", none⟩]
    span := some ⟨⟨3, 1, 40⟩, ⟨9, 2, 200⟩⟩ }

theorem drawing_stateless_terrace :
    Lower.drawing terrace .empty = .ok terrace.lowered (Lowering.empty.after terrace) ∧
      terrace.lowered.rooms =
        [⟨"shed", 0.5, 1, 1.5, 2, some "Shed", none⟩,
          ⟨"pond", 1, 1, 2, 2, none, some [("fill", "blue")]⟩,
          ⟨"post_0", 0, 0, 0.3, 0.3, some "Post", none⟩,
          ⟨"post_1", 1.5, 2, 0.3, 0.3, some "Post", none⟩,
          ⟨"post_2", 3, 4, 0.3, 0.3, some "Post", none⟩] ∧
      movedTerrace.core = terrace.core ∧
      ∃ s', (List.replicate 2 movedTerrace).mapM Lower.drawing (Lowering.empty.after terrace) =
        .ok (List.replicate 2 terrace.lowered) s' := by
  have hrun := Lower.drawing_run (d := terrace) (by decide +kernel) .empty
  exact ⟨hrun, by decide +kernel, rfl, (drawing_stateless hrun rfl 2 _).2⟩

end FloorPlan
