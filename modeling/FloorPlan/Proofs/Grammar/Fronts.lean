import FloorPlan.Proofs.Grammar.Composition

/-! # Statements up to their ends

A statement has a front, and then a token that ends it: a semicolon, or the closing brace of a
room.  `Unclosed` is a statement whose front has been read, and `Parse.closed` reads the end of it.
Each item of the two loops, the module declaration and the canvas are of this form (`topItem_eq`,
`bodyItem_eq`, `moduleDecl?_eq`, `requiredCanvas_eq`).  The fronts are `Made` of elementary steps,
and a front that opens a statement takes a token. -/

namespace FloorPlan

open Drawing

/-- A statement up to its end. -/
structure Unclosed (α : Type) where
  /-- Whether a closing brace ends the statement, and not a semicolon. -/
  braced : Bool
  /-- Whether it is an error if the end is missing. -/
  strict : Bool
  /-- Where the statement starts. -/
  start : Position
  /-- What the statement gives, by its stretch. -/
  finish : Span → Option α

/-- The kind of the token that ends a statement. -/
def closerKind (braced : Bool) : Kind := if braced then .rightBrace else .semicolon

theorem closerKind_ne (braced : Bool) :
    closerKind braced ≠ .identifier ∧ closerKind braced ≠ .endOfInput := by
  cases braced <;> decide

namespace PlacementOption

/-- The place. -/
def place? : PlacementOption → Option Coordinate
  | place c => some c
  | _ => none

/-- The angle. -/
def rotate? : PlacementOption → Option Float
  | rotate x => some x
  | _ => none

/-- The factor. -/
def scale? : PlacementOption → Option Float
  | scale x => some x
  | _ => none

end PlacementOption

namespace Parse

variable {α : Type}

/-- Takes the token that ends a statement. -/
def closer (braced strict : Bool) : Parse Unit :=
  if strict then skip (closerKind braced) else discard (accept? [closerKind braced])

/-- Reads the end of a statement. -/
def close (u : Unclosed α) : Parse (Option α) := do
  closer u.braced u.strict
  return u.finish (← spanFrom u.start)

/-- A statement by its front; a front may also drop tokens and open no statement. -/
def closed (front : Parse (Option (Unclosed α))) : Parse (Option α) := do
  match ← front with
  | some u => close u
  | none => return none

/-! ### Fronts -/

/-- A mark, which gives nothing. -/
def markFront : Parse (Unclosed TopItem) := do
  let start := (← take).start
  return ⟨false, false, start, fun _ => none⟩

/-- The front of a unit declaration. -/
def unitFront : Parse (Unclosed TopItem) := do
  let start := (← take).start
  let name ← unitName
  skip .equals
  let size ← measure
  return ⟨false, true, start, fun span => some (.unit ⟨name, size.value, size.unit, span⟩)⟩

/-- The front of an import, with all that is dropped before its end. -/
def importFront : Parse (Unclosed TopItem) := do
  let start := (← take).start
  let name := (← identifier?).getD ""
  let localName ← valueAfter .asWord .identifier
  let source ← valueAfter .fromWord .string
  modify fun s => s.move (statementWidth 0 s.rest)
  return ⟨false, false, start, fun span => some (.imported ⟨name, localName, source, span⟩)⟩

/-- The front of an export, with all that is dropped before its end. -/
def exportFront : Parse (Unclosed TopItem) := do
  let start := (← take).start
  let isDefault ← accepts [.defaultWord]
  let name := (← identifier?).getD ""
  modify fun s => s.move (statementWidth 0 s.rest)
  return ⟨false, false, start, fun span => some (.exported ⟨name, isDefault, span⟩)⟩

/-- The front of a statement before the draw block. -/
def topFront : Parse (Option (Unclosed TopItem)) := do
  match (← get).current.kind with
  | .hierarchy => return some (← markFront)
  | .atUnit => return some (← unitFront)
  | .importWord => return some (← importFront)
  | .exportWord => return some (← exportFront)
  | k =>
    complain ("Unexpected token: " ++ k.text) (some "Expected @unit, import, export or @draw")
    discard take
    return none

/-- The front of the module declaration. -/
def moduleFront : Parse (Unclosed Module) := do
  let start := (← take).start
  let name ← expectValue .identifier
  return ⟨false, true, start, fun span => some ⟨name, span⟩⟩

/-- The front of the module declaration, which may be missing. -/
def moduleFront? : Parse (Option (Unclosed Module)) := do
  if (← get).sees [.atModule] then return some (← moduleFront) else return none

/-- The front of the canvas. -/
def canvasFront : Parse (Unclosed Canvas) := do
  let start := (← take).start
  let width ← measure
  times
  let height ← measure
  return ⟨false, true, start, fun _ => some ⟨width.value, height.value, width.unit⟩⟩

/-- The front of the canvas, which is required. -/
def canvasFront? : Parse (Option (Unclosed Canvas)) := do
  if (← get).sees [.atCanvas] then return some (← canvasFront)
  else
    complain "@canvas is required inside @draw" (some "@canvas 10U x 10U;")
    return none

/-- The front of a room, with its properties if it has braces. -/
def roomFront : Parse (Unclosed BodyItem) := do
  let start := (← take).start
  let id ← expectValue .identifier
  skip .atWord
  let place ← coordinate
  skip .sizeWord
  let size ← coordinate
  let braces ← accepts [.leftBrace]
  let properties ← if braces then many [.rightBrace, .endOfInput] property else pure []
  let label := (properties.filterMap Property.label?).getLast?
  let style := Entries.ofPairs (properties.filterMap Property.style?)
  return ⟨braces, braces, start, fun span =>
    some (.room ⟨id, place.x, place.y, size.x, size.y, place.unit, label,
      if style.isEmpty then none else some style, span⟩)⟩

/-- The front of a wall. -/
def wallFront : Parse (Unclosed BodyItem) := do
  let start := (← take).start
  let (line, unit) ← segment
  return ⟨false, true, start, fun span => some (.wall ⟨line, unit, span⟩)⟩

/-- The front of a door. -/
def doorFront : Parse (Unclosed BodyItem) := do
  let start := (← take).start
  let (line, unit) ← segment
  skip .widthWord
  let width ← measure
  return ⟨false, true, start, fun span => some (.door ⟨line, width.value, unit, span⟩)⟩

/-- The front of a repeat pattern. -/
def copiesFront : Parse (Unclosed BodyItem) := do
  let start := (← take).start
  let component ← expectValue .identifier
  let (line, unit) ← segment
  skip .spaceWord
  let spacing ← measure
  return ⟨false, true, start, fun span =>
    some (.copies ⟨component, line, spacing.value, unit, span⟩)⟩

/-- The front of a grid. -/
def gridFront : Parse (Unclosed BodyItem) := do
  let start := (← take).start
  let mode ← accept? modeWords
  let (sizeX, sizeY, unit) ← gridSize
  let color ← gridColor
  let alpha ← gridAlpha
  return ⟨false, true, start, fun span =>
    some (.grid ⟨(mode.map (·.value)).getD "grid", sizeX, sizeY, unit, color, alpha, span⟩)⟩

/-- The front of a placement, with all its options. -/
def placementFront : Parse (Unclosed BodyItem) := do
  let start := (← take).start
  let source := (← identifier?).getD ""
  let part ← valueAfter .dot .identifier
  let options ← many [.semicolon, .rightBrace, .endOfInput] placementOption
  return ⟨false, false, start, fun span =>
    some (.placement ⟨source, part, (options.filterMap PlacementOption.place?).getLast?,
      (options.filterMap PlacementOption.rotate?).getLast?,
      (options.filterMap PlacementOption.scale?).getLast?, span⟩)⟩

/-- The front of a statement in the draw block. -/
def bodyFront : Parse (Option (Unclosed BodyItem)) := do
  match (← get).current.kind with
  | .roomWord => return some (← roomFront)
  | .wallWord => return some (← wallFront)
  | .doorWord => return some (← doorFront)
  | .atGrid => return some (← gridFront)
  | .useWord => return some (← placementFront)
  | .repeatWord => return some (← copiesFront)
  | k =>
    complain ("Unexpected token in draw body: " ++ k.text) none
    discard take
    return none

/-! ### Statements are closed fronts -/

/-- A semicolon that is reported if it is missing. -/
theorem close_strict (start : Position) (finish : Span → Option α) :
    close ⟨false, true, start, finish⟩ = do
      skip .semicolon
      return finish (← spanFrom start) := rfl

/-- A semicolon that may be missing. -/
theorem close_lax (start : Position) (finish : Span → Option α) :
    close ⟨false, false, start, finish⟩ = do
      discard (accept? [.semicolon])
      return finish (← spanFrom start) := rfl

/-- A brace that is reported if it is missing. -/
theorem close_braced (start : Position) (finish : Span → Option α) :
    close ⟨true, true, start, finish⟩ = do
      skip .rightBrace
      return finish (← spanFrom start) := rfl

/-- Two ways to go on after the same step. -/
theorem bind_bind_congr {β γ δ : Type} {p : Parse α} {f : α → Parse β} {f' : β → Parse δ}
    {g : α → Parse γ} {g' : γ → Parse δ} (h : ∀ a, f a >>= f' = g a >>= g') :
    p >>= f >>= f' = p >>= g >>= g' := by
  rw [bind_assoc, bind_assoc]
  exact bind_congr h

theorem room_eq : (room >>= fun r => pure (some (.room r))) = roomFront >>= close := by
  unfold room roomFront roomBody
  refine bind_bind_congr fun t => bind_bind_congr fun id => bind_bind_congr fun _ =>
    bind_bind_congr fun place => bind_bind_congr fun _ => bind_bind_congr fun size => ?_
  simp only [bind_assoc]
  refine bind_congr fun braces => ?_
  cases braces with
  | true =>
      refine .trans (bind_assoc _ _ _) (.trans (bind_congr fun properties => ?_)
        (bind_assoc _ _ _).symm)
      simp only [bind_assoc, pure_bind, close_braced]
  | false => simp only [Bool.false_eq_true, if_false, bind_assoc, pure_bind, close_lax]

theorem wall_eq : (wall >>= fun w => pure (some (.wall w))) = wallFront >>= close :=
  bind_bind_congr fun t => bind_bind_congr fun l => by simp only [bind_assoc, pure_bind, close_strict]

theorem door_eq : (door >>= fun d => pure (some (.door d))) = doorFront >>= close :=
  bind_bind_congr fun t => bind_bind_congr fun l => by simp only [bind_assoc, pure_bind, close_strict]

theorem copies_eq : (copies >>= fun r => pure (some (.copies r))) = copiesFront >>= close :=
  bind_bind_congr fun t => bind_bind_congr fun c => bind_bind_congr fun l => by
    simp only [bind_assoc, pure_bind, close_strict]

theorem grid_eq : (grid >>= fun g => pure (some (.grid g))) = gridFront >>= close :=
  bind_bind_congr fun t => bind_bind_congr fun m => bind_bind_congr fun l => by
    simp only [bind_assoc, pure_bind, close_strict]

theorem placement_eq :
    (placement >>= fun p => pure (some (.placement p))) = placementFront >>= close :=
  bind_bind_congr fun t => bind_bind_congr fun source => bind_bind_congr fun part =>
    bind_bind_congr fun options => by
      simp only [bind_assoc, pure_bind, close_lax]
      rfl

theorem bodyItem_eq : bodyItem = closed bodyFront := by
  unfold bodyItem bodyFront closed
  rw [bind_assoc]
  refine bind_congr fun s => ?_
  cases s.current.kind <;> simp only [bind_assoc, pure_bind, room_eq, wall_eq, door_eq,
    copies_eq, grid_eq, placement_eq]

theorem unitDecl_eq : (unitDecl >>= fun u => pure (some (.unit u))) = unitFront >>= close := by
  simp only [unitDecl, unitFront, bind_assoc, pure_bind, close_strict]

theorem importDecl_eq :
    (importDecl >>= fun i => pure (some (.imported i))) = importFront >>= close := by
  simp only [importDecl, importFront, skipStatement, bind_assoc, pure_bind, close_lax]

theorem exportDecl_eq :
    (exportDecl >>= fun e => pure (some (.exported e))) = exportFront >>= close := by
  simp only [exportDecl, exportFront, skipStatement, bind_assoc, pure_bind, close_lax]

theorem moduleDecl_eq : (moduleDecl >>= fun m => pure (some m)) = moduleFront >>= close := by
  simp only [moduleDecl, moduleFront, bind_assoc, pure_bind, close_strict]

theorem moduleDecl?_eq : moduleDecl? = closed moduleFront? := by
  simp only [moduleDecl?, moduleFront?, closed, sees, bind_assoc, pure_bind]
  refine bind_congr fun s => ?_
  cases s.sees [.atModule] with
  | true => simp only [if_true, bind_assoc, pure_bind, moduleDecl_eq]
  | false => simp only [Bool.false_eq_true, if_false, pure_bind]

section

variable {s : Parser}

theorem made_closer (braced strict : Bool) : Made (closer braced strict) :=
  .ite made_skip (.discard made_accept?)

/-- The end of a statement is taken if it is ahead, whether it is required or not. -/
theorem closer_run {braced : Bool} (h : nextKind s.rest = closerKind braced) (strict : Bool) :
    closer braced strict s = .ok () (s.move 1) := by
  cases strict with
  | true => exact discard_ok (expect_some h)
  | false => exact discard_ok (accept?_some (by simp [h]))

/-- Two ways to go on after a step that only goes forward. -/
theorem bind_congr_run {β : Type} {p : Parse α} {q q' : α → Parse β} (hs : s.shift = 0)
    (hp : Forward p) (h : ∀ a t, t.shift = 0 → q a t = q' a t) : (p >>= q) s = (p >>= q') s := by
  cases hrun : p s with
  | error f t => rw [bind_eq_error.mpr (.inl hrun), bind_eq_error.mpr (.inl hrun)]
  | ok a t => rw [bind_ok hrun, bind_ok hrun, h a t ((hp.ok hs hrun).shift hs)]

/-- A statement that does not depend on its stretch need not ask for it. -/
theorem close_const (hs : s.shift = 0) (braced strict : Bool) (start : Position) (o : Option α) :
    close ⟨braced, strict, start, fun _ => o⟩ s =
      (closer braced strict >>= fun _ => pure o : Parse (Option α)) s := by
  refine bind_congr_run hs (made_closer braced strict).forward fun _ t ht => ?_
  rw [bind_ok (spanFrom_run ht start)]

theorem topItem_eq (hs : s.shift = 0) : topItem s = closed topFront s := by
  unfold topItem topFront closed
  rw [bind_assoc, bind_ok (get_run s)]
  by_cases hk : s.current.kind = .hierarchy
  · rw [bind_ok (accepts_true (by rw [← Parser.current_kind, hk]; simp))]
    simp only [hk, if_true, bind_assoc, pure_bind, markFront]
    rw [bind_ok (take_run s), close_const (s := s.move 1) hs]
    rfl
  · rw [bind_ok (accepts_false (by rw [← Parser.current_kind]; simpa using hk)),
      if_neg Bool.false_ne_true, bind_ok (get_run s)]
    cases hkind : s.current.kind with
    | hierarchy => exact absurd hkind hk
    | _ => simp only [bind_assoc, pure_bind, unitDecl_eq, importDecl_eq, exportDecl_eq]

theorem requiredCanvas_eq (hs : s.shift = 0) :
    requiredCanvas s = (do return (← closed canvasFront?).getD fallbackCanvas : Parse Canvas) s := by
  unfold requiredCanvas canvas canvasFront? canvasFront closed
  simp only [bind_assoc]
  rw [bind_ok (sees_run _ s), bind_ok (get_run s)]
  cases s.sees [.atCanvas] with
  | true =>
      simp only [if_true, bind_assoc, pure_bind, close_strict]
      refine bind_congr_run (s := s.move 1) hs forward_measure fun width t ht => ?_
      refine bind_congr_run ht forward_times fun _ t ht => ?_
      refine bind_congr_run ht forward_measure fun height t ht => ?_
      refine bind_congr_run ht forward_skip fun _ t ht => ?_
      rw [bind_ok (spanFrom_run ht _)]
      rfl
  | false => rfl

end

end Parse

/-! ### What fronts do -/

theorem Parser.rest_ne_nil {s : Parser} (h : s.current.kind ≠ .endOfInput) : s.rest ≠ [] := by
  intro hr
  rw [current_kind, hr] at h
  exact h rfl

/-- The step is made of elementary ones, and if it opens a statement in the state `s`, it takes a
token there. -/
structure OpensAt {α : Type} (s : Parser) (front : Parse (Option (Unclosed α))) : Prop where
  made : Made front
  takes : ∀ {u t}, s.shift = 0 → front s = .ok (some u) t → t.rest.length < s.rest.length

/-- The step is made of elementary ones, and if it opens a statement, it takes a token. -/
structure Front {α : Type} (front : Parse (Option (Unclosed α))) : Prop where
  made : Made front
  takes : ∀ {s u t}, s.shift = 0 → front s = .ok (some u) t → t.rest.length < s.rest.length

section

variable {α : Type} {s : Parser}

theorem Front.look {f : Parser → Parse (Option (Unclosed α))} (hf : ∀ s, OpensAt s (f s))
    (hcurrent : ∀ s s', s.current = s'.current → f s = f s') : Front (get >>= f) := by
  refine ⟨.look (fun s => (hf s).made) hcurrent, fun {s u t} hs hrun => ?_⟩
  rw [Parse.bind_ok (Parse.get_run s)] at hrun
  exact (hf s).takes hs hrun

theorem opensAt_take {q : Token → Parse (Unclosed α)} (hkind : s.current.kind ≠ .endOfInput)
    (hq : ∀ t, Made (q t)) : OpensAt s ((Parse.take >>= q) >>= fun u => pure (some u)) := by
  refine ⟨.bind (.bind .take hq) fun _ => .pure _, fun hs hrun => ?_⟩
  rw [bind_assoc, Parse.bind_ok (Parse.take_run s)] at hrun
  have hmade : Made (q s.current >>= fun u => pure (some u)) := .bind (hq _) fun _ => .pure _
  exact (hmade.forward.ok (s := s.move 1) hs hrun).length_lt (Parser.rest_ne_nil hkind)

/-- A token that starts no statement is dropped. -/
theorem opensAt_dropped (text : String) (hint : Option String) :
    OpensAt s (do Parse.complain text hint; discard Parse.take; return (none : Option (Unclosed α))) :=
  ⟨.bind made_complain fun _ => .bind (.discard .take) fun _ => .pure _, fun _ hrun => by cases hrun⟩

end

theorem front_top : Front Parse.topFront := by
  refine .look (fun s => ?_) fun s s' h => by simp only [h]
  split
  · next hk => exact opensAt_take (by simp [hk]) fun _ => .pure _
  · next hk =>
      exact opensAt_take (by simp [hk]) fun _ => .bind .unitName fun _ => .bind made_skip fun _ =>
        .bind made_measure fun _ => .pure _
  · next hk =>
      exact opensAt_take (by simp [hk]) fun _ => .bind made_identifier? fun _ =>
        .bind made_valueAfter fun _ => .bind made_valueAfter fun _ => .bind .statement fun _ => .pure _
  · next hk =>
      exact opensAt_take (by simp [hk]) fun _ => .bind made_accepts fun _ =>
        .bind made_identifier? fun _ => .bind .statement fun _ => .pure _
  · exact opensAt_dropped _ _

theorem front_module : Front Parse.moduleFront? := by
  refine .look (fun s => ?_) fun s s' h => by rw [Parser.sees_congr h]
  split
  · next hk =>
      exact opensAt_take (by simp_all [Parser.sees]) fun _ => .bind made_expectValue fun _ => .pure _
  · exact ⟨.pure _, fun _ hrun => by cases hrun⟩

theorem front_canvas : Front Parse.canvasFront? := by
  refine .look (fun s => ?_) fun s s' h => by rw [Parser.sees_congr h]
  split
  · next hk =>
      exact opensAt_take (by simp_all [Parser.sees]) fun _ => .bind made_measure fun _ =>
        .bind made_times fun _ => .bind made_measure fun _ => .pure _
  · exact ⟨.bind made_complain fun _ => .pure _, fun _ hrun => by cases hrun⟩

theorem front_body : Front Parse.bodyFront := by
  refine .look (fun s => ?_) fun s s' h => by simp only [h]
  split
  · next hk =>
      exact opensAt_take (by simp [hk]) fun _ => .bind made_expectValue fun _ =>
        .bind made_skip fun _ => .bind made_coordinate fun _ => .bind made_skip fun _ =>
          .bind made_coordinate fun _ => .bind made_accepts fun _ =>
            .ite (.bind (.many _ made_property) fun _ => .pure _) (.bind (.pure _) fun _ => .pure _)
  · next hk => exact opensAt_take (by simp [hk]) fun _ => .bind made_segment fun _ => .pure _
  · next hk =>
      exact opensAt_take (by simp [hk]) fun _ => .bind made_segment fun _ =>
        .bind made_skip fun _ => .bind made_measure fun _ => .pure _
  · next hk =>
      exact opensAt_take (by simp [hk]) fun _ => .bind made_accept? fun _ =>
        .bind made_gridSize fun _ => .bind made_gridColor fun _ => .bind made_gridAlpha fun _ => .pure _
  · next hk =>
      exact opensAt_take (by simp [hk]) fun _ => .bind made_identifier? fun _ =>
        .bind made_valueAfter fun _ => .bind (.many _ made_placementOption) fun _ => .pure _
  · next hk =>
      exact opensAt_take (by simp [hk]) fun _ => .bind made_expectValue fun _ =>
        .bind made_segment fun _ => .bind made_skip fun _ => .bind made_measure fun _ => .pure _
  · exact opensAt_dropped _ _

end FloorPlan
