import FloorPlan.Proofs.Model.Stateless
import FloorPlan.Proofs.Drawing.Spans

/-! # The warnings of lowering

`Drawing.warnings` lists the warnings of a drawing without the run: the unresolved units, the
skipped repeat patterns, and each declaration with an unusable unit once.  Lowering remembers what
it warned of by unit and stretch, so it gives exactly this list where the declarations differ in
these two (`Lowering.after_eq`).  In a parsed drawing they do, since every statement starts with a
token of its own. -/

namespace FloorPlan

open Drawing

/-! ### The list of warnings -/

namespace Drawing

def UnitDecl.unresolved (u : UnitDecl) : Warning := ⟨"Could not resolve unit: " ++ u.name, u.span⟩

def Repeat.part (r : Repeat) : Part := (r.unit, r.span)

variable (d : Drawing)

/-- The declarations with lengths in the order of lowering.  A repeat pattern counts if it has
copies; the canvas stands for the whole drawing. -/
def declarations : List Part :=
  (d.canvas.unit, d.span) ::
    (d.rooms.map Room.part ++ (d.repeats.filter (!·.copies.isEmpty)).map Repeat.part ++
      d.walls.map Wall.part ++ d.doors.map Door.part ++ d.grids.map Grid.part)

/-- The warnings of a drawing. -/
def warnings : List Warning :=
  (d.units.filter (!d.table.sizes.has ·.name)).map UnitDecl.unresolved ++
    (d.repeats.filter (·.spacing ≤ 0)).map Repeat.skipped ++
    d.declarations.filterMap d.table.warning?

end Drawing

/-! ### Warnings without places -/

/-- The warning without its place. -/
def Warning.eraseSpan (w : Warning) : Warning := { w with span := none }

theorem UnitTable.warning?_eraseSpan (t : UnitTable) (part : Part) :
    t.warning? (part.1, none) = (t.warning? part).map Warning.eraseSpan := by
  unfold warning?
  rw [Option.map_map]
  rfl

namespace Drawing

theorem declarations_core (d : Drawing) :
    d.core.declarations = d.declarations.map fun part => (part.1, none) := by
  unfold declarations
  simp only [core, eraseSpans, List.map_cons, List.map_append, List.map_map, List.filter_map]
  have hcopies : ∀ r : Repeat, r.eraseSpan.copies.isEmpty = r.copies.isEmpty := by
    intro r
    rw [Repeat.copies_eraseSpan, List.isEmpty_map]
  simp only [Function.comp_def, hcopies]
  rfl

/-- The texts of the warnings do not depend on places. -/
theorem warnings_core (d : Drawing) : d.core.warnings = d.warnings.map Warning.eraseSpan := by
  unfold warnings
  rw [table_core, declarations_core, List.filterMap_map]
  simp only [core, eraseSpans, List.map_append, List.map_map, List.filter_map, List.map_filterMap,
    Function.comp_def, UnitTable.warning?_eraseSpan]
  rfl

end Drawing

/-! ### Visits -/

namespace Lowering

variable {t : UnitTable}

@[simp] theorem warned_nil (s : Lowering) : s.warned [] = s := by simp [warned]

theorem warned_warned (s : Lowering) (ws ws' : List Warning) :
    (s.warned ws).warned ws' = s.warned (ws ++ ws') := by
  simp [warned]

theorem foldl_expanded (rs : List Repeat) (s : Lowering) :
    rs.foldl expanded s = s.warned ((rs.filter (·.spacing ≤ 0)).map Repeat.skipped) := by
  induction rs generalizing s with
  | nil => simp
  | cons r rs ih =>
      rw [List.foldl_cons, ih]
      unfold expanded
      by_cases hspacing : r.spacing ≤ 0
      · simp [hspacing, warned_warned]
      · simp [hspacing]

theorem foldl_visit_replicate (n : Nat) (part : Part) (s : Lowering) :
    (List.replicate (n + 1) part).foldl (visit t) s = s.visit t part := by
  induction n generalizing s with
  | zero => rfl
  | succ n ih => rw [List.replicate_succ, List.foldl_cons, ih, visit_visit]

/-- The copies of a pattern are one declaration. -/
theorem copies_part (r : Repeat) :
    r.copies.map Room.part = List.replicate r.copies.length r.part := by
  rw [List.eq_replicate_iff]
  refine ⟨List.length_map _, fun part hpart => ?_⟩
  obtain ⟨room, hroom, rfl⟩ := List.mem_map.mp hpart
  unfold Repeat.copies at hroom
  split at hroom
  · nomatch hroom
  · obtain ⟨i, -, rfl⟩ := List.mem_map.mp hroom
    rfl

theorem foldl_visit_copies (rs : List Repeat) (s : Lowering) :
    ((rs.flatMap Repeat.copies).map Room.part).foldl (visit t) s =
      ((rs.filter (!·.copies.isEmpty)).map Repeat.part).foldl (visit t) s := by
  induction rs generalizing s with
  | nil => rfl
  | cons r rs ih =>
      rw [List.flatMap_cons, List.map_append, List.foldl_append, copies_part, ih]
      cases hlength : r.copies.length with
      | zero =>
          have hnil : r.copies = [] := List.length_eq_zero_iff.mp hlength
          simp [hnil]
      | succ n =>
          have hne : r.copies ≠ [] := fun hnil => by simp [hnil] at hlength
          rw [foldl_visit_replicate]
          simp [hne]

theorem foldl_visit_parts (d : Drawing) (s : Lowering) :
    d.parts.foldl (visit t) s = d.declarations.foldl (visit t) s := by
  unfold parts declarations allRooms
  simp only [List.foldl_cons, List.foldl_append, List.map_append, foldl_visit_copies]

/-- Different declarations that are new are warned of one by one. -/
theorem foldl_visit {parts : List Part} {s : Lowering} (hnodup : parts.Nodup)
    (hnew : ∀ part ∈ parts, part ∉ s.reported) :
    ∃ seen, parts.foldl (visit t) s =
      { s.warned (parts.filterMap t.warning?) with reported := seen } := by
  induction parts generalizing s with
  | nil => exact ⟨s.reported, by simp⟩
  | cons part parts ih =>
      obtain ⟨hpart, hnodup⟩ := List.nodup_cons.mp hnodup
      rw [List.foldl_cons]
      cases hw : t.warning? part with
      | none =>
          have hvisit : s.visit t part = s := by simp [visit, hw]
          rw [hvisit, List.filterMap_cons_none hw]
          exact ih hnodup fun other hother => hnew other (List.mem_cons_of_mem part hother)
      | some w =>
          have hvisit : s.visit t part = { s.warned [w] with reported := part :: s.reported } := by
            simp [visit, hw, hnew part List.mem_cons_self]
          have hothers : ∀ other ∈ parts, other ∉ part :: s.reported := by
            intro other hother hmem
            rcases List.mem_cons.mp hmem with rfl | hmem
            · exact hpart hother
            · exact hnew other (List.mem_cons_of_mem part hother) hmem
          obtain ⟨seen, hseen⟩ := ih (s := { s.warned [w] with reported := part :: s.reported })
            hnodup hothers
          refine ⟨seen, ?_⟩
          rw [hvisit, hseen, List.filterMap_cons_some hw]
          simp [warned]

theorem resolved_eq (s : Lowering) (us : List UnitDecl) : ∃ settled : String,
    s.resolved us = (s.noted [⟨.debug, .compiler, settled⟩]).warned
      ((us.filter fun u => !(resolveUnits us).table.sizes.has u.name).map UnitDecl.unresolved) := by
  refine ⟨"Unit resolution settled after " ++
    (Units.passes us Units.maxPasses [(baseUnit, Units.scale us)]).1.repr ++ " pass(es)", ?_⟩
  simp only [resolved, noted, warned, resolveUnits, Resolver.run, Resolver.ofDeclarations, List.nil_append,
    List.map_map, List.append_assoc, List.singleton_append]
  rfl

/-- Lowering gives the warnings of the drawing between two records of its own. -/
theorem after_eq {d : Drawing} {s : Lowering} (hnodup : d.declarations.Nodup)
    (hnew : s.reported = []) : ∃ (settled : String) (seen : List Part),
    s.after d =
      { messages := s.messages ++ d.warnings.map Warning.diagnostic
        log := s.log ++ ⟨.debug, .compiler, settled⟩ :: d.warnings.map Warning.record ++ [d.summary]
        reported := seen } := by
  obtain ⟨settled, hsettled⟩ := s.resolved_eq d.units
  unfold after
  rw [hsettled, foldl_expanded, foldl_visit_parts, warned_warned]
  have hunseen : ∀ ws, ∀ part ∈ d.declarations,
      part ∉ ((s.noted [⟨.debug, .compiler, settled⟩]).warned ws).reported := by
    intro ws part _
    simp [noted, warned, hnew]
  obtain ⟨seen, hseen⟩ := foldl_visit (t := d.table) hnodup (hunseen _)
  rw [hseen, warned_warned]
  refine ⟨settled, seen, ?_⟩
  unfold warnings
  simp [warned, noted, table]

end Lowering

/-! ### Parsed drawings -/

namespace Drawing

variable {d : Drawing} {top : List TopItem} {body : List BodyItem}

/-- The statements with lengths, kind by kind. -/
def measured (d : Drawing) : List BodyItem :=
  d.rooms.map .room ++ d.repeats.map .copies ++ d.walls.map .wall ++ d.doors.map .door ++
    d.grids.map .grid

namespace Statements

theorem sublists (h : d.Statements top body) :
    (d.rooms.map .room).Sublist body ∧ (d.repeats.map .copies).Sublist body ∧
      (d.walls.map .wall).Sublist body ∧ (d.doors.map .door).Sublist body ∧
      (d.grids.map .grid).Sublist body := by
  rw [← h.rooms, ← h.repeats, ← h.walls, ← h.doors, ← h.grids]
  refine ⟨?_, ?_, ?_, ?_, ?_⟩ <;>
  · apply filterMap_map_sublist
    intro i a hi
    cases i <;> cases hi
    rfl

theorem measured_subset (h : d.Statements top body) : d.measured ⊆ body := by
  obtain ⟨hrooms, hrepeats, hwalls, hdoors, hgrids⟩ := h.sublists
  unfold measured
  simp only [List.append_subset]
  exact ⟨⟨⟨⟨hrooms.subset, hrepeats.subset⟩, hwalls.subset⟩, hdoors.subset⟩, hgrids.subset⟩

theorem measured_nodup (h : d.Statements top body) (hbody : body.Nodup) : d.measured.Nodup := by
  obtain ⟨hrooms, hrepeats, hwalls, hdoors, hgrids⟩ := h.sublists
  -- statements of two kinds differ
  unfold measured
  simp [List.nodup_append, hrooms.nodup hbody, hrepeats.nodup hbody, hwalls.nodup hbody,
    hdoors.nodup hbody, hgrids.nodup hbody, or_imp, forall_and]

/-- Declarations differ where statements start at different places. -/
theorem declarations_nodup (h : d.Statements top body)
    (hstarts : (startOf d.span :: body.map fun item => startOf item.span).Nodup) :
    d.declarations.Nodup := by
  obtain ⟨hspan, hbody⟩ := List.nodup_cons.mp hstarts
  have hinj := List.inj_on_of_nodup_map hbody
  have hall : (startOf d.span :: d.measured.map fun item => startOf item.span).Nodup := by
    rw [List.nodup_cons]
    constructor
    · intro hmem
      exact hspan (List.map_subset _ h.measured_subset hmem)
    · refine (h.measured_nodup hbody.of_map).map_on fun i hi j hj he => ?_
      exact hinj (h.measured_subset hi) (h.measured_subset hj) he
  refine List.Nodup.of_map (fun part => startOf part.2) (hall.sublist ?_)
  unfold declarations measured
  simp only [List.map_cons, List.map_append, List.map_map]
  refine List.Sublist.cons_cons _ ?_
  refine ((((List.Sublist.refl _).append ?_).append (.refl _)).append (.refl _)).append (.refl _)
  exact List.filter_sublist.map _

/-- Every declaration is the drawing or a statement. -/
theorem span_of_declaration {part : Part} (hpart : part ∈ d.declarations) :
    part.2 = d.span ∨ ∃ item ∈ d.measured, part.2 = item.span := by
  unfold declarations at hpart
  unfold measured
  simp only [List.mem_cons, List.mem_append, List.mem_map, List.mem_filter] at hpart ⊢
  rcases hpart with rfl | (((⟨r, hr, rfl⟩ | ⟨r, ⟨hr, -⟩, rfl⟩) | ⟨w, hw, rfl⟩) | ⟨o, ho, rfl⟩) |
    ⟨g, hg, rfl⟩
  · exact .inl rfl
  · exact .inr ⟨.room r, by simp [hr], rfl⟩
  · exact .inr ⟨.copies r, by simp [hr], rfl⟩
  · exact .inr ⟨.wall w, by simp [hw], rfl⟩
  · exact .inr ⟨.door o, by simp [ho], rfl⟩
  · exact .inr ⟨.grid g, by simp [hg], rfl⟩

/-- Where every statement has a place, every warning has one. -/
theorem warnings_span (h : d.Statements top body) (hspan : d.span.isSome = true)
    (htop : ∀ item ∈ top, item.span.isSome = true)
    (hbody : ∀ item ∈ body, item.span.isSome = true) : ∀ w ∈ d.warnings, w.span.isSome = true := by
  intro w hw
  unfold warnings at hw
  rw [List.mem_append, List.mem_append] at hw
  rcases hw with (hw | hw) | hw
  · obtain ⟨u, hu, rfl⟩ := List.mem_map.mp hw
    have hmem : u ∈ top.filterMap TopItem.unit? := by
      rw [h.units]
      exact List.mem_of_mem_filter hu
    obtain ⟨item, hitem, hsel⟩ := List.mem_filterMap.mp hmem
    cases item <;> cases hsel
    exact htop _ hitem
  · obtain ⟨r, hr, rfl⟩ := List.mem_map.mp hw
    refine hbody (.copies r) (h.measured_subset ?_)
    simp [measured, List.mem_of_mem_filter hr]
  · obtain ⟨part, hpart, hsome⟩ := List.mem_filterMap.mp hw
    obtain ⟨text, -, rfl⟩ := Option.map_eq_some_iff.mp hsome
    show part.2.isSome = true
    rcases span_of_declaration hpart with hd | ⟨item, hitem, hi⟩
    · rw [hd]
      exact hspan
    · rw [hi]
      exact hbody item (h.measured_subset hitem)

end Statements

end Drawing

/-- **The warnings of a lowering**: for a parsed source these are the warnings of the drawing, in
the problems and in the log, and each names the place of its declaration. -/
theorem lowering_warnings {source : String} {tokens : List Token} {parsed : Parsed} {model : Model}
    {s : Lowering} (htokens : tokenize source = .ok tokens) (hparse : parse tokens = .ok parsed)
    (hlower : Lower.drawing parsed.drawing .empty = .ok model s) :
    s.messages = parsed.drawing.warnings.map Warning.diagnostic ∧
      s.log.filter (·.level = .warning) = parsed.drawing.warnings.map Warning.record ∧
      ∀ w ∈ parsed.drawing.warnings, ∃ span : Span, w.span = some span ∧
        w.record.message = w.text ++ (" (" ++ ("line " ++ span.start.line.repr ++ ", col " ++
          span.start.column.repr) ++ ")") := by
  obtain ⟨top, body, hstatements, hstarts, hspan, htop, hbody⟩ := parse_starts htokens hparse
  obtain ⟨settled, seen, hafter⟩ := Lowering.after_eq (s := .empty)
    (hstatements.declarations_nodup hstarts) rfl
  obtain ⟨-, -, hs⟩ := Lower.drawing_eq_ok_iff.mp hlower
  rw [hs, hafter]
  refine ⟨rfl, ?_, fun w hw => ?_⟩
  · have hrecords : ∀ r ∈ parsed.drawing.warnings.map Warning.record,
        decide (r.level = .warning) = true := by
      intro r hr
      obtain ⟨w, -, rfl⟩ := List.mem_map.mp hr
      rfl
    simp [Lowering.empty, Drawing.summary, List.filter_eq_self.mpr hrecords]
  · obtain ⟨span, hsome⟩ := Option.isSome_iff_exists.mp (hstatements.warnings_span hspan htop hbody w hw)
    refine ⟨span, hsome, ?_⟩
    unfold Warning.record
    rw [hsome]
    rfl

/-- What is computed from a source that can be lexed and parsed. -/
def fromSource? {α : Type} (f : Parsed → α) (source : String) : Option α :=
  (tokenize source).toOption.bind fun tokens => (parse tokens).toOption.map f

theorem fromSource?_eq_some {α : Type} {f : Parsed → α} {source : String} {a : α}
    (h : fromSource? f source = some a) :
    ∃ tokens parsed, tokenize source = .ok tokens ∧ parse tokens = .ok parsed ∧ f parsed = a := by
  unfold fromSource? at h
  obtain ⟨tokens, htokens, h⟩ := Option.bind_eq_some_iff.mp h
  obtain ⟨parsed, hparse, hf⟩ := Option.map_eq_some_iff.mp h
  refine ⟨tokens, parsed, ?_, ?_, hf⟩
  · cases hlex : tokenize source with
    | error e => simp [hlex, Except.toOption] at htokens
    | ok tokens' => simpa [hlex, Except.toOption] using htokens
  · cases hread : parse tokens with
    | error f => simp [hread, Except.toOption] at hparse
    | ok parsed' => simpa [hread, Except.toOption] using hparse

/-- A unit that is not resolved, used by the canvas; three copies in an unknown unit, and a pattern
without spacing. -/
def lane : String :=
  "@unit k=2q;@draw G" ++ Text.braced
    ("@canvas 1k x 1k;repeat T from(0m,0m)to(2m,0m)space 1m;repeat L from(0,0)to(1,0)space 0;")

theorem lowering_warnings_lane : ∃ tokens parsed model s, tokenize lane = .ok tokens ∧
    parse tokens = .ok parsed ∧ Lower.drawing parsed.drawing .empty = .ok model s ∧
    s.messages.map (·.message) = ["Could not resolve unit: k",
      "Repeat spacing must be positive for L, pattern skipped",
      "Unknown unit: k, using value as-is", "Unknown unit: m, using value as-is"] := by
  have hlane : fromSource? (fun p => (p.drawing.fault?, p.drawing.warnings.map (·.text))) lane =
      some (none, ["Could not resolve unit: k",
        "Repeat spacing must be positive for L, pattern skipped",
        "Unknown unit: k, using value as-is", "Unknown unit: m, using value as-is"]) := by
    decide +kernel
  obtain ⟨tokens, parsed, htokens, hparse, hboth⟩ := fromSource?_eq_some hlane
  obtain ⟨hfault, htexts⟩ := Prod.ext_iff.mp hboth
  have hrun := Lower.drawing_run hfault .empty
  refine ⟨tokens, parsed, _, _, htokens, hparse, hrun, ?_⟩
  rw [(lowering_warnings htokens hparse hrun).1, List.map_map]
  exact htexts

end FloorPlan
