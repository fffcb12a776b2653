import FloorPlan.Proofs.Entries
import FloorPlan.Proofs.Drawing.Reading
import FloorPlan.Proofs.Token.Regular

/-! # Parsing undoes printing

Each production reads the words of its part back, so a printed drawing is parsed to the same
drawing, without any message; only the places in the source are new (`parse_printed`). -/

namespace FloorPlan

open Drawing

/-! ### Places -/

namespace Drawing

def UnitDecl.eraseSpan (u : UnitDecl) : UnitDecl := { u with span := none }

def Room.eraseSpan (r : Room) : Room := { r with span := none }

def Wall.eraseSpan (w : Wall) : Wall := { w with span := none }

def Door.eraseSpan (d : Door) : Door := { d with span := none }

def Grid.eraseSpan (g : Grid) : Grid := { g with span := none }

def Repeat.eraseSpan (r : Repeat) : Repeat := { r with span := none }

def Module.eraseSpan (m : Module) : Module := { m with span := none }

def Import.eraseSpan (i : Import) : Import := { i with span := none }

def Export.eraseSpan (e : Export) : Export := { e with span := none }

def Placement.eraseSpan (p : Placement) : Placement := { p with span := none }

end Drawing

/-- The drawing without the places of its parts. -/
def Drawing.eraseSpans (d : Drawing) : Drawing :=
  { d with
    units := d.units.map UnitDecl.eraseSpan
    rooms := d.rooms.map Room.eraseSpan
    walls := d.walls.map Wall.eraseSpan
    doors := d.doors.map Door.eraseSpan
    grids := d.grids.map Grid.eraseSpan
    repeats := d.repeats.map Repeat.eraseSpan
    imports := d.imports.map Import.eraseSpan
    exports := d.exports.map Export.eraseSpan
    placements := d.placements.map Placement.eraseSpan
    module := d.module.map Module.eraseSpan
    span := none }

/-- The statement without its place. -/
def TopItem.eraseSpan : TopItem → TopItem
  | unit u => unit u.eraseSpan
  | imported i => imported i.eraseSpan
  | exported e => exported e.eraseSpan

/-- The statement without its place. -/
def BodyItem.eraseSpan : BodyItem → BodyItem
  | room r => room r.eraseSpan
  | wall w => wall w.eraseSpan
  | door d => door d.eraseSpan
  | grid g => grid g.eraseSpan
  | copies r => copies r.eraseSpan
  | placement p => placement p.eraseSpan

/-! ### Shared productions -/

theorem reads_measure {x : Float} {unit : String} :
    Reads Parse.measure (measureWords x unit) anyKind (· = ⟨x, unit⟩) := by
  refine reads_number.andThen ?_
  rintro _ rfl
  refine reads_identifier?.before ?_
  rintro _ rfl s _
  exact ⟨_, rfl, rfl⟩

/-- A number without a unit ends where no identifier comes after it. -/
theorem reads_bare {x : Float} :
    Reads Parse.measure [.number x] (· ≠ .identifier) (·.value = x) := by
  intro s ts rest hs hr hts hF
  obtain ⟨a, hp, rfl⟩ := reads_number s ts rest hs hr hts trivial
  have hrest : nextKind (s.move ts.length).rest ≠ .identifier := by
    rwa [Parser.move_rest, hr, List.drop_left]
  refine ⟨⟨a, baseUnit⟩, ?_, rfl⟩
  unfold Parse.measure
  rw [Parse.bind_ok hp, Parse.bind_ok (Parse.identifier?_none hrest)]
  rfl

theorem reads_coordinate {c : Coordinate} :
    Reads Parse.coordinate (coordinateWords c) anyKind (· = c) := by
  refine reads_skip.andThen fun _ _ => reads_measure.andThen ?_
  rintro _ rfl
  refine reads_skip.andThen fun _ _ => reads_measure.andThen ?_
  rintro _ rfl
  exact reads_skip.before fun _ _ _ _ => ⟨_, rfl, rfl⟩

theorem reads_segment {l : Segment} {unit : String} :
    Reads Parse.segment (segmentWords l unit) anyKind (· = (l, unit)) := by
  refine reads_skip.andThen fun _ _ => reads_coordinate.andThen ?_
  rintro _ rfl
  refine reads_skip.andThen fun _ _ => reads_coordinate.before ?_
  rintro _ rfl s _
  exact ⟨_, rfl, rfl⟩

/-! ### Before the draw block -/

theorem reads_module (m : Module) :
    Reads Parse.moduleDecl (moduleWords m) anyKind (·.eraseSpan = m.eraseSpan) := by
  refine reads_take.andThen fun _ _ => reads_expectValue.andThen ?_
  rintro _ rfl
  exact reads_skip.before fun _ _ s hs => span_ok hs _ fun _ => rfl

/-- The name of a unit is read before an equals sign. -/
theorem reads_unitName {n : String} : Reads Parse.unitName [.name n] (· = .equals) (· = n) := by
  intro s ts rest _ hr hts hF
  obtain ⟨t, rfl, hk, rfl⟩ := eq_singleton_of_pair hts.single
  have hcur : s.current = t := Parser.current_of_rest hr
  have hsees : s.sees [.identifier] = true := by
    rw [Parser.sees_iff, hr]
    simpa using hk
  have hnext : s.next.kind = .equals := by
    rw [← hF]
    cases rest with
    | nil => simpa [Parser.next, hr] using s.ending_kind
    | cons u us => simp [Parser.next, hr]
  refine ⟨t.value, ?_, rfl⟩
  unfold Parse.unitName
  rw [Parse.bind_ok (Parse.get_run s), Parse.bind_ok (Parse.get_run s), hsees, hnext, ← hcur]
  rfl

theorem reads_unitDecl (u : UnitDecl) :
    Reads Parse.unitDecl (TopItem.unit u).words anyKind (·.eraseSpan = u.eraseSpan) := by
  refine reads_take.andThen fun _ _ =>
    reads_unitName.bind (opens_keyword (F := (· = .equals)) rfl).leads ?_
  rintro _ rfl
  refine reads_skip.andThen fun _ _ => reads_measure.andThen ?_
  rintro _ rfl
  exact reads_skip.before fun _ _ s hs => span_ok hs _ fun _ => rfl

/-- A value after a keyword, or nothing where another token comes next. -/
theorem reads_valueAfter {k l : Kind} {word : String → Word} {v : Option String}
    (hword : ∀ n us, (word n).Tokens us → us = [(l, n)]) :
    Reads (Parse.valueAfter k l) (optionWords (fun n => [.keyword k, word n]) v) (· ≠ k) (· = v) := by
  intro s ts rest _ hr hts hF
  cases v with
  | none =>
      rw [WordTokens.nil_iff.mp hts] at hr ⊢
      have hrest : nextKind s.rest ≠ k := by rwa [hr]
      refine ⟨none, ?_, rfl⟩
      unfold Parse.valueAfter
      rw [Parse.bind_ok (Parse.acceptsBefore_none hrest)]
      rfl
  | some n =>
      obtain ⟨us, vs, rfl, hus, hvs⟩ := WordTokens.cons_iff.mp hts
      obtain ⟨t, rfl, ht, -⟩ := eq_singleton_of_pair hus
      obtain ⟨u, rfl, hu, rfl⟩ := eq_singleton_of_pair (hword n _ hvs.single)
      have hsecond : (s.move 1).rest = u :: rest := by
        rw [Parser.move_rest, hr]
        rfl
      have hsees : (s.move 1).sees [l] = true := by
        rw [Parser.sees_iff, hsecond]
        simpa using hu
      have hfirst : Parse.acceptsBefore k l s = .ok true (s.move 1) := by
        rw [Parse.acceptsBefore_some (by rw [hr]; exact ht), hsees]
      refine ⟨some u.value, ?_, rfl⟩
      unfold Parse.valueAfter
      rw [Parse.bind_ok hfirst, if_pos rfl, Parse.bind_ok (Parse.take_run _),
        Parser.current_of_rest hsecond, Parser.move_move]
      rfl

theorem reads_skipStatement :
    Reads Parse.skipStatement [.keyword .semicolon] anyKind fun _ => True := by
  refine reads_keyword fun s hk _ => ?_
  obtain ⟨t, ts, hr, ht⟩ := eq_cons_of_nextKind hk (by decide)
  have hwidth : Parse.statementWidth 0 s.rest = 0 := by
    rw [hr, Parse.statementWidth, ht]
    rfl
  refine ⟨(), ?_, trivial⟩
  rw [Parse.skipStatement_run, hwidth, Parser.move_zero,
    Parse.discard_ok (Parse.accept?_some (by simp [hk]))]

theorem reads_import (i : Import) :
    Reads Parse.importDecl (TopItem.imported i).words anyKind (·.eraseSpan = i.eraseSpan) := by
  have hend : Leads [.keyword .semicolon] anyKind (· ≠ .fromWord) :=
    (opens_keyword (by decide)).leads
  have hsource : Leads (optionWords (fun v => [.keyword .fromWord, .string v]) i.source ++
      [.keyword .semicolon]) anyKind (· ≠ .asWord) :=
    leads_option (fun _ _ => opens_keyword (by decide)) (opens_keyword (by decide)).leads
  have hname : ∀ n us, (Word.name n).Tokens us → us = [(.identifier, n)] := fun _ _ h => h
  have hstring : ∀ n us, (Word.string n).Tokens us → us = [(.string, n)] := fun _ _ h => h
  refine reads_take.andThen fun _ _ => reads_identifier?.andThen ?_
  rintro _ rfl
  refine (reads_valueAfter hname).bind hsource ?_
  rintro _ rfl
  refine (reads_valueAfter hstring).bind hend ?_
  rintro _ rfl
  exact reads_skipStatement.before fun _ _ s hs => span_ok hs _ fun _ => rfl

/-- The word `default` or nothing. -/
theorem reads_default {b : Bool} :
    Reads (Parse.accepts [.defaultWord]) (if b then [.keyword .defaultWord] else [])
      (· ≠ .defaultWord) (· = b) := by
  cases b with
  | true => exact reads_accepts.anywhere
  | false =>
      intro s ts rest _ hr hts hF
      rw [WordTokens.nil_iff.mp hts] at hr ⊢
      have hrest : nextKind s.rest ≠ .defaultWord := by rwa [hr]
      exact ⟨false, Parse.accepts_false (by simpa using hrest), rfl⟩

theorem reads_export (e : Export) :
    Reads Parse.exportDecl (TopItem.exported e).words anyKind (·.eraseSpan = e.eraseSpan) := by
  refine reads_take.andThen fun _ _ => reads_default.bind (opens_name (by decide)).leads ?_
  rintro _ rfl
  refine reads_identifier?.andThen ?_
  rintro _ rfl
  exact reads_skipStatement.before fun _ _ s hs => span_ok hs _ fun _ => rfl

/-- A statement before the draw block. -/
theorem reads_topItem {item : TopItem} :
    Reads Parse.topItem item.words anyKind
      (fun o => o.map TopItem.eraseSpan = some item.eraseSpan) := by
  intro s ts rest hs hr hts hF
  have hnext : s.current.kind = nextKind (ts ++ rest) := by rw [Parser.current_kind, hr]
  have hmark : ∀ {k}, s.current.kind = k → k ≠ .hierarchy → nextKind s.rest ∉ [Kind.hierarchy] := by
    intro k hk hne
    rw [← Parser.current_kind, hk]
    simpa using hne
  cases item with
  | unit u =>
      have hk : s.current.kind = .atUnit := hnext.trans (nextKind_of_keyword hts rest)
      refine Reads.after (Parse.accepts_false (hmark hk (by decide)))
        (Reads.after (Parse.get_run s) ?_)
      simp only [hk]
      have hitem := (reads_unitDecl u).statement TopItem.unit TopItem.eraseSpan
        fun _ ha => congrArg TopItem.unit ha
      exact hitem s ts rest hs hr hts hF
  | imported i =>
      have hk : s.current.kind = .importWord := hnext.trans (nextKind_of_keyword hts rest)
      refine Reads.after (Parse.accepts_false (hmark hk (by decide)))
        (Reads.after (Parse.get_run s) ?_)
      simp only [hk]
      have hitem := (reads_import i).statement TopItem.imported TopItem.eraseSpan
        fun _ ha => congrArg TopItem.imported ha
      exact hitem s ts rest hs hr hts hF
  | exported e =>
      have hk : s.current.kind = .exportWord := hnext.trans (nextKind_of_keyword hts rest)
      refine Reads.after (Parse.accepts_false (hmark hk (by decide)))
        (Reads.after (Parse.get_run s) ?_)
      simp only [hk]
      have hitem := (reads_export e).statement TopItem.exported TopItem.eraseSpan
        fun _ ha => congrArg TopItem.exported ha
      exact hitem s ts rest hs hr hts hF

/-! ### Sizes -/

theorem reads_times : Reads Parse.times [.keyword .xWord] anyKind fun _ => True := by
  refine reads_keyword fun s hk _ => ?_
  have hkind : s.current.kind = .xWord := by rw [Parser.current_kind, hk]
  refine Reads.after (Parse.get_run s) ⟨(), ?_, trivial⟩
  simp only [hkind]
  exact Parse.discard_ok (Parse.take_run s)

theorem reads_canvas {c : Canvas} :
    Reads Parse.requiredCanvas (canvasWords c) anyKind (· = c) := by
  have hcanvas : Reads Parse.canvas (canvasWords c) anyKind (· = c) := by
    refine reads_take.discard.andThen fun _ _ => reads_measure.andThen ?_
    rintro _ rfl
    refine reads_times.andThen fun _ _ => reads_measure.andThen ?_
    rintro _ rfl
    exact reads_skip.before fun _ _ _ _ => ⟨_, rfl, rfl⟩
  intro s ts rest hs hr hts hF
  have hsees : s.sees [.atCanvas] = true := by
    rw [Parser.sees_iff, hr, nextKind_of_keyword hts rest]
    simp
  refine Reads.after (Parse.sees_run _ s) ?_
  rw [if_pos hsees]
  exact hcanvas s ts rest hs hr hts hF

/-! ### Rooms -/

/-- A style value is read up to a token that ends it. -/
theorem reads_value {v : String} :
    Reads (Parse.takeWhile fun t => !(Parse.valueEnds.contains t.kind)) [.value v]
      (· ∈ Parse.valueEnds) (fun parts => " ".intercalate (parts.map (·.value)) = v) := by
  intro s ts rest _ hr hts hF
  obtain ⟨hkinds, hjoin⟩ := hts.single
  have hall : ∀ t ∈ ts, (!(Parse.valueEnds.contains t.kind)) = true := by
    intro t ht
    have := hkinds t.pair (List.mem_map_of_mem ht)
    simpa [Token.pair] using this
  have htake := takeWhile_kinds (f := fun k => !(Parse.valueEnds.contains k)) hall (by simpa using hF)
  rw [← hr] at htake
  refine ⟨ts, ?_, ?_⟩
  · rw [Parse.takeWhile_run, htake]
  · rw [← hjoin, List.map_map]
    rfl

theorem reads_semicolon :
    Reads (discard (Parse.accept? [.semicolon])) [.keyword .semicolon] anyKind fun _ => True :=
  reads_keyword fun _ hk _ => ⟨_, Parse.discard_ok (Parse.accept?_some (by simp [hk])), trivial⟩

theorem reads_property {q : Property} (hq : q ≠ .label none) :
    Reads Parse.property q.words anyKind (fun o => o.map id = some q) := by
  cases q with
  | label text =>
      obtain ⟨n, rfl⟩ : ∃ n, text = some n := Option.ne_none_iff_exists'.mp fun h => hq (by rw [h])
      refine reads_accepts.andThen ?_
      rintro _ rfl
      refine reads_skip.andThen fun _ _ => reads_string.andThen fun t ht => ?_
      refine reads_skip.before fun _ _ s _ => ⟨_, rfl, ?_⟩
      rw [ht]
      rfl
  | style name value =>
      intro s ts rest hs hr hts hF
      have hnext : nextKind s.rest = .identifier := by
        rw [hr]
        exact nextKind_of_name hts rest
      refine Reads.after (Parse.accepts_false (by rw [hnext]; decide)) ?_
      rw [if_neg (by decide)]
      refine (Reads.andThen reads_identifier? ?_) s ts rest hs hr hts hF
      rintro _ rfl
      refine reads_skip.andThen fun _ _ =>
        reads_value.bind (opens_keyword (by decide)).leads fun parts hparts => ?_
      refine reads_semicolon.before fun _ _ s _ => ⟨_, rfl, ?_⟩
      rw [hparts]
      rfl

/-- The label and the properties that a room takes from the statements in its braces. -/
theorem arranged_fields {r : Room} (h : r.Printable) {before after : Entries String}
    (hp : r.properties.getD [] = before ++ after) :
    ((arranged r.label before after).filterMap Property.label?).getLast? = r.label ∧
      (if (Entries.ofPairs ((arranged r.label before after).filterMap Property.style?)).isEmpty
        then none else some (Entries.ofPairs
          ((arranged r.label before after).filterMap Property.style?))) = r.properties := by
  have hlabel : (arranged r.label before after).filterMap Property.label? = r.label.toList := by
    cases r.label <;> simp [arranged, Property.label?, Function.comp_def]
  have hstyle : (arranged r.label before after).filterMap Property.style? = before ++ after := by
    cases r.label <;> simp [arranged, Property.style?, Function.comp_def, List.filterMap_cons]
  have hdistinct := h.distinct
  have hsome := h.some_properties
  rw [hlabel, hstyle, ← hp, Entries.ofPairs_of_nodup hdistinct]
  constructor
  · cases r.label <;> rfl
  · cases hr : r.properties with
    | none => rfl
    | some es =>
        rw [hr] at hsome
        have hne : es ≠ [] := fun he => hsome (by rw [he])
        simp [hne]

/-- The statements in a room's braces. -/
theorem reads_braces (label : Option String) (before after : Entries String) :
    Reads (Parse.many [.rightBrace, .endOfInput] Parse.property)
      ((arranged label before after).flatMap Property.words)
      (· ∈ [Kind.rightBrace, .endOfInput]) (· = arranged label before after) := by
  have hlabel : ∀ q ∈ arranged label before after, q ≠ .label none := by
    rintro q hq rfl
    simp [arranged] at hq
  have hloop : Reads (Parse.many [.rightBrace, .endOfInput] Parse.property)
      ((arranged label before after).flatMap Property.words) (· ∈ [Kind.rightBrace, .endOfInput])
      fun qs => qs.map id = (arranged label before after).map id := by
    refine reads_many (F := anyKind) ?_ ?_ (fun _ _ => trivial)
      (Joined.flatMap Property.words (arranged label before after))
    · rintro q hq ws rfl
      exact reads_property (hlabel q hq)
    · rintro q hq ws rfl
      cases q with
      | label text => exact opens_keyword ⟨by decide, trivial⟩
      | style name value => exact opens_name ⟨by decide, trivial⟩
  exact hloop.mono fun qs hqs => by simpa using hqs

theorem reads_roomBody {r : Room} (h : r.Printable) {ws : List Word} (hws : RoomEnd r ws) :
    Reads Parse.roomBody ws (· ∉ [Kind.leftBrace, .semicolon]) (fun qs =>
      (qs.filterMap Property.label?).getLast? = r.label ∧
        (if (Entries.ofPairs (qs.filterMap Property.style?)).isEmpty then none
          else some (Entries.ofPairs (qs.filterMap Property.style?))) = r.properties) := by
  cases hws with
  | braces hp =>
      refine reads_accepts.andThen ?_
      rintro _ rfl
      refine (reads_braces _ _ _).bind (opens_keyword (by decide)).leads ?_
      rintro _ rfl
      exact reads_skip.anywhere.before fun _ _ _ _ => ⟨_, rfl, arranged_fields h hp⟩
  | semicolon hl hp =>
      intro s ts rest hs hr hts _
      have hnext : nextKind s.rest = .semicolon := by
        rw [hr]
        exact nextKind_of_keyword hts rest
      refine Reads.after (Parse.accepts_false (by rw [hnext]; decide)) ?_
      refine (reads_semicolon.before fun _ _ s _ => ⟨[], rfl, ?_⟩) s ts rest hs hr hts trivial
      rw [hl, hp]
      exact ⟨rfl, rfl⟩
  | nothing hl hp =>
      intro s ts rest _ hr hts hF
      rw [WordTokens.nil_iff.mp hts] at hr ⊢
      have hnext : nextKind s.rest ∉ [Kind.leftBrace, .semicolon] := by rwa [hr]
      simp only [List.mem_cons, List.not_mem_nil, or_false, not_or] at hnext
      have hnone : Parse.accept? [.semicolon] s = .ok none s :=
        Parse.accept?_none (by simpa using hnext.2)
      refine Reads.after (Parse.accepts_false (by simpa using hnext.1))
        (Reads.after (Parse.discard_ok hnone) ⟨[], rfl, ?_⟩)
      rw [hl, hp]
      exact ⟨rfl, rfl⟩

/-- The words of a room. -/
theorem reads_room {r : Room} (h : r.Printable) {ws : List Word} (hws : RoomEnd r ws) :
    Reads Parse.room (.keyword .roomWord :: .name r.id :: .keyword .atWord ::
        (coordinateWords ⟨r.x, r.y, r.unit⟩ ++ .keyword .sizeWord ::
          (coordinateWords ⟨r.width, r.height, r.unit⟩ ++ ws)))
      (· ∉ [Kind.leftBrace, .semicolon]) (·.eraseSpan = r.eraseSpan) := by
  refine reads_take.andThen fun _ _ => reads_expectValue.andThen ?_
  rintro _ rfl
  refine reads_skip.andThen fun _ _ => reads_coordinate.andThen ?_
  rintro _ rfl
  refine reads_skip.andThen fun _ _ => reads_coordinate.andThen ?_
  rintro _ rfl
  refine (reads_roomBody h hws).before fun qs hqs s hs => span_ok hs _ fun _ => ?_
  rw [hqs.1, hqs.2]
  rfl

/-! ### Walls, doors and repeats -/

theorem reads_wall (w : Wall) :
    Reads Parse.wall (.keyword .wallWord :: (segmentWords w.line w.unit ++ [.keyword .semicolon]))
      anyKind (·.eraseSpan = w.eraseSpan) := by
  refine reads_take.andThen fun _ _ => reads_segment.andThen ?_
  rintro _ rfl
  exact reads_skip.before fun _ _ s hs => span_ok hs _ fun _ => rfl

theorem reads_door (d : Door) :
    Reads Parse.door (.keyword .doorWord :: (segmentWords d.line d.unit ++ .keyword .widthWord ::
        (measureWords d.width d.unit ++ [.keyword .semicolon])))
      anyKind (·.eraseSpan = d.eraseSpan) := by
  refine reads_take.andThen fun _ _ => reads_segment.andThen ?_
  rintro _ rfl
  refine reads_skip.andThen fun _ _ => reads_measure.andThen ?_
  rintro _ rfl
  exact reads_skip.before fun _ _ s hs => span_ok hs _ fun _ => rfl

theorem reads_copies (r : Repeat) :
    Reads Parse.copies (.keyword .repeatWord :: .name r.component ::
        (segmentWords r.line r.unit ++ .keyword .spaceWord ::
          (measureWords r.spacing r.unit ++ [.keyword .semicolon])))
      anyKind (·.eraseSpan = r.eraseSpan) := by
  refine reads_take.andThen fun _ _ => reads_expectValue.andThen ?_
  rintro _ rfl
  refine reads_segment.andThen ?_
  rintro _ rfl
  refine reads_skip.andThen fun _ _ => reads_measure.andThen ?_
  rintro _ rfl
  exact reads_skip.before fun _ _ s hs => span_ok hs _ fun _ => rfl

/-! ### Grids -/

theorem reads_mode {mode : String} (h : mode ∈ Parse.modeWords.map Kind.text) :
    Reads (Parse.accept? Parse.modeWords) [.keyword (Kind.ofWord mode)] anyKind
      (fun t => (t.map (·.value)).getD "grid" = mode) := by
  obtain ⟨hk, htext⟩ := mode_kind h
  refine reads_keyword fun s hnext hv => ⟨_, Parse.accept?_some (by rwa [hnext]), ?_⟩
  rw [Option.map_some, Option.getD_some, hv, htext]

theorem reads_noMode :
    Reads (Parse.accept? Parse.modeWords) [] (· ∉ Parse.modeWords) (· = none) := by
  intro s ts rest _ hr hts hF
  rw [WordTokens.nil_iff.mp hts] at hr ⊢
  exact ⟨none, Parse.accept?_none (by rwa [hr]), rfl⟩

/-- The second number of a size is missing where nothing like an `x` comes next. -/
theorem reads_singleSize {x : Float} {unit : String} :
    Reads Parse.gridSize (.keyword .sizeWord :: measureWords x unit)
      (· ∉ [Kind.xWord, .identifier, .string]) (· = (x, x, unit)) := by
  refine reads_accepts.andThen ?_
  rintro _ rfl s ts rest hs hr hts hF
  have hrest : (s.move ts.length).rest = rest := by
    rw [Parser.move_rest, hr, List.drop_left]
  have htimes : ¬ Parse.isTimes (s.move ts.length).current = true := by
    have hs' := hs.move ts.length
    rw [hs'.isTimes_iff]
    exact not_nextTimes hs'.regular (by rwa [hrest])
  refine reads_measure.run hs hr hts trivial ?_
  rintro _ rfl
  refine Reads.after (Parse.get_run _) ⟨(x, x, unit), ?_, rfl⟩
  rw [if_neg htimes]
  rfl

/-- The grammar takes the word for the separator of a size. -/
def Word.IsTimes (w : Word) : Prop := ∀ us, w.Tokens us → ∃ k, us = [(k, "x")] ∨ us = [(k, "X")]

theorem Word.isTimes_xWord : (Word.keyword .xWord).IsTimes := fun _ hus => ⟨.xWord, .inl hus⟩

/-- A size of two numbers. -/
theorem reads_doubleSize {x y : Float} {unit : String} {w : Word} {ws ws' : List Word}
    {F F' : Kind → Prop} (hw : w.IsTimes) (hwidth : Reads Parse.measure ws F (· = ⟨x, unit⟩))
    (hF : Leads (w :: ws') F' F) (hheight : Reads Parse.measure ws' F' (·.value = y)) :
    Reads Parse.gridSize (.keyword .sizeWord :: (ws ++ w :: ws')) F' (· = (x, y, unit)) := by
  refine reads_accepts.andThen ?_
  rintro _ rfl
  refine hwidth.bind hF ?_
  rintro _ rfl s ts rest hs hr hts hF'
  obtain ⟨us, vs, rfl, hus, hvs⟩ := WordTokens.cons_iff.mp hts
  obtain ⟨t, rfl, hvalue⟩ : ∃ t, us = [t] ∧ Parse.isTimes t = true := by
    obtain ⟨k, he | he⟩ := hw _ hus
    · obtain ⟨t, ht, -, hv⟩ := eq_singleton_of_pair he
      exact ⟨t, ht, by simp [Parse.isTimes, hv]⟩
    · obtain ⟨t, ht, -, hv⟩ := eq_singleton_of_pair he
      exact ⟨t, ht, by simp [Parse.isTimes, hv]⟩
  have hcurrent : s.current = t := Parser.current_of_rest hr
  have hrest : (s.move 1).rest = vs ++ rest := by
    rw [Parser.move_rest, hr]
    rfl
  refine Reads.after (Parse.get_run s) ?_
  rw [if_pos (by rw [hcurrent]; exact hvalue), Parse.bind_ok (Parse.discard_ok (Parse.take_run s))]
  refine hheight.run (hs.move 1) hrest hvs hF' fun m hm => ?_
  rw [hm, Parser.move_move, List.length_append]
  exact ⟨_, rfl, rfl⟩

theorem reads_gridSize {g : Grid} {ws : List Word} (h : GridSize g ws) :
    Reads Parse.gridSize ws (· ∈ [Kind.colorWord, .alphaWord, .semicolon])
      (· = (g.sizeX, g.sizeY, g.unit)) := by
  cases h with
  | both =>
      have hsecond : Reads Parse.measure (measureWords g.sizeY g.unit) anyKind
          (·.value = g.sizeY) := reads_measure.mono fun m hm => by rw [hm]
      exact (reads_doubleSize Word.isTimes_xWord reads_measure leads_any hsecond).anywhere
  | single he =>
      rw [← he]
      refine reads_singleSize.weaken fun k hk => ?_
      simp only [List.mem_cons, List.not_mem_nil, or_false] at hk
      obtain rfl | rfl | rfl := hk <;> decide

/-- The tokens of a color are put together again. -/
theorem join_hexParts {c : String} {ds : List Char} {us : List (Kind × String)}
    (hc : c.toList = '#' :: ds) (h : HexParts ds us) :
    String.join ("#" :: us.map (·.2)) = c := by
  rw [← String.toList_inj, String.toList_join, List.flatMap_cons, hc, ← h.join,
    List.flatMap_map]
  rfl

theorem reads_hash {c : String} {ds : List Char} (hc : c.toList = '#' :: ds) :
    Reads Parse.gridColor [.keyword .colorWord, .color ds]
      (· ∉ [Kind.colorWord, .number, .identifier]) (· = some c) := by
  refine reads_accepts.andThen ?_
  rintro _ rfl s ts rest _ hr hts hF
  obtain ⟨us, hus, hparts⟩ := hts.single
  obtain ⟨t, vs, rfl, ht, rfl⟩ := List.map_eq_cons_iff.mp hus
  have hkind : t.kind = .hash := congrArg Prod.fst ht
  have hvalue : t.value = "#" := congrArg Prod.snd ht
  have haccept : Parse.accept? [.hash] s = .ok (some t) (s.move 1) := by
    rw [← Parser.current_of_rest hr]
    exact Parse.accept?_some (by rw [hr]; simp [hkind])
  have hrest : (s.move 1).rest = vs ++ rest := by
    rw [Parser.move_rest, hr]
    rfl
  have hall : ∀ u ∈ vs, [Kind.number, .identifier].contains u.kind = true := by
    intro u hu
    have := hparts.kinds u.pair (List.mem_map_of_mem hu)
    simpa [Token.pair] using this
  have hstop : [Kind.number, .identifier].contains (nextKind rest) = false := by
    simp only [List.mem_cons, List.not_mem_nil, or_false, not_or] at hF
    simp [hF.2]
  have htake := takeWhile_kinds hall hstop
  rw [← hrest] at htake
  have hjoin : String.join (t.value :: vs.map (·.value)) = c := by
    have hj := join_hexParts hc hparts
    rw [List.map_map] at hj
    rw [hvalue]
    exact hj
  refine ⟨some c, ?_, rfl⟩
  rw [if_pos rfl, Parse.bind_ok haccept]
  simp only
  rw [Parse.bind_ok (Parse.takeWhile_run _ _), htake, hjoin, Parser.move_move,
    List.length_cons, Nat.add_comm]
  rfl

theorem reads_gridColor {c : Option String} :
    Reads Parse.gridColor (optionWords colorWords c)
      (· ∉ [Kind.colorWord, .number, .identifier]) (· = c) := by
  cases c with
  | none => exact reads_missing (fun l hl he => hl (by simp [he])) (fun _ => rfl) rfl
  | some c =>
      unfold optionWords Option.elim colorWords
      simp only
      split
      · next ds hc => exact reads_hash hc
      · refine reads_accepts.andThen ?_
        rintro _ rfl s ts rest hs hr hts hF
        have hnext : nextKind s.rest = .identifier := by
          rw [hr]
          exact nextKind_of_name hts rest
        refine Reads.after (Parse.accept?_none (by rw [hnext]; decide)) ?_
        exact reads_identifier? s ts rest hs hr hts trivial

theorem reads_gridAlpha {x : Option Float} :
    Reads Parse.gridAlpha (optionWords (fun x => [.keyword .alphaWord, .number x]) x)
      (· ∉ [Kind.alphaWord, .identifier]) (· = x) := by
  cases x with
  | none => exact reads_missing (fun l hl he => hl (by simp [he])) (fun _ => rfl) rfl
  | some x =>
      refine reads_accepts.andThen ?_
      rintro _ rfl
      have hbare : Reads Parse.measure [.number x] (· ∉ [Kind.alphaWord, .identifier]) (·.value = x) :=
        fun s ts rest hs hr hts hF =>
          reads_bare s ts rest hs hr hts fun he => hF (by simp [he])
      refine hbare.before fun m hm s _ => ⟨_, rfl, ?_⟩
      rw [hm]

theorem reads_grid {g : Grid} (h : g.Printable) {ws : List Word} (hws : GridSize g ws) :
    Reads Parse.grid (.keyword .atGrid :: .keyword (Kind.ofWord g.mode) :: (ws ++
        (optionWords colorWords g.color ++
          (optionWords (fun x => [.keyword .alphaWord, .number x]) g.alpha ++
            [.keyword .semicolon]))))
      anyKind (·.eraseSpan = g.eraseSpan) := by
  have hcolor : ∀ {F : Kind → Prop} {ws : List Word} (c : String), F .colorWord →
      Opens (colorWords c ++ ws) F := by
    intro F ws c hF
    unfold colorWords
    split <;> exact opens_keyword hF
  refine reads_take.andThen fun _ _ => (reads_mode h.mode).andThen ?_
  intro mode hmode
  refine (reads_gridSize hws).bind ?_ ?_
  · refine leads_option (fun c _ => hcolor c (by simp)) (leads_option (fun x _ => ?_) ?_)
    · exact opens_keyword (by simp)
    · exact (opens_keyword (by simp)).leads
  · rintro _ rfl
    refine reads_gridColor.bind ?_ ?_
    · refine leads_option (fun x _ => ?_) ?_
      · exact opens_keyword (by simp)
      · exact (opens_keyword (by simp)).leads
    · rintro _ rfl
      refine reads_gridAlpha.bind ?_ ?_
      · exact (opens_keyword (by simp)).leads
      · rintro _ rfl
        refine reads_skip.before fun _ _ s hs => span_ok hs _ fun _ => ?_
        rw [hmode]
        rfl

/-! ### Placements -/

theorem reads_acceptsBefore {k l : Kind} :
    Reads (Parse.acceptsBefore k l) [.keyword k] (· = l) (· = true) := by
  intro s ts rest _ hr hts hF
  obtain ⟨t, rfl, ht, -⟩ := eq_singleton_of_pair hts.single
  have hsees : (s.move 1).sees [l] = true := by
    rw [Parser.sees_iff, Parser.move_rest, hr]
    simpa using hF
  refine ⟨true, ?_, rfl⟩
  rw [Parse.acceptsBefore_some (by rw [hr]; exact ht), hsees]
  rfl

/-- An angle or a factor after its word. -/
theorem reads_argument {k : Kind} {x : Float} {f : Float → PlacementOption}
    {q : Parse (Option PlacementOption)} :
    Reads (Parse.acceptsBefore k .number >>= fun b =>
        if b = true then Parse.measure >>= fun m => pure (some (f m.value)) else q)
      [.keyword k, .number x] (· ≠ .identifier) (fun o => o.map id = some (f x)) := by
  refine reads_acceptsBefore.bind (opens_number (F := (· = .number)) rfl).leads ?_
  rintro _ rfl
  rw [if_pos rfl]
  exact reads_bare.statement _ _ fun m hm => congrArg f hm

/-- The unit after a number, which may be missing. -/
theorem reads_unit {unit : Option String} :
    Reads Parse.identifier? (optionWords (fun u => [.name u]) unit) (· ≠ .identifier) (· = unit) := by
  cases unit with
  | some u => exact reads_identifier?.anywhere
  | none =>
      intro s ts rest _ hr hts hF
      rw [WordTokens.nil_iff.mp hts] at hr ⊢
      exact ⟨none, Parse.identifier?_none (by rwa [hr]), rfl⟩

theorem reads_looseMeasure {x : Float} {unit : Option String} :
    Reads Parse.measure (.number x :: optionWords (fun u => [.name u]) unit) (· ≠ .identifier)
      (· = ⟨x, unit.getD baseUnit⟩) := by
  refine reads_number.andThen ?_
  rintro _ rfl
  refine reads_unit.before ?_
  rintro _ rfl s _
  exact ⟨_, rfl, rfl⟩

theorem reads_looseCoordinate {c : Coordinate} {ws : List Word} (h : LooseCoordinate c ws) :
    Reads Parse.coordinate ws anyKind (· = c) := by
  cases h with
  | mk x y unit other =>
      refine reads_skip.andThen fun _ _ =>
        reads_looseMeasure.bind (opens_keyword (by decide)).leads ?_
      rintro _ rfl
      refine reads_skip.andThen fun _ _ =>
        reads_looseMeasure.bind (opens_keyword (by decide)).leads ?_
      rintro _ rfl
      exact reads_skip.before fun _ _ _ _ => ⟨_, rfl, rfl⟩

theorem reads_placementOption {o : PlacementOption} {ws : List Word} (h : o.Prints ws) :
    Reads Parse.placementOption ws (· ≠ .identifier) (fun r => r.map id = some o) := by
  cases h with
  | @place c ws hc =>
      have hparen : Opens ws (· = .leftParen) := by
        cases hc with
        | mk => exact opens_keyword rfl
      refine reads_acceptsBefore.bind hparen.leads ?_
      rintro _ rfl
      rw [if_pos rfl]
      exact (reads_looseCoordinate hc).anywhere.statement _ _
        fun a ha => congrArg PlacementOption.place ha
  | rotate x =>
      intro s ts rest hs hr hts hF
      have hnext : nextKind s.rest = .rotateWord := by
        rw [hr]
        exact nextKind_of_keyword hts rest
      refine Reads.after (Parse.acceptsBefore_none (by rw [hnext]; decide)) ?_
      exact reads_argument s ts rest hs hr hts hF
  | scale x =>
      intro s ts rest hs hr hts hF
      have hnext : nextKind s.rest = .scaleWord := by
        rw [hr]
        exact nextKind_of_keyword hts rest
      refine Reads.after (Parse.acceptsBefore_none (by rw [hnext]; decide)) ?_
      refine Reads.after (Parse.acceptsBefore_none (by rw [hnext]; decide)) ?_
      exact reads_argument s ts rest hs hr hts hF

theorem reads_placement {p : Placement} {ws : List Word}
    (h : Joined PlacementOption.Prints (placementOptions p) ws) :
    Reads Parse.placement (.keyword .useWord :: .name p.source ::
        (optionWords (fun w => [.keyword .dot, .name w]) p.part ++ (ws ++ [.keyword .semicolon])))
      anyKind (·.eraseSpan = p.eraseSpan) := by
  have hname : ∀ n us, (Word.name n).Tokens us → us = [(.identifier, n)] := fun _ _ h => h
  have hopens : ∀ (o : PlacementOption) (ws : List Word), o.Prints ws → Opens ws fun k =>
      k ∉ [Kind.semicolon, .rightBrace, .endOfInput] ∧ k ≠ .identifier ∧ k ≠ .dot := by
    intro o ws ho
    cases ho <;> exact opens_keyword (by decide)
  have hoptions : Reads (Parse.many [.semicolon, .rightBrace, .endOfInput] Parse.placementOption) ws
      (· ∈ [Kind.semicolon, .rightBrace, .endOfInput])
      fun os => os.map id = (placementOptions p).map id := by
    refine reads_many (F := (· ≠ .identifier)) ?_ ?_ (by decide) h
    · exact fun o _ ws ho => reads_placementOption ho
    · exact fun o _ ws ho => (hopens o ws ho).mono fun k hk => ⟨hk.1, hk.2.1⟩
  have hpart : Leads (ws ++ [.keyword .semicolon]) anyKind (· ≠ .dot) := by
    refine leads_joined ?_ h (opens_keyword (by decide)).leads
    exact fun o _ ws ho => (hopens o ws ho).mono fun k hk => hk.2.2
  refine reads_take.andThen fun _ _ => reads_identifier?.andThen ?_
  rintro _ rfl
  refine (reads_valueAfter hname).bind hpart ?_
  rintro _ rfl
  refine hoptions.bind (opens_keyword (by decide)).leads fun os hos => ?_
  have hos : os = placementOptions p := by simpa using hos
  refine reads_semicolon.before fun _ _ s hs => span_ok hs _ fun _ => ?_
  rw [hos]
  cases p with
  | mk source part place rotate scale span =>
      cases place <;> cases rotate <;> cases scale <;> rfl

/-! ### The draw block -/

/-- A statement in the draw block starts with a keyword of its own. -/
theorem opens_bodyItem {item : BodyItem} {ws : List Word} (h : item.Prints ws) :
    Opens ws fun k => k ∉ [Kind.rightBrace, .endOfInput] ∧ k ∉ [Kind.leftBrace, .semicolon] := by
  cases h <;> exact opens_keyword (by decide)

theorem reads_bodyPlacement {p : Placement} {ws : List Word}
    (h : Joined PlacementOption.Prints (placementOptions p) ws) :
    Reads Parse.bodyItem (.keyword .useWord :: .name p.source ::
        (optionWords (fun w => [.keyword .dot, .name w]) p.part ++ (ws ++ [.keyword .semicolon])))
      anyKind (fun o => o.map BodyItem.eraseSpan = some (BodyItem.placement p).eraseSpan) := by
  intro s ts rest hs hr hts hF
  have hk : s.current.kind = .useWord := by
    rw [Parser.current_kind, hr]
    exact nextKind_of_keyword hts rest
  have hitem := (reads_placement h).statement BodyItem.placement BodyItem.eraseSpan
    fun _ ha => congrArg BodyItem.placement ha
  refine Reads.after (Parse.get_run s) ?_
  simp only [hk]
  exact hitem s ts rest hs hr hts hF

theorem reads_bodyItem {item : BodyItem} (h : item.Printable) {ws : List Word}
    (hws : item.Prints ws) :
    Reads Parse.bodyItem ws (· ∉ [Kind.leftBrace, .semicolon])
      (fun o => o.map BodyItem.eraseSpan = some item.eraseSpan) := by
  intro s ts rest hs hr hts hF
  have hnext : s.current.kind = nextKind (ts ++ rest) := by rw [Parser.current_kind, hr]
  cases hws with
  | @room r ws hend =>
      have hk : s.current.kind = .roomWord := hnext.trans (nextKind_of_keyword hts rest)
      have hitem := (reads_room h hend).statement BodyItem.room BodyItem.eraseSpan
        fun _ ha => congrArg BodyItem.room ha
      refine Reads.after (Parse.get_run s) ?_
      simp only [hk]
      exact hitem s ts rest hs hr hts hF
  | wall w =>
      have hk : s.current.kind = .wallWord := hnext.trans (nextKind_of_keyword hts rest)
      have hitem := (reads_wall w).statement BodyItem.wall BodyItem.eraseSpan
        fun _ ha => congrArg BodyItem.wall ha
      refine Reads.after (Parse.get_run s) ?_
      simp only [hk]
      exact hitem s ts rest hs hr hts trivial
  | door d =>
      have hk : s.current.kind = .doorWord := hnext.trans (nextKind_of_keyword hts rest)
      have hitem := (reads_door d).statement BodyItem.door BodyItem.eraseSpan
        fun _ ha => congrArg BodyItem.door ha
      refine Reads.after (Parse.get_run s) ?_
      simp only [hk]
      exact hitem s ts rest hs hr hts trivial
  | @grid g ws hsize =>
      have hk : s.current.kind = .atGrid := hnext.trans (nextKind_of_keyword hts rest)
      have hitem := (reads_grid h hsize).statement BodyItem.grid BodyItem.eraseSpan
        fun _ ha => congrArg BodyItem.grid ha
      refine Reads.after (Parse.get_run s) ?_
      simp only [hk]
      exact hitem s ts rest hs hr hts trivial
  | copies r =>
      have hk : s.current.kind = .repeatWord := hnext.trans (nextKind_of_keyword hts rest)
      have hitem := (reads_copies r).statement BodyItem.copies BodyItem.eraseSpan
        fun _ ha => congrArg BodyItem.copies ha
      refine Reads.after (Parse.get_run s) ?_
      simp only [hk]
      exact hitem s ts rest hs hr hts trivial
  | placement p =>
      have hoptions : Joined PlacementOption.Prints (placementOptions p)
          ((placementOptions p).flatMap PlacementOption.words) := by
        refine .mono ?_ (Joined.flatMap PlacementOption.words _)
        rintro o _ rfl
        exact o.prints_words
      exact reads_bodyPlacement hoptions s ts rest hs hr hts trivial

/-! ### The drawing -/

theorem reads_module? {m : Option Module} :
    Reads Parse.moduleDecl? (optionWords moduleWords m) (· ≠ .atModule)
      (fun m' => m'.map Module.eraseSpan = m.map Module.eraseSpan) := by
  intro s ts rest hs hr hts hF
  refine Reads.after (Parse.sees_run _ s) ?_
  cases m with
  | none =>
      rw [WordTokens.nil_iff.mp hts] at hr ⊢
      have hsees : ¬ s.sees [.atModule] = true := by
        rw [Parser.sees_iff, hr]
        simpa using hF
      rw [if_neg hsees]
      exact ⟨none, rfl, rfl⟩
  | some m =>
      have hsees : s.sees [.atModule] = true := by
        rw [Parser.sees_iff, hr, nextKind_of_keyword hts rest]
        simp
      rw [if_pos hsees]
      have hitem := (reads_module m).statement id Module.eraseSpan fun _ ha => ha
      exact hitem s ts rest hs hr hts trivial

/-- The closing brace; nothing comes after it, so nothing is reported. -/
theorem reads_close {α : Type} {Q : α → Prop} (start : Position) {f : Span → α}
    (hQ : ∀ span, Q (f span)) :
    Reads (Parse.skip .rightBrace >>= fun _ => Parse.spanFrom start >>= fun span =>
        Parse.warnTrailing >>= fun _ => pure (f span))
      [.keyword .rightBrace] (· = .endOfInput) Q := by
  intro s ts rest hs hr hts hF
  obtain ⟨_, hskip, -⟩ := reads_skip s ts rest hs hr hts trivial
  obtain ⟨span, hspan⟩ := Parse.spanFrom_ok (hs.move ts.length).shift start
  have hsees : (s.move ts.length).sees [.endOfInput] = true := by
    rw [Parser.sees_iff, Parser.move_rest, hr, List.drop_left, hF]
    simp
  have hwarn : Parse.warnTrailing (s.move ts.length) = .ok () (s.move ts.length) := by
    unfold Parse.warnTrailing
    rw [Parse.bind_ok (Parse.sees_run _ _), if_pos hsees]
    rfl
  refine ⟨f span, ?_, hQ span⟩
  rw [Parse.bind_ok hskip, Parse.bind_ok hspan, Parse.bind_ok hwarn, Parse.pure_run]

/-- The parts of one sort are the same but for their places, if all statements are. -/
theorem filterMap_erase {α β : Type} {f : α → Option β} {e : α → α} {g : β → β} {as bs : List α}
    (hf : ∀ a, f (e a) = (f a).map g) (h : as.map e = bs.map e) :
    (as.filterMap f).map g = (bs.filterMap f).map g := by
  have hsort : ∀ cs : List α, (cs.filterMap f).map g = (cs.map e).filterMap f := by
    intro cs
    rw [List.map_filterMap, List.filterMap_map]
    congr 1
    funext a
    exact (hf a).symm
  rw [hsort, hsort, h]

/-- Drawings of the same statements are the same but for places. -/
theorem Drawing.Statements.eraseSpans_congr {d d' : Drawing} {top top' : List TopItem}
    {body body' : List BodyItem} (h : d.Statements top body) (h' : d'.Statements top' body')
    (htop : top.map TopItem.eraseSpan = top'.map TopItem.eraseSpan)
    (hbody : body.map BodyItem.eraseSpan = body'.map BodyItem.eraseSpan) (hname : d.name = d'.name)
    (hcanvas : d.canvas = d'.canvas)
    (hmodule : d.module.map Module.eraseSpan = d'.module.map Module.eraseSpan) :
    d.eraseSpans = d'.eraseSpans := by
  have hunits := filterMap_erase (f := TopItem.unit?) (g := UnitDecl.eraseSpan)
    (fun a => by cases a <;> rfl) htop
  have himports := filterMap_erase (f := TopItem.imported?) (g := Import.eraseSpan)
    (fun a => by cases a <;> rfl) htop
  have hexports := filterMap_erase (f := TopItem.exported?) (g := Export.eraseSpan)
    (fun a => by cases a <;> rfl) htop
  have hrooms := filterMap_erase (f := BodyItem.room?) (g := Room.eraseSpan)
    (fun a => by cases a <;> rfl) hbody
  have hwalls := filterMap_erase (f := BodyItem.wall?) (g := Wall.eraseSpan)
    (fun a => by cases a <;> rfl) hbody
  have hdoors := filterMap_erase (f := BodyItem.door?) (g := Door.eraseSpan)
    (fun a => by cases a <;> rfl) hbody
  have hgrids := filterMap_erase (f := BodyItem.grid?) (g := Grid.eraseSpan)
    (fun a => by cases a <;> rfl) hbody
  have hrepeats := filterMap_erase (f := BodyItem.copies?) (g := Repeat.eraseSpan)
    (fun a => by cases a <;> rfl) hbody
  have hplacements := filterMap_erase (f := BodyItem.placement?) (g := Placement.eraseSpan)
    (fun a => by cases a <;> rfl) hbody
  rw [h.units, h'.units] at hunits
  rw [h.imports, h'.imports] at himports
  rw [h.exports, h'.exports] at hexports
  rw [h.rooms, h'.rooms] at hrooms
  rw [h.walls, h'.walls] at hwalls
  rw [h.doors, h'.doors] at hdoors
  rw [h.grids, h'.grids] at hgrids
  rw [h.repeats, h'.repeats] at hrepeats
  rw [h.placements, h'.placements] at hplacements
  simp only [eraseSpans, hname, hcanvas, hmodule, hunits, himports, hexports, hrooms, hwalls, hdoors,
    hgrids, hrepeats, hplacements]

theorem reads_top (top : List TopItem) :
    Reads (Parse.many [.atDraw, .endOfInput] Parse.topItem) (top.flatMap TopItem.words)
      (· ∈ [Kind.atDraw, .endOfInput])
      (fun items => items.map TopItem.eraseSpan = top.map TopItem.eraseSpan) := by
  refine reads_many (F := anyKind) ?_ ?_ (fun _ _ => trivial) (Joined.flatMap TopItem.words top)
  · rintro item _ _ rfl
    exact reads_topItem
  · rintro item _ _ rfl
    cases item <;> exact opens_keyword ⟨by decide, trivial⟩

theorem reads_body {body : List BodyItem} (h : ∀ item ∈ body, item.Printable) {ws : List Word}
    (hws : Joined BodyItem.Prints body ws) :
    Reads (Parse.many [.rightBrace, .endOfInput] Parse.bodyItem) ws
      (· ∈ [Kind.rightBrace, .endOfInput])
      (fun items => items.map BodyItem.eraseSpan = body.map BodyItem.eraseSpan) :=
  reads_many (fun item hi _ hp => reads_bodyItem (h item hi) hp) (fun _ _ _ hp => opens_bodyItem hp)
    (by decide) hws

theorem reads_drawing {d : Drawing} (h : d.Printable) {ws : List Word} (hws : d.Prints ws) :
    Reads Parse.drawing ws (· = .endOfInput) (·.eraseSpans = d.eraseSpans) := by
  cases hws with
  | @mk top body ws hst hbody =>
      have hmodule : Leads (top.flatMap TopItem.words ++ .keyword .atDraw :: .name d.name ::
          .keyword .leftBrace :: (canvasWords d.canvas ++ (ws ++ [.keyword .rightBrace])))
          (· = .endOfInput) (· ≠ .atModule) := by
        refine leads_joined ?_ (Joined.flatMap TopItem.words top) (opens_keyword (by decide)).leads
        rintro item _ _ rfl
        cases item <;> exact opens_keyword (by decide)
      refine Reads.get fun st => reads_module?.bind hmodule fun m hm => ?_
      refine (reads_top top).bind (opens_keyword (by decide)).leads fun items hitems => ?_
      refine reads_skip.andThen fun _ _ => reads_expectValue.andThen ?_
      rintro _ rfl
      refine reads_skip.andThen fun _ _ => reads_canvas.andThen ?_
      rintro _ rfl
      refine (reads_body (hst.body_printable h) hbody).bind (opens_keyword (by decide)).leads
        fun items' hitems' => ?_
      refine reads_close _ fun span => ?_
      exact Statements.eraseSpans_congr ⟨rfl, rfl, rfl, rfl, rfl, rfl, rfl, rfl, rfl⟩ hst hitems hitems'
        rfl rfl hm

/-- A drawing that can be printed has a printed form, and each printed form is parsed without any
message to the same drawing but for the places in the source. -/
theorem parse_printed {d : Drawing} (h : d.Printable) :
    (∃ source, d.Printed source) ∧ ∀ source, d.Printed source →
      ∃ tokens parsed, tokenize source = .ok tokens ∧ parse tokens = .ok parsed ∧
        parsed.messages = [] ∧ parsed.drawing.eraseSpans = d.eraseSpans := by
  refine ⟨h.printed, fun source hp => ?_⟩
  obtain ⟨ws, ts, hprints, hts, hlexes⟩ := hp.lexes h
  obtain ⟨body, p, htokens, hbody⟩ := Cursor.tokens_of_lexes hlexes (Cursor.ofSource source) rfl
  have hreg : ∀ t ∈ body, Regular t.pair := by
    intro t ht
    refine hlexes.regular _ ?_
    rw [← hbody]
    exact List.mem_map_of_mem ht
  have hwords : WordTokens ws body := by
    unfold WordTokens
    rwa [hbody]
  have hread := reads_drawing h hprints ⟨[], body, Token.ending p, 0, [], rfl⟩ body []
    ⟨rfl, rfl, hreg⟩ (by simp) hwords rfl
  obtain ⟨drawing, hrun, hdrawing⟩ := hread
  refine ⟨_, ⟨drawing, []⟩, htokens, ?_, rfl, hdrawing⟩
  unfold parse
  rw [Parser.ofTokens_regular hreg, hrun]
  rfl

/-- A drawing with a statement of every sort.  The label has a quote and a backslash, a unit is
called `X`, and the digits of the color are both numbers and letters. -/
def studio : Drawing where
  name := "Studio"
  canvas := ⟨2.5, 2, "X"⟩
  units := [⟨"X", 2, "m", none⟩]
  rooms := [⟨"den", 0, 0, 2, 2.5, "X", some "a \"b\" \\", some [("fill", "red 2"), ("rule", "")], none⟩,
    ⟨"hall", 0, 2, 2, 2, "X", none, none, none⟩]
  walls := [⟨⟨0, 0, 2, 2⟩, "X", none⟩]
  doors := [⟨⟨0, 0, 2, 0⟩, 2.5, "X", none⟩]
  grids := [⟨"dotted", 2, 2, "X", some "#9aa0", some 2, none⟩]
  repeats := [⟨"Window", ⟨0, 0, 2, 0⟩, 2, "X", none⟩]
  imports := [⟨"Ground", some "G", some "./ground", none⟩]
  exports := [⟨"Studio", true, none⟩]
  placements := [⟨"G", some "Floor", some ⟨2, 2, "X"⟩, some 2, none, none⟩]
  module := some ⟨"Sample", none⟩
  span := none

theorem parse_printed_studio : studio.Printable ∧ (∃ source, studio.Printed source) ∧
    ∀ source, studio.Printed source →
      ∃ tokens parsed, tokenize source = .ok tokens ∧ parse tokens = .ok parsed ∧
        parsed.messages = [] ∧ parsed.drawing.eraseSpans = studio.eraseSpans := by
  have h0 : IsNumber 0 := ⟨['0'], .whole (by simp) (List.all_eq_true.mp (by decide)), by decide +kernel⟩
  have h2 : IsNumber 2 := ⟨['2'], .whole (by simp) (List.all_eq_true.mp (by decide)), by decide +kernel⟩
  have hhalf : IsNumber 2.5 := by
    have hds : IsNumeral (['2'] ++ '.' :: ['5']) :=
      .point (by simp) (List.all_eq_true.mp (by decide)) (by simp) (List.all_eq_true.mp (by decide))
    exact ⟨_, hds, by decide +kernel⟩
  have hX : IsName "X" := by decide
  have hred : IsStyleValue "red 2" := by
    refine ⟨["red", "2"], ?_, by decide⟩
    simp only [List.mem_cons, List.not_mem_nil, or_false]
    rintro p (rfl | rfl)
    · exact .word (by decide)
    · exact .number (.whole (by simp) (List.all_eq_true.mp (by decide)))
  have hempty : IsStyleValue "" := ⟨[], by simp, by decide⟩
  have hden : ∀ r ∈ studio.rooms, r.Printable := by
    simp only [studio, List.mem_cons, List.not_mem_nil, or_false]
    rintro r (rfl | rfl)
    · refine ⟨by decide, ⟨h0, h0, hX⟩, ⟨h2, hhalf, hX⟩, by simp, ?_, by decide⟩
      simp only [Option.getD_some, List.mem_cons, List.not_mem_nil, or_false]
      rintro e (rfl | rfl)
      · exact ⟨by decide, hred⟩
      · exact ⟨by decide, hempty⟩
    · exact ⟨by decide, ⟨h0, h2, hX⟩, ⟨h2, h2, hX⟩, by simp, by simp, by decide⟩
  have hgrid : ∀ g ∈ studio.grids, g.Printable := by
    simp only [studio, List.mem_cons, List.not_mem_nil, or_false]
    rintro g rfl
    refine ⟨by decide, ⟨h2, h2⟩, hX, ?_, by simpa using h2⟩
    rintro c ⟨⟩
    exact .inr ⟨['9', 'a', 'a', '0'], by decide, List.all_eq_true.mp (by decide)⟩
  have hplacement : ∀ p ∈ studio.placements, p.Printable := by
    simp only [studio, List.mem_cons, List.not_mem_nil, or_false]
    rintro p rfl
    refine ⟨by decide, ?_, ?_, by simpa using h2, by simp⟩
    · rintro w ⟨⟩
      decide
    · rintro c ⟨⟩
      exact ⟨h2, h2, hX⟩
  have hstudio : studio.Printable := by
    refine ⟨by decide, ?_, ⟨hhalf, h2, hX⟩, ?_, hden, ?_, ?_, hgrid, ?_, ?_, ?_, hplacement⟩
    · rintro m ⟨⟩
      decide
    · simp only [studio, List.mem_cons, List.not_mem_nil, or_false]
      rintro u rfl
      exact ⟨hX, h2, by decide⟩
    · simp only [studio, List.mem_cons, List.not_mem_nil, or_false]
      rintro w rfl
      exact ⟨⟨h0, h0, h2, h2⟩, hX⟩
    · simp only [studio, List.mem_cons, List.not_mem_nil, or_false]
      rintro w rfl
      exact ⟨⟨h0, h0, h2, h0⟩, hhalf, hX⟩
    · simp only [studio, List.mem_cons, List.not_mem_nil, or_false]
      rintro r rfl
      exact ⟨by decide, ⟨h0, h0, h2, h0⟩, h2, hX⟩
    · simp only [studio, List.mem_cons, List.not_mem_nil, or_false]
      rintro i rfl
      refine ⟨by decide, ?_⟩
      rintro a ⟨⟩
      decide
    · simp only [studio, List.mem_cons, List.not_mem_nil, or_false]
      rintro e rfl
      decide
  exact ⟨hstudio, parse_printed hstudio⟩

end FloorPlan
