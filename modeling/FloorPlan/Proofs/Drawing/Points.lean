import FloorPlan.Proofs.Grammar.Resumption

/-! # Places between statements

A parse is a walk through places between statements.  `InTop` and `InBlock` are the places that the
two loops get to, and `TopPoint` and `BlockPoint` those directly behind the token that ends a
statement; before the draw block tokens that open no statement may stand in between.  From such a
place on, the parse is `Parse.topRest` or `Parse.blockRest` (`InTop.drawing`, `InBlock.drawing`).

What stands before a point is read in the same way whatever follows it (`TopPoint.instead`,
`BlockPoint.instead`), and what follows is read in the same way whatever stands before it
(`parallel_topRest`, `parallel_blockRest`). -/

namespace FloorPlan

open Drawing

/-! ### Parts of a drawing -/

/-- The statements of a drawing, in the order of the source. -/
structure Parts where
  module : Option Module
  top : List TopItem
  name : String
  canvas : Canvas
  body : List BodyItem

/-- The drawing with given statements. -/
def Parts.drawing (p : Parts) (span : Span) : Drawing where
  name := p.name
  canvas := p.canvas
  module := p.module
  span := span
  units := p.top.filterMap TopItem.unit?
  imports := p.top.filterMap TopItem.imported?
  exports := p.top.filterMap TopItem.exported?
  rooms := p.body.filterMap BodyItem.room?
  walls := p.body.filterMap BodyItem.wall?
  doors := p.body.filterMap BodyItem.door?
  grids := p.body.filterMap BodyItem.grid?
  repeats := p.body.filterMap BodyItem.copies?
  placements := p.body.filterMap BodyItem.placement?

/-- The drawing with more statements in its block. -/
def Parts.add (p : Parts) (body : List BodyItem) : Parts := { p with body := p.body ++ body }

@[simp] theorem Parts.add_nil (p : Parts) : p.add [] = p := by simp only [add, List.append_nil]

theorem Parts.add_add (p : Parts) (body body' : List BodyItem) :
    (p.add body).add body' = p.add (body ++ body') := by
  simp only [add, List.append_assoc]

/-- The kinds that end the statements before the draw block. -/
def topStops : List Kind := [.atDraw, .endOfInput]

/-- The kinds that end the statements of the draw block. -/
def blockStops : List Kind := [.rightBrace, .endOfInput]

namespace Parse

/-- The head of the draw block, which gives the name of the drawing. -/
def entry : Parse String := do
  skip .atDraw
  let name ← expectValue .identifier
  skip .leftBrace
  return name

/-- The end of the draw block, which gives the stretch of the drawing. -/
def ending (start : Position) : Parse Span := do
  skip .rightBrace
  let span ← spanFrom start
  warnTrailing
  return span

/-- The rest of a drawing whose parts up to some place in the block are given. -/
def blockRest (start : Position) (p : Parts) : Parse Drawing := do
  let body ← many blockStops bodyItem
  let span ← ending start
  return (p.add body).drawing span

/-- The rest of a drawing whose parts up to some place before the block are given. -/
def topRest (start : Position) (module : Option Module) (top : List TopItem) : Parse Drawing := do
  let top' ← many topStops topItem
  let name ← entry
  let canvas ← requiredCanvas
  blockRest start ⟨module, top ++ top', name, canvas, []⟩

theorem drawing_eq : drawing = (do
    let start := (← get).current.start
    topRest start (← moduleDecl?) []) := by
  unfold drawing topRest entry blockRest ending
  refine bind_congr fun s => bind_congr fun module => bind_congr fun top => ?_
  refine .trans (bind_congr fun _ => ?_) (bind_assoc _ _ _).symm
  refine .trans (bind_congr fun name => ?_) (bind_assoc _ _ _).symm
  refine .trans (bind_congr fun _ => ?_) (bind_assoc _ _ _).symm
  refine .trans (bind_congr fun canvas => bind_congr fun body => ?_) (pure_bind _ _).symm
  refine .trans (bind_congr fun _ => ?_) (bind_assoc _ _ _).symm
  refine .trans (bind_congr fun span => ?_) (bind_assoc _ _ _).symm
  refine .trans (bind_congr fun _ => ?_) (bind_assoc _ _ _).symm
  exact (pure_bind _ _).symm

end Parse

/-! ### Steps of the two loops -/

theorem Blind.congr {α : Type} {p q : Parse α} (hq : Blind q)
    (h : ∀ {s : Parser}, s.shift = 0 → p s = q s) : Blind p := by
  refine ⟨⟨fun hs hrun => hq.walk hs (h hs ▸ hrun), fun hs hrun => hq.error hs (h hs ▸ hrun)⟩, ?_⟩
  intro e v v' s s' a t he hupto hrun ht
  rw [h hupto.shift']
  exact hq.upto he hupto (h hupto.shift ▸ hrun) ht

theorem Parallel.congr {α : Type} {p q : Parse α} {s s' : Parser} {R : α → α → Prop}
    (h : ∀ {s : Parser}, s.shift = 0 → p s = q s) (hs : s.Abreast s')
    (hq : Parallel R q q s s') : Parallel R p p s s' := by
  unfold Parallel at hq ⊢
  rwa [h hs.shift, h hs.shift']

theorem blind_moduleDecl? : Blind Parse.moduleDecl? := Parse.moduleDecl?_eq ▸ blind_closed front_module

theorem blind_topItem : Blind Parse.topItem := (blind_closed front_top).congr Parse.topItem_eq

theorem blind_bodyItem : Blind Parse.bodyItem := Parse.bodyItem_eq ▸ blind_closed front_body

theorem made_entry : Made Parse.entry :=
  .bind made_skip fun _ => .bind made_expectValue fun _ => .bind made_skip fun _ => .pure _

theorem blind_requiredCanvas : Blind Parse.requiredCanvas :=
  .congr (.bind (blind_closed front_canvas) fun _ => .pure _) Parse.requiredCanvas_eq

section

variable {s s' : Parser}

theorem parallel_topItem (h : s.Abreast s') : Parallel Eq Parse.topItem Parse.topItem s s' :=
  .congr Parse.topItem_eq h (parallel_closed front_top h)

theorem parallel_bodyItem (h : s.Abreast s') : Parallel Eq Parse.bodyItem Parse.bodyItem s s' :=
  Parse.bodyItem_eq ▸ parallel_closed front_body h

theorem parallel_requiredCanvas (h : s.Abreast s') :
    Parallel Eq Parse.requiredCanvas Parse.requiredCanvas s s' := by
  refine .congr Parse.requiredCanvas_eq h ((parallel_closed front_canvas h).bind ?_)
  rintro c _ _ _ rfl - -
  exact .pure rfl

/-! ### What follows a place -/

theorem parallel_ending (h : s.Abreast s') (start start' : Position) :
    Parallel (fun _ _ => True) (Parse.ending start) (Parse.ending start') s s' := by
  refine (made_skip.parallel h).bind fun _ _ t t' _ _ halong => ?_
  have ht := h.along halong
  refine Parallel.bind (R := fun _ _ => True) (.ok (Parse.spanFrom_run ht.shift start)
    (Parse.spanFrom_run ht.shift' start') trivial (.refl t t')) fun _ _ _ _ _ _ halong => ?_
  exact (made_warnTrailing.parallel (ht.along halong)).bind fun _ _ _ _ _ _ _ => .pure trivial

/-- From a place in the draw block the same statements follow, whatever stands before. -/
theorem parallel_blockRest (h : s.Abreast s') (start start' : Position) (p p' : Parts) :
    Parallel (fun d d' => ∃ body span span', d = (p.add body).drawing span ∧
        d' = (p'.add body).drawing span')
      (Parse.blockRest start p) (Parse.blockRest start' p') s s' := by
  refine (Parallel.many blockStops (fun h _ => parallel_bodyItem h) h).bind ?_
  rintro body _ t t' rfl - halong
  refine (parallel_ending (h.along halong) start start').bind fun span span' _ _ _ _ _ => ?_
  exact .pure ⟨body, span, span', rfl, rfl⟩

/-- From a place before the draw block the same statements follow, whatever stands before. -/
theorem parallel_topRest (h : s.Abreast s') (start start' : Position) (m m' : Option Module)
    (top top' : List TopItem) :
    Parallel (fun d d' => ∃ more name canvas body span span',
        d = (Parts.mk m (top ++ more) name canvas body).drawing span ∧
        d' = (Parts.mk m' (top' ++ more) name canvas body).drawing span')
      (Parse.topRest start m top) (Parse.topRest start' m' top') s s' := by
  refine (Parallel.many topStops (fun h _ => parallel_topItem h) h).bind ?_
  rintro more _ t t' rfl - halong
  replace h := h.along halong
  refine (made_entry.parallel h).bind ?_
  rintro name _ t t' rfl - halong
  replace h := h.along halong
  refine (parallel_requiredCanvas h).bind ?_
  rintro canvas _ t t' rfl - halong
  refine (parallel_blockRest (h.along halong) start start' _ _).mono ?_
  rintro d d' ⟨body, span, span', rfl, rfl⟩
  exact ⟨more, name, canvas, body, span, span', rfl, rfl⟩

end

/-! ### Places -/

section

variable {s₀ s₀' s s' t : Parser} {m : Option Module} {top : List TopItem} {p : Parts} {e : Token}
variable {v v' w : List Token}

/-- From the state `s₀` the statements before the draw block are read up to the state `s`. -/
def InTop (s₀ : Parser) (m : Option Module) (top : List TopItem) (s : Parser) : Prop :=
  ∃ s₁, Parse.moduleDecl? s₀ = .ok m s₁ ∧ Turns topStops Parse.topItem s₁ top s

/-- From the state `s₀` the drawing is read up to the canvas, which is ahead in the state `s`. -/
def AtCanvas (s₀ : Parser) (m : Option Module) (top : List TopItem) (name : String) (s : Parser) :
    Prop :=
  ∃ s₁, InTop s₀ m top s₁ ∧ s₁.sees topStops = true ∧ Parse.entry s₁ = .ok name s

/-- From the state `s₀` the drawing is read up to the state `s` in the draw block. -/
def InBlock (s₀ : Parser) (p : Parts) (s : Parser) : Prop :=
  ∃ s₁ s₂, AtCanvas s₀ p.module p.top p.name s₁ ∧ Parse.requiredCanvas s₁ = .ok p.canvas s₂ ∧
    Turns blockStops Parse.bodyItem s₂ p.body s

theorem InTop.advance (h : InTop s₀ m top s) (hs : s₀.shift = 0) : s₀.Advance s := by
  obtain ⟨s₁, hmodule, hturns⟩ := h
  have hadv := blind_moduleDecl?.ok hs hmodule
  exact hadv.trans (hturns.advance blind_topItem.toForward (hadv.shift hs))

theorem InTop.upto (h : InTop s₀ m top s) (he : e.kind ≠ .identifier) (hupto : s₀.Upto e v v' s₀')
    (hv : v.length < s.rest.length) : ∃ s', InTop s₀' m top s' ∧ s.Upto e v v' s' := by
  obtain ⟨s₁, hmodule, hturns⟩ := h
  have hs₁ := (blind_moduleDecl?.ok hupto.shift hmodule).shift hupto.shift
  have hle := (hturns.advance blind_topItem.toForward hs₁).onward.suffix.length_le
  obtain ⟨s₁', hmodule', h₁⟩ := blind_moduleDecl?.upto he hupto hmodule (by omega)
  obtain ⟨s', hturns', h'⟩ := hturns.upto blind_topItem he h₁ hv
  exact ⟨s', ⟨s₁', hmodule', hturns'⟩, h'⟩

theorem InTop.drawing (h : InTop s₀ m top s) :
    Parse.drawing s₀ = Parse.topRest s₀.current.start m top s := by
  obtain ⟨s₁, hmodule, hturns⟩ := h
  rw [Parse.drawing_eq, Parse.bind_ok (Parse.get_run s₀), Parse.bind_ok hmodule]
  exact hturns.bind

theorem InTop.turns {items : List TopItem} (h : InTop s₀ m top s)
    (hturns : Turns topStops Parse.topItem s items t) : InTop s₀ m (top ++ items) t := by
  obtain ⟨s₁, hmodule, hturns₁⟩ := h
  exact ⟨s₁, hmodule, hturns₁.append hturns⟩

theorem AtCanvas.advance {name : String} (h : AtCanvas s₀ m top name s) (hs : s₀.shift = 0) :
    s₀.Advance s := by
  obtain ⟨s₁, htop, -, hentry⟩ := h
  have hadv := htop.advance hs
  exact hadv.trans (made_entry.forward.ok (hadv.shift hs) hentry)

theorem AtCanvas.upto {name : String} (h : AtCanvas s₀ m top name s) (he : e.kind ≠ .identifier)
    (hupto : s₀.Upto e v v' s₀') (hv : v.length < s.rest.length) :
    ∃ s', AtCanvas s₀' m top name s' ∧ s.Upto e v v' s' := by
  obtain ⟨s₁, htop, hsees, hentry⟩ := h
  have hs₁ := (htop.advance hupto.shift).shift hupto.shift
  have hle := (made_entry.forward.ok hs₁ hentry).onward.suffix.length_le
  obtain ⟨s₁', htop', h₁⟩ := htop.upto he hupto (by omega)
  obtain ⟨s', hentry', h'⟩ := made_entry.blind.upto he h₁ hentry hv
  exact ⟨s', ⟨s₁', htop', h₁.sees topStops ▸ hsees, hentry'⟩, h'⟩

theorem InBlock.advance (h : InBlock s₀ p s) (hs : s₀.shift = 0) : s₀.Advance s := by
  obtain ⟨s₁, s₂, hcanvas, hrun, hturns⟩ := h
  have hadv := hcanvas.advance hs
  have hadv₂ := blind_requiredCanvas.ok (hadv.shift hs) hrun
  exact hadv.trans (hadv₂.trans
    (hturns.advance blind_bodyItem.toForward (hadv₂.shift (hadv.shift hs))))

theorem InBlock.upto (h : InBlock s₀ p s) (he : e.kind ≠ .identifier) (hupto : s₀.Upto e v v' s₀')
    (hv : v.length < s.rest.length) : ∃ s', InBlock s₀' p s' ∧ s.Upto e v v' s' := by
  obtain ⟨s₁, s₂, hcanvas, hrun, hturns⟩ := h
  have hs₁ := (hcanvas.advance hupto.shift).shift hupto.shift
  have hadv₂ := blind_requiredCanvas.ok hs₁ hrun
  have hle₂ := hadv₂.onward.suffix.length_le
  have hle := (hturns.advance blind_bodyItem.toForward (hadv₂.shift hs₁)).onward.suffix.length_le
  obtain ⟨s₁', hcanvas', h₁⟩ := hcanvas.upto he hupto (by omega)
  obtain ⟨s₂', hrun', h₂⟩ := blind_requiredCanvas.upto he h₁ hrun (by omega)
  obtain ⟨s', hturns', h'⟩ := hturns.upto blind_bodyItem he h₂ hv
  exact ⟨s', ⟨s₁', s₂', hcanvas', hrun', hturns'⟩, h'⟩

theorem InBlock.turns {items : List BodyItem} (h : InBlock s₀ p s)
    (hturns : Turns blockStops Parse.bodyItem s items t) : InBlock s₀ (p.add items) t := by
  obtain ⟨s₁, s₂, hcanvas, hrun, hturns₁⟩ := h
  exact ⟨s₁, s₂, hcanvas, hrun, hturns₁.append hturns⟩

/-- From the state where the canvas is read. -/
theorem AtCanvas.drawing {name : String} {canvas : Canvas} (h : AtCanvas s₀ m top name s)
    (hrun : Parse.requiredCanvas s = .ok canvas t) :
    Parse.drawing s₀ = Parse.blockRest s₀.current.start ⟨m, top, name, canvas, []⟩ t := by
  obtain ⟨s₁, htop, hsees, hentry⟩ := h
  rw [htop.drawing]
  unfold Parse.topRest
  rw [Parse.bind_ok (Parse.many_stop hsees), Parse.bind_ok hentry, Parse.bind_ok hrun,
    List.append_nil]

theorem InBlock.drawing (h : InBlock s₀ p s) :
    Parse.drawing s₀ = Parse.blockRest s₀.current.start p s := by
  obtain ⟨s₁, s₂, hcanvas, hrun, hturns⟩ := h
  rw [hcanvas.drawing hrun]
  exact hturns.bind

end

/-! ### Points -/

/-- The token neither opens a statement before the draw block nor ends these statements. -/
def Token.Foreign (t : Token) : Prop :=
  t.kind ∉ [.hierarchy, .atUnit, .importWord, .exportWord, .atDraw, .endOfInput]

instance (t : Token) : Decidable t.Foreign := inferInstanceAs (Decidable (¬ _))

/-- The error that the token opens no statement before the draw block. -/
def Token.foreignError (t : Token) : Diagnostic :=
  .error .grammar ("Unexpected token: " ++ t.kind.text) t.span
    (some "Expected @unit, import, export or @draw")

/-- A foreign token is dropped with an error. -/
theorem topItem_foreign {s : Parser} {t : Token} {ts : List Token} (h : t.Foreign)
    (hr : s.rest = t :: ts) :
    Parse.topItem s = .ok none ((s.move 1).report t.foreignError) := by
  have hcurrent := Parser.current_of_rest hr
  simp only [Token.Foreign, List.mem_cons, not_or] at h
  have hrun : Parse.topItem s = (do
      Parse.complain ("Unexpected token: " ++ t.kind.text)
        (some "Expected @unit, import, export or @draw")
      discard Parse.take
      return none : Parse (Option TopItem)) s := by
    unfold Parse.topItem
    rw [Parse.bind_ok (Parse.accepts_false (by rw [← Parser.current_kind, hcurrent]; simp [h])),
      if_neg Bool.false_ne_true, Parse.bind_ok (Parse.get_run s), hcurrent]
    refine congrFun ?_ s
    split
    case h_4 => rfl
    all_goals simp_all
  rw [hrun, ← hcurrent]
  rfl

/-- From the state `s₀` the parser gets to a place before the draw block that is directly behind the
end of the module declaration or of a statement, or at the very front if no module is declared, or
behind such a place and foreign tokens. -/
inductive TopPoint (s₀ : Parser) : Option Module → List TopItem → Parser → Prop
  | front (h : s₀.sees [.atModule] = false) : TopPoint s₀ none [] s₀
  | module {o : Option Module} {e : Token} {s : Parser} (h : Ends Parse.moduleFront? s₀ o e s) :
      TopPoint s₀ o [] s
  | item {m : Option Module} {top : List TopItem} {o : Option TopItem} {e : Token} {s t : Parser}
      (h : InTop s₀ m top s) (hsees : s.sees topStops = false) (hends : Ends Parse.topFront s o e t) :
      TopPoint s₀ m (top ++ o.toList) t
  | foreign {m : Option Module} {top : List TopItem} {e : Token} {s : Parser} {ts : List Token}
      (h : TopPoint s₀ m top s) (hr : s.rest = e :: ts) (he : e.Foreign) :
      TopPoint s₀ m top ((s.move 1).report e.foreignError)

/-- From the state `s₀` the parser gets to a place in the draw block that is directly behind the end
of the canvas or of a statement. -/
inductive BlockPoint (s₀ : Parser) : Parts → Parser → Prop
  | canvas {m : Option Module} {top : List TopItem} {name : String} {canvas : Canvas} {e : Token}
      {s t : Parser} (h : AtCanvas s₀ m top name s)
      (hends : Ends Parse.canvasFront? s (some canvas) e t) :
      BlockPoint s₀ ⟨m, top, name, canvas, []⟩ t
  | item {p : Parts} {o : Option BodyItem} {e : Token} {s t : Parser} (h : InBlock s₀ p s)
      (hsees : s.sees blockStops = false) (hends : Ends Parse.bodyFront s o e t) :
      BlockPoint s₀ (p.add o.toList) t

section

variable {s₀ s₀' s s' : Parser} {m : Option Module} {top : List TopItem} {p : Parts}
variable {v' w : List Token}

theorem TopPoint.inTop (hs : s₀.shift = 0) (h : TopPoint s₀ m top s) : InTop s₀ m top s := by
  induction h with
  | front hsees =>
      refine ⟨s₀, ?_, .refl s₀⟩
      unfold Parse.moduleDecl?
      rw [Parse.bind_ok (Parse.sees_run _ s₀), hsees]
      rfl
  | @module _ _ s hends =>
      refine ⟨s, ?_, .refl s⟩
      rw [Parse.moduleDecl?_eq]
      exact (hends.run front_module hs).1
  | item h hsees hends =>
      have hshift := (h.advance hs).shift hs
      obtain ⟨hrun, hlt, -⟩ := hends.run front_top hshift
      exact h.turns (.single hsees (Parse.topItem_eq hshift ▸ hrun) hlt)
  | @foreign m top e s _ h hr he ih =>
      have hsees : s.sees topStops = false := by
        simp only [Token.Foreign, List.mem_cons, not_or] at he
        simp [Parser.sees, Parser.current_of_rest hr, topStops, he]
      have hlt : ((s.move 1).report e.foreignError).rest.length < s.rest.length := by
        simp [Parser.report, hr]
      have hturns := ih.turns (.single hsees (topItem_foreign he hr) hlt)
      rwa [Option.toList_none, List.append_nil] at hturns

theorem BlockPoint.inBlock (hs : s₀.shift = 0) (h : BlockPoint s₀ p s) : InBlock s₀ p s := by
  cases h with
  | canvas h hends =>
      have hshift := (h.advance hs).shift hs
      refine ⟨_, s, h, ?_, .refl s⟩
      rw [Parse.requiredCanvas_eq hshift, Parse.bind_ok (hends.run front_canvas hshift).1]
      rfl
  | item h hsees hends =>
      have hshift := (h.advance hs).shift hs
      obtain ⟨hrun, hlt, -⟩ := hends.run front_body hshift
      exact h.turns (.single hsees (Parse.bodyItem_eq ▸ hrun) hlt)

/-- The latest token taken, if there is one, ends a statement or is foreign. -/
theorem TopPoint.latest (h : TopPoint s₀ m top s) (hs : s₀.past = []) {e : Token}
    (he : s.past.head? = some e) : (∃ braced, e.kind = closerKind braced) ∨ e.Foreign := by
  cases h with
  | front _ =>
      rw [hs] at he
      cases he
  | module hends =>
      obtain ⟨he', hkind⟩ := hends.latest
      cases he.symm.trans he'
      exact .inl hkind
  | item _ _ hends =>
      obtain ⟨he', hkind⟩ := hends.latest
      cases he.symm.trans he'
      exact .inl hkind
  | @foreign _ _ e' s _ _ hr hforeign =>
      have he' : ((s.rest.take 1).reverse ++ s.past).head? = some e := he
      rw [hr] at he'
      cases he'
      exact .inr hforeign

theorem BlockPoint.latest (h : BlockPoint s₀ p s) :
    ∃ e, s.past.head? = some e ∧ ∃ braced, e.kind = closerKind braced := by
  cases h with
  | canvas _ hends => exact ⟨_, hends.latest⟩
  | item _ _ hends => exact ⟨_, hends.latest⟩

/-- Only the very front is a point where all tokens are ahead. -/
theorem TopPoint.sees_front (h : TopPoint s₀ m top s) (hs : s₀.shift = 0)
    (hle : s₀.rest.length ≤ s.rest.length) : s₀.sees [.atModule] = false := by
  cases h with
  | front hsees => exact hsees
  | module hends =>
      have hlt := (hends.run front_module hs).2.1
      omega
  | item h _ hends =>
      have hadv := h.advance hs
      have hlt := (hends.run front_top (hadv.shift hs)).2.1
      have hle' := hadv.onward.suffix.length_le
      omega
  | foreign h hr _ =>
      have hle' := ((h.inTop hs).advance hs).onward.suffix.length_le
      simp only [Parser.report, Parser.move_rest, hr, List.drop_one, List.tail_cons] at hle
      rw [hr, List.length_cons] at hle'
      omega

/-- What stands before a point is read in the same way whatever follows it; only a module
declaration would count at the very front. -/
theorem TopPoint.instead (h : TopPoint s₀ m top s) (hw : s₀.rest = w ++ s.rest)
    (hinstead : s₀.Instead (w ++ v') s₀') (hv : w = [] → nextKind v' ≠ .atModule) :
    ∃ s', TopPoint s₀' m top s' ∧ s.Instead v' s' := by
  induction h generalizing w v' with
  | front hsees =>
      have hnil : w = [] := List.append_left_eq_self.mp hw.symm
      rw [hnil, List.nil_append] at hinstead
      refine ⟨s₀', .front ?_, hinstead⟩
      rw [← Bool.not_eq_true, Parser.sees_iff, hinstead.rest]
      simpa using hv hnil
  | module hends =>
      obtain ⟨hupto, -⟩ := hends.before front_module (.refl s₀) hw hinstead
      obtain ⟨s', hends', h'⟩ := hends.upto front_module hupto
      exact ⟨s', .module hends', h'⟩
  | item h hsees hends =>
      obtain ⟨hupto, hlt⟩ := hends.before front_top (h.advance hinstead.shift) hw hinstead
      obtain ⟨s₁, h₁, hupto₁⟩ := h.upto hends.kind_ne hupto hlt
      obtain ⟨s', hends', h'⟩ := hends.upto front_top hupto₁
      exact ⟨s', .item h₁ (hupto₁.sees topStops ▸ hsees) hends', h'⟩
  | @foreign m top e s us h hr he ih =>
      obtain ⟨x, hx⟩ := ((h.inTop hinstead.shift).advance hinstead.shift).onward.suffix
      -- the tokens before the foreign one, and this one
      have hrest : ((s.move 1).report e.foreignError).rest = us := by simp [Parser.report, hr]
      have hwx : w = x ++ [e] := by
        rw [hrest, ← hx, hr, ← List.singleton_append, ← List.append_assoc] at hw
        exact (List.append_cancel_right hw).symm
      subst hwx
      rw [List.append_assoc, List.singleton_append] at hinstead
      have hfront : x = [] → nextKind (e :: v') ≠ .atModule := by
        rintro rfl
        have hsees := h.sees_front hinstead.shift (by rw [← hx]; simp)
        rw [← Bool.not_eq_true, Parser.sees_iff, ← hx, hr] at hsees
        simpa [nextKind] using hsees
      obtain ⟨s', hpoint, h'⟩ := ih hx.symm hinstead hfront
      have hrest' := h'.rest
      refine ⟨_, hpoint.foreign hrest' he, h'.shift, h'.shift', ?_, ?_, ?_⟩
      · show (s'.rest.take 1).reverse ++ s'.past = (s.rest.take 1).reverse ++ s.past
        rw [hrest', hr, h'.past]
        rfl
      · exact congrArg (· ++ [e.foreignError]) h'.messages
      · simp [Parser.report, hrest']

/-- What stands before a point is read in the same way whatever follows it. -/
theorem BlockPoint.instead (h : BlockPoint s₀ p s) (hw : s₀.rest = w ++ s.rest)
    (hinstead : s₀.Instead (w ++ v') s₀') : ∃ s', BlockPoint s₀' p s' ∧ s.Instead v' s' := by
  cases h with
  | canvas h hends =>
      obtain ⟨hupto, hlt⟩ := hends.before front_canvas (h.advance hinstead.shift) hw hinstead
      obtain ⟨s₁, h₁, hupto₁⟩ := h.upto hends.kind_ne hupto hlt
      obtain ⟨s', hends', h'⟩ := hends.upto front_canvas hupto₁
      exact ⟨s', .canvas h₁ hends', h'⟩
  | item h hsees hends =>
      obtain ⟨hupto, hlt⟩ := hends.before front_body (h.advance hinstead.shift) hw hinstead
      obtain ⟨s₁, h₁, hupto₁⟩ := h.upto hends.kind_ne hupto hlt
      obtain ⟨s', hends', h'⟩ := hends.upto front_body hupto₁
      exact ⟨s', .item h₁ (hupto₁.sees blockStops ▸ hsees) hends', h'⟩

end

/-! ### The point behind the canvas -/

/-- Reads a drawing up to the end of its canvas. -/
def Parse.upToCanvas : Parse (Option Module × List TopItem × String × Option (Unclosed Canvas)) := do
  let m ← moduleDecl?
  let top ← many topStops topItem
  let name ← entry
  return (m, top, name, ← canvasFront?)

/-- The point behind the canvas, if the canvas has an end. -/
def Parser.canvasPoint? (s₀ : Parser) : Option (Parts × Parser) :=
  match Parse.upToCanvas s₀ with
  | .ok (m, top, name, some u) s =>
    match s.rest with
    | [] => none
    | e :: _ =>
      if e.kind = closerKind u.braced then
        (u.finish ((s.move 1).stretch u.start)).map fun canvas => (⟨m, top, name, canvas, []⟩, s.move 1)
      else none
  | _ => none

theorem Parser.canvasPoint?_eq_some {s₀ s : Parser} {p : Parts} (hs : s₀.shift = 0)
    (h : s₀.canvasPoint? = some (p, s)) : BlockPoint s₀ p s := by
  unfold canvasPoint? at h
  split at h
  · next m top name u s₁ hrun =>
      split at h
      · cases h
      · next e r hrest =>
          split at h
          · next hkind =>
              obtain ⟨canvas, hfinish, hp⟩ := Option.map_eq_some_iff.mp h
              cases hp
              obtain ⟨m', s₂, hmodule, hrun⟩ := Parse.bind_eq_ok.mp hrun
              obtain ⟨top', s₃, hmany, hrun⟩ := Parse.bind_eq_ok.mp hrun
              obtain ⟨name', s₄, hentry, hrun⟩ := Parse.bind_eq_ok.mp hrun
              obtain ⟨u', s₅, hfront, hrun⟩ := Parse.bind_eq_ok.mp hrun
              cases hrun
              have hs₂ := (blind_moduleDecl?.ok hs hmodule).shift hs
              have hturns := Turns.of_many statement_topItem (by decide) hs₂ hmany
              have hsees := many_stops statement_topItem (by decide) hs₂ hmany
              exact .canvas ⟨s₃, ⟨s₂, hmodule, hturns⟩, hsees, hentry⟩
                ⟨u, s₁, hfront, by simp [hrest], hkind, rfl, hfinish.symm⟩
          · cases h
  · cases h

end FloorPlan
