import FloorPlan.Proofs.Drawing.Points

/-! # Tokens put in between statements

Two lists of tokens may meet at a point of the draw block (`MeetInBlock`) or at one before it
(`MeetInTop`).  Whether they do depends on the first list only.  Tokens that are read as statements
of their own (`ReadAs`) and that are put in at such a point add these statements and their problems,
and they change nothing else but the stretch of the drawing (`parse_insert_block`,
`parse_insert_top`). -/

namespace FloorPlan

open Drawing

/-! ### Parsers before two lists -/

namespace Parser

/-- Tokens in front of a list that has an end of its own. -/
theorem ofTokens_append {after : List Token} (h : after.any counts = true) (before : List Token) :
    ofTokens (before ++ after) =
      { ofTokens after with rest := before.filter counts ++ (ofTokens after).rest } := by
  have hne : after.filter counts ≠ [] := by
    rw [Ne, List.filter_eq_nil_iff]
    simpa using h
  obtain ⟨t, ht⟩ := List.getLast?_isSome.mpr hne |> Option.isSome_iff_exists.mp
  unfold ofTokens
  simp only [List.filter_append, List.getLast?_append, ht, Option.some_or]
  split
  · rw [List.dropLast_append_of_ne_nil hne]
  · rfl

/-- Tokens without an ending token get one where they end. -/
theorem ofTokens_unended {ts : List Token} {t : Token} (h : (ts.filter counts).getLast? = some t)
    (ht : t.kind ≠ .endOfInput) :
    ofTokens ts = ⟨[], ts.filter counts, Token.ending t.stop, 0, [], rfl⟩ := by
  unfold ofTokens
  simp only [h, dif_neg ht]

theorem ofTokens_blank {ts : List Token} (h : ts.any counts = false) : (ofTokens ts).rest = [] := by
  have hnil : ts.filter counts = [] := by
    rw [List.filter_eq_nil_iff]
    simpa using h
  unfold ofTokens
  simp only [hnil, List.getLast?_nil]

/-- Behind a token that is not an ending one the tokens of the second list are ahead. -/
theorem ofTokens_rest {before : List Token} {t : Token} (h : (before.filter counts).getLast? = some t)
    (ht : t.kind ≠ .endOfInput) (after : List Token) :
    (ofTokens (before ++ after)).rest = before.filter counts ++ (ofTokens after).rest := by
  cases hafter : after.any counts with
  | true => rw [ofTokens_append hafter]
  | false =>
      have hnil : after.filter counts = [] := by
        rw [List.filter_eq_nil_iff]
        simpa using hafter
      have hfilter : (before ++ after).filter counts = before.filter counts := by
        rw [List.filter_append, hnil, List.append_nil]
      rw [ofTokens_unended (hfilter ▸ h) ht, ofTokens_blank hafter, hfilter, List.append_nil]

/-- The tokens taken and those ahead are those of a fresh parser. -/
theorem Advance.split {s₀ s : Parser} (h : s₀.Advance s) (hpast : s₀.past = []) :
    s₀.rest = s.past.reverse ++ s.rest := by
  obtain ⟨n, ds, rfl⟩ := h
  simp [Parser.move, extend, hpast]

end Parser

/-! ### Lists that meet at a point -/

/-- The two lists meet at a point of the draw block, where the parts `p` are read and the problems
`ds` are found. -/
def MeetInBlock (before after : List Token) (p : Parts) (ds : Diagnostics) : Prop :=
  ∃ s, BlockPoint (Parser.ofTokens (before ++ after)) p s ∧
    s.past.reverse = before.filter Parser.counts ∧ s.messages = ds

/-- The two lists meet at a point before the draw block, where the module declaration `m` and the
statements `top` are read and the problems `ds` are found. -/
def MeetInTop (before after : List Token) (m : Option Module) (top : List TopItem)
    (ds : Diagnostics) : Prop :=
  ∃ s, TopPoint (Parser.ofTokens (before ++ after)) m top s ∧
    s.past.reverse = before.filter Parser.counts ∧ s.messages = ds

/-- What is read where the two lists meet, if they meet behind the canvas. -/
def meetsAtCanvas? (before after : List Token) : Option (Parts × Diagnostics) :=
  match (Parser.ofTokens (before ++ after)).canvasPoint? with
  | some (p, s) =>
    if s.past.reverse = before.filter Parser.counts then some (p, s.messages) else none
  | none => none

section

variable {before after after' mid : List Token} {p : Parts} {ds : Diagnostics}
variable {m : Option Module} {top : List TopItem}

theorem MeetInBlock.of_canvas (h : meetsAtCanvas? before after = some (p, ds)) :
    MeetInBlock before after p ds := by
  unfold meetsAtCanvas? at h
  split at h
  · next p' s hpoint =>
      split at h
      · next hpast =>
          cases h
          exact ⟨s, Parser.canvasPoint?_eq_some (Parser.ofTokens_start _).2.2 hpoint, hpast, rfl⟩
      · cases h
  · cases h

/-- Fresh parsers before two lists with the same front. -/
theorem Parser.Instead.ofTokens {w v' : List Token}
    (h : (Parser.ofTokens (before ++ after')).rest = w ++ v') :
    (Parser.ofTokens (before ++ after)).Instead (w ++ v') (Parser.ofTokens (before ++ after')) := by
  obtain ⟨hpast, hmessages, hshift⟩ := Parser.ofTokens_start (before ++ after)
  obtain ⟨hpast', hmessages', hshift'⟩ := Parser.ofTokens_start (before ++ after')
  exact ⟨hshift, hshift', hpast'.trans hpast.symm, hmessages'.trans hmessages.symm, h⟩

/-- Before a point of the draw block stands the end of a statement. -/
theorem MeetInBlock.last (h : MeetInBlock before after p ds) :
    ∃ e, (before.filter Parser.counts).getLast? = some e ∧ ∃ braced, e.kind = closerKind braced := by
  obtain ⟨s, hpoint, hpast, -⟩ := h
  obtain ⟨e, he, hkind⟩ := hpoint.latest
  exact ⟨e, by rw [← hpast, List.getLast?_reverse, he], hkind⟩

theorem MeetInBlock.rest (h : MeetInBlock before after p ds) (after' : List Token) :
    (Parser.ofTokens (before ++ after')).rest =
      before.filter Parser.counts ++ (Parser.ofTokens after').rest := by
  obtain ⟨e, he, braced, hkind⟩ := h.last
  exact Parser.ofTokens_rest he (hkind ▸ (closerKind_ne braced).2) after'

/-- A point of the draw block is one whatever follows it. -/
theorem MeetInBlock.meet (h : MeetInBlock before after p ds) (after' : List Token) :
    MeetInBlock before after' p ds := by
  have hrest := h.rest after'
  obtain ⟨s, hpoint, hpast, hmessages⟩ := h
  obtain ⟨hpast₀, -, hshift⟩ := Parser.ofTokens_start (before ++ after)
  have hsplit := ((hpoint.inBlock hshift).advance hshift).split hpast₀
  rw [hpast] at hsplit
  obtain ⟨s', hpoint', hinstead⟩ := hpoint.instead hsplit (.ofTokens hrest)
  exact ⟨s', hpoint', hinstead.past ▸ hpast, hinstead.messages ▸ hmessages⟩

/-- Where two lists meet, the tokens of the second are ahead. -/
theorem MeetInBlock.go (h : MeetInBlock before after p ds) :
    ∃ s, InBlock (Parser.ofTokens (before ++ after)) p s ∧ s.messages = ds ∧
      s.rest = (Parser.ofTokens after).rest := by
  have hrest := h.rest after
  obtain ⟨s, hpoint, hpast, hmessages⟩ := h
  obtain ⟨hpast₀, -, hshift⟩ := Parser.ofTokens_start (before ++ after)
  have hin := hpoint.inBlock hshift
  have hsplit := (hin.advance hshift).split hpast₀
  rw [hpast, hrest] at hsplit
  exact ⟨s, hin, hmessages, (List.append_cancel_left hsplit).symm⟩

/-- Before a point in front of the draw block stands the end of a statement, a foreign token or
nothing. -/
theorem MeetInTop.last (h : MeetInTop before after m top ds) {e : Token}
    (he : (before.filter Parser.counts).getLast? = some e) :
    (∃ braced, e.kind = closerKind braced) ∨ e.Foreign := by
  obtain ⟨s, hpoint, hpast, -⟩ := h
  rw [← hpast, List.getLast?_reverse] at he
  exact hpoint.latest (Parser.ofTokens_start _).1 he

/-- Behind a foreign token at the very front there is a point. -/
theorem MeetInTop.of_foreign {t : Token} (ht : t.Foreign) (hmodule : t.kind ≠ .atModule)
    (hcounts : Parser.counts t = true) (after : List Token) :
    MeetInTop [t] after none [] [t.foreignError] := by
  have hfilter : [t].filter Parser.counts = [t] := by simp [hcounts]
  have hend : t.kind ≠ .endOfInput := by
    rintro hkind
    exact ht (by rw [hkind]; decide)
  have hrest : (Parser.ofTokens (t :: after)).rest = t :: (Parser.ofTokens after).rest := by
    have hsplit := Parser.ofTokens_rest (by rw [hfilter]; rfl) hend after
    rwa [hfilter] at hsplit
  obtain ⟨hpast, hmessages, -⟩ := Parser.ofTokens_start (t :: after)
  have hsees : (Parser.ofTokens (t :: after)).sees [.atModule] = false := by
    simp [Parser.sees, Parser.current_of_rest hrest, hmodule]
  refine ⟨_, .foreign (.front hsees) hrest ht, ?_, ?_⟩
  · rw [hfilter]
    simp [Parser.report, Parser.move, hrest, hpast]
  · simp [Parser.report, Parser.move, hmessages]

/-- A point before the draw block is one whatever follows it, but for a module declaration. -/
theorem MeetInTop.meet (h : MeetInTop before after m top ds)
    (hafter' : after'.any Parser.counts = true)
    (hmodule : nextKind (Parser.ofTokens after').rest ≠ .atModule) :
    MeetInTop before after' m top ds := by
  obtain ⟨s, hpoint, hpast, hmessages⟩ := h
  obtain ⟨hpast₀, -, hshift⟩ := Parser.ofTokens_start (before ++ after)
  have hsplit := ((hpoint.inTop hshift).advance hshift).split hpast₀
  rw [hpast] at hsplit
  have hrest' : (Parser.ofTokens (before ++ after')).rest =
      before.filter Parser.counts ++ (Parser.ofTokens after').rest := by
    rw [Parser.ofTokens_append hafter']
  obtain ⟨s', hpoint', hinstead⟩ := hpoint.instead hsplit (.ofTokens hrest') fun _ => hmodule
  exact ⟨s', hpoint', hinstead.past ▸ hpast, hinstead.messages ▸ hmessages⟩

theorem MeetInTop.go (h : MeetInTop before after m top ds) (hafter : after.any Parser.counts = true) :
    ∃ s, InTop (Parser.ofTokens (before ++ after)) m top s ∧ s.messages = ds ∧
      s.rest = (Parser.ofTokens after).rest := by
  obtain ⟨s, hpoint, hpast, hmessages⟩ := h
  obtain ⟨hpast₀, -, hshift⟩ := Parser.ofTokens_start (before ++ after)
  have hin := hpoint.inTop hshift
  have hsplit := (hin.advance hshift).split hpast₀
  rw [hpast, Parser.ofTokens_append hafter] at hsplit
  exact ⟨s, hin, hmessages, (List.append_cancel_left hsplit).symm⟩

/-! ### Insertions -/

/-- Before `after`, the tokens `mid` are read as the statements `as` with the problems `es`. -/
def ReadAs {α : Type} (stops : List Kind) (item : Parse (Option α)) (mid after : List Token)
    (as : List α) (es : Diagnostics) : Prop :=
  ∃ t, Turns stops item (Parser.ofTokens (mid ++ after)) as t ∧
    t.rest = (Parser.ofTokens after).rest ∧ t.messages = es

/-- Two parses that go on in parallel from some states on. -/
theorem parse_of_parallel {ts ts' : List Token} {R : Drawing → Drawing → Prop} {k k' : Parse Drawing}
    {s s' : Parser} (h : Parse.drawing (Parser.ofTokens ts) = k s)
    (h' : Parse.drawing (Parser.ofTokens ts') = k' s') (hp : Parallel R k k' s s') :
    (∃ f, parse ts = .error f ∧ parse ts' = .error f) ∨
    ∃ d d' late, R d d' ∧ parse ts = .ok ⟨d, s.messages ++ late⟩ ∧
      parse ts' = .ok ⟨d', s'.messages ++ late⟩ := by
  unfold parse
  rw [h, h']
  rcases hp with ⟨d, d', t, t', hk, hk', hR, n, late, rfl, rfl⟩ | ⟨f, t, t', hk, hk'⟩
  · rw [hk, hk']
    exact .inr ⟨d, d', late, hR, rfl, rfl⟩
  · rw [hk, hk']
    exact .inl ⟨f, rfl, rfl⟩

/-- What is read in the draw block stays in the drawing. -/
theorem InBlock.drawing_eq {tokens : List Token} {p : Parts} {s : Parser} {parsed : Parsed}
    (h : InBlock (Parser.ofTokens tokens) p s) (hparse : parse tokens = .ok parsed) :
    ∃ body span, parsed.drawing = (p.add body).drawing span := by
  have hstart := (Parser.ofTokens_start tokens).2.2
  have hshift := (h.advance hstart).shift hstart
  have hself : s.Abreast s := ⟨hshift, hshift, rfl, rfl⟩
  rcases parse_of_parallel h.drawing h.drawing (parallel_blockRest hself _ _ p p) with
    ⟨f, hfault, -⟩ | ⟨d, -, late, ⟨body, span, -, rfl, -⟩, hparse', -⟩
  · rw [hparse] at hfault
    cases hfault
  · cases hparse.symm.trans hparse'
    exact ⟨body, span, rfl⟩

/-- States before the same tokens of a list that has an end of its own. -/
theorem abreast_of_rest {before' : List Token} {s s' : Parser} (hafter : after.any Parser.counts = true)
    (h : (Parser.ofTokens (before ++ after)).Advance s)
    (h' : (Parser.ofTokens (before' ++ after)).Advance s') (hrest : s'.rest = s.rest) :
    s.Abreast s' := by
  refine ⟨h.shift (Parser.ofTokens_start _).2.2, h'.shift (Parser.ofTokens_start _).2.2, hrest, ?_⟩
  rw [h'.onward.ending, h.onward.ending, Parser.ofTokens_append hafter, Parser.ofTokens_append hafter]

/-- The tokens are read as the same statements behind others. -/
theorem ReadAs.behind {α : Type} {stops : List Kind} {item : Parse (Option α)} {as : List α}
    {es : Diagnostics} {s : Parser} (h : ReadAs stops item mid after as es)
    (hitem : ∀ {s s' : Parser}, s.Abreast s' → Parallel Eq item item s s')
    (hafter : after.any Parser.counts = true)
    (hadv : (Parser.ofTokens (before ++ (mid ++ after))).Advance s)
    (hrest : s.rest = (Parser.ofTokens (mid ++ after)).rest) :
    ∃ t, Turns stops item s as t ∧ t.rest = (Parser.ofTokens after).rest ∧
      t.messages = s.messages ++ es := by
  have hafter' : (mid ++ after).any Parser.counts = true := by
    rw [List.any_append, hafter, Bool.or_true]
  have habreast : (Parser.ofTokens (mid ++ after)).Abreast s :=
    abreast_of_rest hafter' (.refl (.ofTokens ([] ++ (mid ++ after)))) hadv hrest
  obtain ⟨t, hturns, ht, hmessages⟩ := h
  obtain ⟨t', hturns', halong⟩ := hturns.parallel hitem habreast
  have ht' := habreast.along halong
  obtain ⟨n, ds, rfl, rfl⟩ := halong
  refine ⟨_, hturns', ht'.rest.trans ht, ?_⟩
  have hds : [] ++ ds = es := (Parser.ofTokens_start _).2.1 ▸ hmessages
  rw [List.nil_append] at hds
  rw [← hds]
  rfl

/-- **Insertion into the draw block**: tokens that are read as statements of their own add these
statements and their problems. -/
theorem parse_insert_block {items : List BodyItem} {es : Diagnostics}
    (h : MeetInBlock before after p ds) (hafter : after.any Parser.counts = true)
    (hmid : ReadAs blockStops Parse.bodyItem mid after items es) :
    (∃ f, parse (before ++ after) = .error f ∧ parse (before ++ (mid ++ after)) = .error f) ∨
    ∃ body span span' late, parse (before ++ after) = .ok ⟨(p.add body).drawing span, ds ++ late⟩ ∧
      parse (before ++ (mid ++ after)) =
        .ok ⟨(p.add (items ++ body)).drawing span', ds ++ es ++ late⟩ := by
  obtain ⟨s, hin, rfl, hrest⟩ := h.go
  obtain ⟨s', hin', hmessages', hrest'⟩ := (h.meet (mid ++ after)).go
  have hs₀ := (Parser.ofTokens_start (before ++ after)).2.2
  have hs₀' := (Parser.ofTokens_start (before ++ (mid ++ after))).2.2
  obtain ⟨t, hturns, ht, hmessages⟩ :=
    hmid.behind parallel_bodyItem hafter (hin'.advance hs₀') hrest'
  have hin₁ := hin'.turns hturns
  have hadv₁ := hin₁.advance hs₀'
  rw [← List.append_assoc] at hadv₁
  have habreast := abreast_of_rest hafter (hin.advance hs₀) hadv₁ (ht.trans hrest.symm)
  rcases parse_of_parallel hin.drawing hin₁.drawing (parallel_blockRest habreast _ _ _ _) with
    hfault | ⟨d, d', late, ⟨body, span, span', rfl, rfl⟩, hparse, hparse'⟩
  · exact .inl hfault
  · refine .inr ⟨body, span, span', late, hparse, ?_⟩
    rw [hparse', hmessages, hmessages', Parts.add_add]

/-- **Insertion before the draw block**: tokens that are read as statements of their own add these
statements and their problems. -/
theorem parse_insert_top {items : List TopItem} {es : Diagnostics}
    (h : MeetInTop before after m top ds) (hafter : after.any Parser.counts = true)
    (hmodule : nextKind (mid.filter Parser.counts ++ (Parser.ofTokens after).rest) ≠ .atModule)
    (hmid : ReadAs topStops Parse.topItem mid after items es) :
    (∃ f, parse (before ++ after) = .error f ∧ parse (before ++ (mid ++ after)) = .error f) ∨
    ∃ more name canvas body span span' late,
      parse (before ++ after) =
        .ok ⟨(Parts.mk m (top ++ more) name canvas body).drawing span, ds ++ late⟩ ∧
      parse (before ++ (mid ++ after)) =
        .ok ⟨(Parts.mk m (top ++ (items ++ more)) name canvas body).drawing span',
          ds ++ es ++ late⟩ := by
  obtain ⟨s, hin, rfl, hrest⟩ := h.go hafter
  have hafter' : (mid ++ after).any Parser.counts = true := by rw [List.any_append, hafter, Bool.or_true]
  have hmeet := h.meet hafter' (by rwa [Parser.ofTokens_append hafter])
  obtain ⟨s', hin', hmessages', hrest'⟩ := hmeet.go hafter'
  have hs₀ := (Parser.ofTokens_start (before ++ after)).2.2
  have hs₀' := (Parser.ofTokens_start (before ++ (mid ++ after))).2.2
  obtain ⟨t, hturns, ht, hmessages⟩ := hmid.behind parallel_topItem hafter (hin'.advance hs₀') hrest'
  have hin₁ := hin'.turns hturns
  have hadv₁ := hin₁.advance hs₀'
  rw [← List.append_assoc] at hadv₁
  have habreast := abreast_of_rest hafter (hin.advance hs₀) hadv₁ (ht.trans hrest.symm)
  rcases parse_of_parallel hin.drawing hin₁.drawing (parallel_topRest habreast _ _ _ _ _ _) with
    hfault | ⟨d, d', late, ⟨more, name, canvas, body, span, span', rfl, rfl⟩, hparse, hparse'⟩
  · exact .inl hfault
  · refine .inr ⟨more, name, canvas, body, span, span', late, hparse, ?_⟩
    rw [hparse', hmessages, hmessages', List.append_assoc]

end

/-! ### A point behind a canvas -/

/-- A token of the first line. -/
def inLine (k : Kind) (value : String) (column : Nat) : Token :=
  ⟨k, value, ⟨1, column, column - 1⟩,
    ⟨1, column + value.length, column + value.length - 1⟩⟩

/-- The start of a drawing, up to the end of its canvas: `@draw T {@canvas 1 x 1;`. -/
def openSketch : List Token :=
  [inLine .atDraw "@draw" 1, inLine .identifier "T" 7, inLine .leftBrace Text.leftBrace 9,
    inLine .atCanvas "@canvas" 10, inLine .number "1" 18, inLine .xWord "x" 20,
    inLine .number "1" 22, inLine .semicolon ";" 23]

/-- The text of `openSketch`. -/
def openText : String := "@draw T " ++ Text.leftBrace ++ "@canvas 1 x 1;"

/-- The brace that closes a drawing right behind `openSketch`. -/
def closingBrace : Token := inLine .rightBrace Text.rightBrace 24

/-- The end of a source right behind `openSketch`. -/
def sketchEnd : List Token := [closingBrace, .ending ⟨1, 25, 24⟩]

theorem openSketch_meets (after : List Token) : ∃ p, MeetInBlock openSketch after p [] := by
  have hcanvas : (meetsAtCanvas? openSketch []).map (·.2) = some [] := by decide +kernel
  obtain ⟨⟨p, ds⟩, hmeets, rfl⟩ := Option.map_eq_some_iff.mp hcanvas
  exact ⟨p, (MeetInBlock.of_canvas hmeets).meet after⟩

end FloorPlan
