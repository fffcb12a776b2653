import FloorPlan.Proofs.Compiler.Outcomes
import FloorPlan.Proofs.Drawing.Texts
import FloorPlan.Proofs.Stylesheet.Stops

/-! # Hexadecimal colors from the source to the style sheet

The lexer cuts hexadecimal digits into numbers and identifiers, the grammar puts them together again
and the style sheet takes them apart into channels.  Nothing is lost on the way: the color stops of
the sheet are made of the digits of the source (`compile_hexColor`). -/

namespace FloorPlan

open Drawing

/-! ### The statement -/

/-- A grid statement with a hexadecimal color and an opacity. -/
def gridText (digits opacity : String) : String :=
  "@grid color #" ++ digits ++ " alpha " ++ opacity ++ ";"

/-- The words of such a statement. -/
def gridWords (digits : String) (x : Float) : List Word :=
  [.keyword .atGrid, .keyword .colorWord, .color digits.toList, .keyword .alphaWord, .number x,
    .keyword .semicolon]

section

variable {digits opacity : String} {x : Float}

/-- The statement is read as its words. -/
theorem gridText_lexed (hdigits : ∀ c ∈ digits.toList, c.isHexDigit = true)
    (hopacity : IsNumeral opacity.toList) (hx : Number.readFloat? opacity = some x) :
    LexedAs (gridText digits opacity).toList (gridWords digits x) := by
  have hblank : ∀ c ∈ [' '], Text.isBlank c = true := List.all_eq_true.mp (by decide)
  have hapart : ∀ cs, Apart ([' '] ++ cs) := by
    rintro cs _ ⟨⟩
    decide
  have hkept : digits.toList.filter (!Text.isBlank ·) = digits.toList := by
    refine List.filter_eq_self.mpr fun c hc => ?_
    simp [isBlank_of_isWordChar (isWordChar_of_isHexDigit (hdigits c hc))]
  have hnumber := LexedAs.semicolon.number hopacity hx (by simp)
  have halpha := (hnumber.blanks hblank).keyword (k := .alphaWord) (by decide) (hapart _)
  have hwritten : (Word.color digits.toList).Written ('#' :: digits.toList) := ⟨_, rfl, hkept⟩
  have hproper : (Word.color digits.toList).Proper := hdigits
  have hsharp := (halpha.blanks hblank).word hproper hwritten (hapart _)
  have hcolor := (hsharp.blanks hblank).keyword (k := .colorWord) (by decide) (hapart _)
  have hgrid := (hcolor.blanks hblank).keyword (k := .atGrid) (by decide) (hapart _)
  unfold gridText
  simp only [String.toList_append, List.append_assoc]
  exact hgrid

theorem gridText_closed (hdigits : ∀ c ∈ digits.toList, c.isHexDigit = true)
    (hopacity : IsNumeral opacity.toList) :
    ∃ ds, (gridText digits opacity).toList = ds ++ [';'] ∧ '/' ∉ ds := by
  refine ⟨("@grid color #" ++ digits ++ " alpha " ++ opacity).toList, ?_, ?_⟩
  · unfold gridText
    rw [String.toList_append]
    rfl
  · have hfixed : '/' ∉ "@grid color #".toList ∧ '/' ∉ " alpha ".toList := by decide
    have hdigits' : '/' ∉ digits.toList := fun hs => absurd (hdigits _ hs) (by decide)
    simp only [String.toList_append, List.mem_append, not_or]
    exact ⟨⟨⟨hfixed.1, hdigits'⟩, hfixed.2⟩, slash_notMem_numeral hopacity⟩

/-! ### Reading the statement -/

/-- A grid without a mode and a size. -/
theorem reads_plainGrid :
    Reads Parse.grid (gridWords digits x) anyKind
      (·.eraseSpan = ⟨"grid", 1, 1, baseUnit, some ("#" ++ digits), some x, none⟩) := by
  have hcolor : Leads [.keyword .colorWord, .color digits.toList, .keyword .alphaWord, .number x,
      .keyword .semicolon] anyKind (· = .colorWord) :=
    Opens.leads (opens_keyword rfl : Opens _ (· = .colorWord))
  have hmode : Leads [.keyword .colorWord, .color digits.toList, .keyword .alphaWord, .number x,
      .keyword .semicolon] anyKind (· ∉ Parse.modeWords) := (opens_keyword (by decide)).leads
  have hsize : Reads Parse.gridSize [] (· = .colorWord) (· = (1, 1, baseUnit)) :=
    reads_missing (fun _ hl => by rw [hl]; decide) (fun _ => rfl) rfl
  refine reads_take.andThen fun _ _ => reads_noMode.bind hmode ?_
  rintro _ rfl
  refine hsize.bind hcolor ?_
  rintro _ rfl
  refine (reads_hash (toList_hash digits)).bind ?_ ?_
  · exact (opens_keyword (by decide)).leads
  · rintro _ rfl
    refine (reads_gridAlpha (x := some x)).bind ?_ ?_
    · exact (opens_keyword (by decide)).leads
    · rintro _ rfl
      exact reads_skip.before fun _ _ s hs => span_ok hs _ fun _ => rfl

/-- The statement is read as a grid, and nothing is reported. -/
theorem bodyItem_plainGrid {s : Parser} {ws vs : List Token} (hs : s.Steady)
    (hrest : s.rest = ws ++ vs) (hws : WordTokens (gridWords digits x) ws) :
    ∃ g, Parse.bodyItem s = .ok (some (.grid g)) (s.move ws.length) ∧
      Turns blockStops Parse.bodyItem s [.grid g] (s.move ws.length) ∧
      g.eraseSpan = ⟨"grid", 1, 1, baseUnit, some ("#" ++ digits), some x, none⟩ := by
  obtain ⟨g, hgrid, hg⟩ := reads_plainGrid s ws vs hs hrest hws trivial
  have hkind : s.current.kind = .atGrid := by
    rw [Parser.current_kind, hrest]
    exact nextKind_of_keyword hws vs
  have hitem : Parse.bodyItem s = .ok (some (BodyItem.grid g)) (s.move ws.length) := by
    unfold Parse.bodyItem
    rw [Parse.bind_ok (Parse.get_run s)]
    simp only [hkind]
    rw [Parse.bind_ok hgrid]
    rfl
  have hsees : s.sees blockStops = false := by
    simp [Parser.sees, hkind, blockStops]
  have hlt : (s.move ws.length).rest.length < s.rest.length := by
    obtain ⟨t, ws', rfl, -⟩ := opens_keyword (F := anyKind) trivial ws hws
    rw [Parser.move_rest, hrest, List.length_drop, List.length_append, List.length_cons]
    omega
  exact ⟨g, hitem, .single hsees hitem hlt, hg⟩

end

/-- Where a source has the text of the statement, the parser has its tokens ahead. -/
theorem gridText_ahead {a b digits opacity : String} {x : Float} {tokens : List Token} {s : Parser}
    {t : Token} (hdigits : ∀ c ∈ digits.toList, c.isHexDigit = true)
    (hopacity : IsNumeral opacity.toList) (hx : Number.readFloat? opacity = some x)
    (hsource : tokenize (a ++ gridText digits opacity ++ b) = .ok tokens)
    (hadv : (Parser.ofTokens tokens).Advance s) (hnext : s.rest.head? = some t)
    (hplace : t.start.offset = a.length) :
    s.BeforeWords (gridWords digits x) := by
  have hbefore : s.Before (· = (gridText digits opacity).toList) :=
    ⟨a, gridText digits opacity, b, tokens, t, rfl, hsource, hadv, hnext, hplace⟩
  refine hbefore.words rfl ?_
  rintro _ rfl
  exact ⟨gridText_lexed hdigits hopacity hx, gridText_closed hdigits hopacity⟩

/-! ### The style sheet -/

/-- The style sheet of a drawing whose first grid has a hexadecimal color and an opacity. -/
theorem stops_lowered {d : Drawing} {g : Grid} {gs : List Grid} {digits : String} {x : Float}
    (hgrids : d.grids = g :: gs) (hmode : g.mode = "grid") (hcolor : g.color = some ("#" ++ digits))
    (halpha : g.alpha = some x) (hdigits : ∀ c ∈ digits.toList, c.isHexDigit = true) :
    Css.stops (Stylesheet.render d.lowered) =
      [hexStop digits (Number.compact x), hexStop digits (Number.compact x)] := by
  have hlowered : d.lowered.grids = g.lowered d.table :: gs.map (Grid.lowered d.table) := by
    rw [lowered, hgrids, List.map_cons]
  have hempty : ("#" ++ digits).isEmpty = false := by
    rw [String.isEmpty_eq_false_iff, Ne, ← String.toList_inj, toList_hash]
    simp
  have hstop : Stylesheet.translucent (Stylesheet.gridColor (g.lowered d.table))
      (.real (Stylesheet.gridAlpha (g.lowered d.table))) = hexStop digits (Number.compact x) := by
    have hshown : Stylesheet.gridColor (g.lowered d.table) = "#" ++ digits := by
      simp [Stylesheet.gridColor, Grid.lowered, hcolor, hempty]
    have hopacity : Stylesheet.gridAlpha (g.lowered d.table) = x := by
      simp [Stylesheet.gridAlpha, Grid.lowered, halpha]
    rw [hshown, hopacity, Stylesheet.translucent_hex hdigits]
    rfl
  exact Stylesheet.stops_render hlowered hmode hstop
    (Stylesheet.isStop_hexStop hdigits (.compact x))

/-- **Hexadecimal colors**: where the first grid of a drawing is written with hexadecimal digits and
an opacity, it is read without a problem and has the digits as they are.  Every style sheet of the
drawing has two color stops, which are made of these digits and this opacity. -/
theorem compile_hexColor {a b digits opacity : String} {tokens : List Token} {p : Parts} {s : Parser}
    {t : Token} (hdigits : ∀ c ∈ digits.toList, c.isHexDigit = true)
    (hopacity : IsNumeral opacity.toList)
    (hsource : tokenize (a ++ gridText digits opacity ++ b) = .ok tokens)
    (hin : InBlock (Parser.ofTokens tokens) p s) (hfirst : p.body.filterMap BodyItem.grid? = [])
    (hnext : s.rest.head? = some t) (hplace : t.start.offset = a.length) :
    ∃ x g s' parsed gs, Number.readFloat? opacity = some x ∧
      Parse.bodyItem s = .ok (some (.grid g)) s' ∧ s'.messages = s.messages ∧
      g.color = some ("#" ++ digits) ∧ g.alpha = some x ∧
      parse tokens = .ok parsed ∧ parsed.drawing.grids = g :: gs ∧
      ∀ (c : Compiler) (verbose : Bool),
        (∃ cause, parsed.drawing.fault? = some cause ∧
          (c.compile verbose (a ++ gridText digits opacity ++ b)).1.result =
            .error (.unbounded cause)) ∨
        ∃ out report, (c.compile verbose (a ++ gridText digits opacity ++ b)).1.result =
            .ok ⟨some out, report⟩ ∧
          Css.stops out.css =
            [hexStop digits (Number.compact x), hexStop digits (Number.compact x)] := by
  obtain ⟨x, hx⟩ := Option.isSome_iff_exists.mp (Number.readFloat?_isSome hopacity)
  obtain ⟨parsed, hparse⟩ := parse_lexed hsource
  have hshift := (Parser.ofTokens_start tokens).2.2
  obtain ⟨hsteady, ws, vs, hrest, hws⟩ :=
    gridText_ahead hdigits hopacity hx hsource (hin.advance hshift) hnext hplace
  obtain ⟨g, hitem, hturns, hg⟩ := bodyItem_plainGrid hsteady hrest hws
  simp only [Grid.eraseSpan, Grid.mk.injEq] at hg
  obtain ⟨hmode, -, -, -, hcolor, halpha, -⟩ := hg
  obtain ⟨body, span, hdrawing⟩ := (hin.turns hturns).drawing_eq hparse
  have hgrids : parsed.drawing.grids = g :: body.filterMap BodyItem.grid? := by
    rw [hdrawing]
    simp [Parts.drawing, Parts.add, hfirst, BodyItem.grid?, List.filterMap_cons]
  refine ⟨x, g, _, parsed, _, hx, hitem, rfl, hcolor, halpha, hparse, hgrids, fun c verbose => ?_⟩
  rw [Compiler.compile_parsed hsource hparse, Parsed.outcome]
  cases hfault : parsed.drawing.fault? with
  | some cause => exact .inl ⟨cause, rfl, rfl⟩
  | none =>
      refine .inr ⟨_, _, rfl, ?_⟩
      rw [Compiler.outputs, stops_lowered hgrids hmode hcolor halpha hdigits]

/-- The tokens of `@grid color #0a1E5f alpha 0.5;` behind `openSketch`, and the end of the source. -/
def tintedGrid : List Token :=
  [inLine .atGrid "@grid" 24, inLine .colorWord "color" 30, inLine .hash "#" 36,
    inLine .number "0" 37, inLine .identifier "a1E5f" 38, inLine .alphaWord "alpha" 44,
    inLine .number "0.5" 50, inLine .semicolon ";" 53, inLine .rightBrace Text.rightBrace 54,
    .ending ⟨1, 55, 54⟩]

theorem compile_hexColor_sketch : ∃ p s out report,
    tokenize (openText ++ gridText "0a1E5f" "0.5" ++ Text.rightBrace) =
        .ok (openSketch ++ tintedGrid) ∧
      InBlock (Parser.ofTokens (openSketch ++ tintedGrid)) p s ∧
      p.body.filterMap BodyItem.grid? = [] ∧ s.rest.head? = some (inLine .atGrid "@grid" 24) ∧
      ((Compiler.ofName "").compile false
        (openText ++ gridText "0a1E5f" "0.5" ++ Text.rightBrace)).1.result =
          .ok ⟨some out, report⟩ ∧
      Css.stops out.css = ["rgba(10, 30, 95, 0.5)", "rgba(10, 30, 95, 0.5)"] := by
  have hsource : (tokenize (openText ++ gridText "0a1E5f" "0.5" ++ Text.rightBrace)).toOption =
      some (openSketch ++ tintedGrid) := by decide +kernel
  have hcanvas : (meetsAtCanvas? openSketch tintedGrid).map (fun r => (r.1.body.isEmpty, r.2)) =
      some (true, []) := by decide +kernel
  have hfault : fromSource? (fun p => p.drawing.fault?)
      (openText ++ gridText "0a1E5f" "0.5" ++ Text.rightBrace) = some none := by
    decide +kernel
  have hopacity : (Number.readFloat? "0.5").map Number.compact = some "0.5" := by decide +kernel
  have hstop : hexStop "0a1E5f" "0.5" = "rgba(10, 30, 95, 0.5)" := by decide +kernel
  have hdigits : ∀ c ∈ "0a1E5f".toList, c.isHexDigit = true := List.all_eq_true.mp (by decide)
  have hnumeral : IsNumeral "0.5".toList := by
    have hpoint : IsNumeral (['0'] ++ '.' :: ['5']) :=
      .point (by decide) (List.all_eq_true.mp (by decide)) (by decide)
        (List.all_eq_true.mp (by decide))
    exact hpoint
  obtain ⟨⟨p, ds⟩, hmeets, hp⟩ := Option.map_eq_some_iff.mp hcanvas
  obtain ⟨s, hin, -, hrest⟩ := (MeetInBlock.of_canvas hmeets).go
  have hbody : p.body.filterMap BodyItem.grid? = [] := by
    rw [List.isEmpty_iff.mp (congrArg Prod.fst hp)]
    rfl
  have hnext : s.rest.head? = some (inLine .atGrid "@grid" 24) := by
    rw [hrest]
    decide +kernel
  have htokens := tokenize_of_toOption hsource
  obtain ⟨x, -, -, parsed, -, hx, -, -, -, -, hparse, -, hcss⟩ :=
    compile_hexColor hdigits hnumeral htokens hin hbody hnext (by decide)
  obtain ⟨_, _, htokens', hparse', hnone⟩ := fromSource?_eq_some hfault
  cases htokens.symm.trans htokens'
  cases hparse.symm.trans hparse'
  rw [hx, Option.map_some, Option.some_inj] at hopacity
  rcases hcss (.ofName "") false with ⟨cause, hcause, -⟩ | ⟨out, report, hresult, hstops⟩
  · rw [hnone] at hcause
    cases hcause
  · rw [hopacity, hstop] at hstops
    exact ⟨p, s, out, report, htokens, hin, hbody, hnext, hresult, hstops⟩

end FloorPlan
