import FloorPlan.Proofs.Compiler.Outcomes
import FloorPlan.Proofs.Model.CopyIds
import FloorPlan.Proofs.Stylesheet.Blocks
import FloorPlan.Proofs.Preview.Picture

/-! # No source changes the structure of the outputs

Labels and identifiers are arbitrary texts, and the outputs escape them.  The mode and the color of
a grid are not escaped; they cannot do harm because of what the lexer and the grammar let through
(`compile_grids`).  So every style sheet has its fixed rules, and every preview shows the parts of
the model and nothing else (`compile_structure`). -/

namespace FloorPlan

variable {c : Compiler} {verbose : Bool} {source : String} {out : Outputs} {report : Report}

/-- The outputs of a source are made from the model of its drawing. -/
theorem Compiler.outputs_of_compile
    (h : (c.compile verbose source).1.result = .ok ⟨some out, report⟩) :
    ∃ tokens parsed, tokenize source = .ok tokens ∧ parse tokens = .ok parsed ∧
      out = Compiler.outputs parsed.drawing.lowered := by
  cases htokens : tokenize source with
  | error e =>
      rw [Compiler.compile_lexError htokens] at h
      cases h
  | ok tokens =>
      obtain ⟨parsed, hparse⟩ := parse_lexed htokens
      refine ⟨tokens, parsed, rfl, hparse, ?_⟩
      rw [Compiler.compile_parsed htokens hparse, Parsed.outcome] at h
      cases hfault : parsed.drawing.fault? with
      | some cause => rw [hfault] at h; cases h
      | none =>
          rw [hfault] at h
          cases h
          rfl

/-- Lowering keeps the modes and colors of the grids. -/
theorem compile_grids (h : (c.compile verbose source).1.result = .ok ⟨some out, report⟩) :
    ∀ g ∈ out.model.grids, IsGridStyle g.mode g.color := by
  obtain ⟨tokens, parsed, htokens, hparse, rfl⟩ := Compiler.outputs_of_compile h
  intro g hg
  obtain ⟨g', hg', rfl⟩ := List.mem_map.mp hg
  exact parse_grids htokens hparse g' hg'

theorem toNat_lt_of_isAlpha {c : Char} (h : c.isAlpha = true) : c.toNat < 128 := by
  simp only [Char.isAlpha, Char.isUpper, Char.isLower, Bool.or_eq_true, Bool.and_eq_true,
    decide_eq_true_eq] at h
  rcases h with h | h
  · exact (UInt32.le_iff_toNat_le.mp h.2).trans_lt (by decide)
  · exact (UInt32.le_iff_toNat_le.mp h.2).trans_lt (by decide)

theorem IsPlainName.isAscii {name : String} (h : IsPlainName name) : IsAscii name := by
  intro c hc
  have hchar := h c hc
  simp only [isColorChar, isWordChar, isWordStart, Bool.or_eq_true, decide_eq_true_eq] at hchar
  rcases hchar with (((((halpha | rfl) | hdigit) | rfl) | rfl) | rfl) | rfl
  · exact toNat_lt_of_isAlpha halpha
  · decide
  · exact toNat_lt_of_isDigit hdigit
  · decide
  · decide
  · decide
  · decide

theorem IsAscii.isText {name : String} (h : IsAscii name) : Xml.IsText name := by
  intro c hc
  have hbeyond : ∀ d ∈ ['\ufffe', '\uffff'], ¬ d.toNat < 128 := by simp
  exact decide_eq_true fun hmem => hbeyond c hmem (h c hc)

/-- Whatever the source is, the identifiers of the rooms have no characters beyond ASCII. -/
theorem compile_ids (h : (c.compile verbose source).1.result = .ok ⟨some out, report⟩) :
    ∀ r ∈ out.model.rooms, IsAscii r.id := by
  obtain ⟨tokens, parsed, htokens, hparse, rfl⟩ := Compiler.outputs_of_compile h
  obtain ⟨hrooms, hrepeats⟩ := parse_names htokens hparse
  intro r hr
  obtain ⟨r', hr', rfl⟩ := List.mem_map.mp hr
  exact Drawing.isAscii_of_mem_allRooms (fun r hr => (hrooms r hr).isAscii)
    (fun r hr => (hrepeats r hr).isAscii) hr'

/-- **The structure of the outputs**: the braces of the style sheet pair up and do not nest, and
there is one rule more if there is a grid.  The preview is read as one tree that shows the rooms,
the walls, the doors and the labels of the model, in order; only a label with a code point that is
no character makes it unreadable. -/
theorem compile_structure (h : (c.compile verbose source).1.result = .ok ⟨some out, report⟩) :
    (Css.Flat (Stylesheet.render out.model) ∧ Css.rules? (Stylesheet.render out.model) =
      some (if out.model.grids.isEmpty then 7 else 8)) ∧
    ((∀ label ∈ Preview.labels out.model, Xml.IsText label) →
      ∃ svg, Xml.read? (Preview.render out.model) = some svg ∧ Preview.Depicts out.model svg) ∧
    ((∃ label ∈ Preview.labels out.model, ¬ Xml.IsText label) →
      Xml.read? (Preview.render out.model) = none) := by
  have hgrids := compile_grids h
  have hrules := Stylesheet.rules?_render hgrids
  refine ⟨⟨(Css.rules?_flat hrules).1, hrules⟩, ?_, ?_⟩
  · intro hlabels
    have hread := Preview.read?_render (fun g hg => (hgrids g hg).inert)
      (fun r hr => (compile_ids h r hr).isText) hlabels
    exact ⟨Preview.picture out.model, hread, Preview.depicts_picture out.model⟩
  · rintro ⟨label, hlabel, htext⟩
    exact Preview.read?_render_eq_none hlabel htext

/-! ### Labels -/

/-- The fault of a drawing, whether it has no grid, and the labels that its preview shows. -/
def Parsed.shown (p : Parsed) : Option Number.Unbounded × Bool × List String :=
  (p.drawing.fault?, p.drawing.lowered.grids.isEmpty, Preview.labels p.drawing.lowered)

/-- What a source without faults compiles to, with the labels that its preview shows. -/
theorem exists_outputs {source : String} {noGrid : Bool} {labels : List String}
    (h : fromSource? Parsed.shown source = some (none, noGrid, labels)) :
    ∃ out report, ((Compiler.ofName "").compile false source).1.result = .ok ⟨some out, report⟩ ∧
      out.model.grids.isEmpty = noGrid ∧
      Preview.labels out.model = labels := by
  obtain ⟨tokens, parsed, htokens, hparse, hall⟩ := fromSource?_eq_some h
  simp only [Parsed.shown, Prod.mk.injEq] at hall
  obtain ⟨hfault, hgrids, hlabels⟩ := hall
  refine ⟨Compiler.outputs parsed.drawing.lowered,
    .on parsed.problems (some parsed.drawing.lowered), ?_, hgrids, hlabels⟩
  rw [Compiler.compile_parsed htokens hparse, Parsed.outcome, hfault]

/-- A drawing whose label closes its element and has a line end, and whose grid has a color. -/
def stall : String :=
  "@draw S" ++ Text.braced ("@canvas 2 x 2;@grid dotted color #f00;" ++
    "room a at(0,0)size(1,1)" ++ Text.braced "label:'</text>&\\r\\n';")

theorem compile_structure_stall : ∃ out report,
    ((Compiler.ofName "").compile false stall).1.result = .ok ⟨some out, report⟩ ∧
      Css.rules? (Stylesheet.render out.model) = some 8 ∧
      ∃ svg, Xml.read? (Preview.render out.model) = some svg ∧
        (svg.named "text").map Xml.content = ["</text>&\n".toList.map Xml.char] := by
  have hstall : fromSource? Parsed.shown stall = some (none, false, ["</text>&\r\n"]) := by
    decide +kernel
  obtain ⟨out, report, hresult, hgrids, hlabels⟩ := exists_outputs hstall
  obtain ⟨⟨-, hrules⟩, hreads, -⟩ := compile_structure hresult
  have htext : Xml.IsText "</text>&\r\n" := List.all_eq_true.mp (by decide)
  rw [hlabels, List.forall_mem_singleton] at hreads
  obtain ⟨svg, hread, hdepicts⟩ := hreads htext
  refine ⟨out, report, hresult, ?_, svg, hread, ?_⟩
  · rw [hrules, hgrids]
    rfl
  · rw [hdepicts.labels, hlabels]
    rfl

/-- A drawing whose label holds a carriage return. -/
def returning : String :=
  "@draw S" ++ Text.braced ("@canvas 1 x 1;room a at(0,0)size(1,1)" ++
    Text.braced "label:'a\\rb';")

/-- A drawing whose label holds a code point that is no character. -/
def unmarked : String :=
  "@draw S" ++ Text.braced ("@canvas 1 x 1;room a at(0,0)size(1,1)" ++
    Text.braced "label:'a\uffffb';")

/-- Labels are not read back as they are: a carriage return comes back as a newline, and a code
point that is no character makes the preview unreadable. -/
theorem not_labels_verbatim :
    (∃ out report, ((Compiler.ofName "").compile false returning).1.result =
        .ok ⟨some out, report⟩ ∧
      Preview.labels out.model = ["a\rb"] ∧
      ∃ svg, Xml.read? (Preview.render out.model) = some svg ∧
        (svg.named "text").map Xml.content = ["a\nb".toList.map Xml.char]) ∧
    ∃ out report, ((Compiler.ofName "").compile false unmarked).1.result =
        .ok ⟨some out, report⟩ ∧
      Preview.labels out.model = ["a\uffffb"] ∧
      Xml.read? (Preview.render out.model) = none := by
  have hreturning : fromSource? Parsed.shown returning = some (none, true, ["a\rb"]) := by
    decide +kernel
  have hunmarked : fromSource? Parsed.shown unmarked = some (none, true, ["a\uffffb"]) := by
    decide +kernel
  have htext : Xml.IsText "a\rb" := List.all_eq_true.mp (by decide)
  have hbad : ¬ Xml.IsText "a\uffffb" := fun h => absurd (h '\uffff' (by decide)) (by decide)
  constructor
  · obtain ⟨out, report, hresult, -, hlabels⟩ := exists_outputs hreturning
    have hread := Preview.read?_render (fun g hg => (compile_grids hresult g hg).inert)
      (fun r hr => (compile_ids hresult r hr).isText)
    rw [hlabels, List.forall_mem_singleton] at hread
    refine ⟨out, report, hresult, hlabels, _, hread htext, ?_⟩
    rw [Preview.depicts_labels, hlabels]
    rfl
  · obtain ⟨out, report, hresult, -, hlabels⟩ := exists_outputs hunmarked
    have hlabel : "a\uffffb" ∈ Preview.labels out.model := hlabels ▸ List.mem_singleton_self _
    exact ⟨out, report, hresult, hlabels, Preview.read?_render_eq_none hlabel hbad⟩

end FloorPlan
