import FloorPlan.Compiler
import FloorPlan.Preview
import FloorPlan.Proofs.Drawing.Layout
import FloorPlan.Proofs.Model.Warnings

/-! # Outcomes of a compilation

The outcome of a source does not depend on the run: `Parsed.outcome` gives it from what the parser
reads.  A source that can be lexed and parsed fails in one way only, by a repeat pattern without a
number of copies (`compile_outcome`), and the outcome depends on the kinds and values of its tokens,
not on their places (`compile_layout`). -/

namespace FloorPlan

open Drawing

/-! ### Outcomes without a run -/

/-- The report on problems and a model. -/
def Report.on (messages : Diagnostics) (model : Option Model) : Report :=
  Compiler.report { Compiler.ofName "" with model, messages }

/-- The problems of a parsed source: those of the parser, then the warnings of the drawing. -/
def Parsed.problems (p : Parsed) : Diagnostics :=
  p.messages ++ p.drawing.warnings.map Warning.diagnostic

/-- What comes of a parsed source. -/
def Parsed.outcome (p : Parsed) : Except Fault Result :=
  match p.drawing.fault? with
  | some cause => .error (.unbounded cause)
  | none => .ok
    { outputs := some (Compiler.outputs p.drawing.lowered)
      report := .on p.problems (some p.drawing.lowered) }

namespace Compiler

variable {source : String} {tokens : List Token} {parsed : Parsed}

/-- A source that cannot be lexed has a report only. -/
theorem compile_lexError {e : LexError} (h : tokenize source = .error e) (c : Compiler)
    (verbose : Bool) : (c.compile verbose source).1.result =
      .ok ⟨none, .on [.error .lexical e.message (some ⟨e.position, e.position⟩) none] none⟩ := by
  unfold compile
  rw [h]
  rfl

theorem compile_parsed (htokens : tokenize source = .ok tokens) (hparse : parse tokens = .ok parsed)
    (c : Compiler) (verbose : Bool) : (c.compile verbose source).1.result = parsed.outcome := by
  obtain ⟨top, body, hstatements, hstarts, -⟩ := parse_starts htokens hparse
  unfold compile Parsed.outcome
  rw [htokens]
  simp only
  rw [hparse]
  simp only
  cases hfault : parsed.drawing.fault? with
  | some cause =>
      obtain ⟨s', hs'⟩ := Lower.drawing_fault hfault { Lowering.empty with messages := parsed.messages }
      rw [hs']
  | none =>
      obtain ⟨settled, seen, hafter⟩ := Lowering.after_eq
        (s := { Lowering.empty with messages := parsed.messages })
        (hstatements.declarations_nodup hstarts) rfl
      rw [Lower.drawing_run hfault, hafter]
      rfl

end Compiler

/-- **How a compilation ends**: with a report on an invalid source exactly if the source cannot be
lexed, and otherwise with all outputs, unless the line of a repeat pattern with positive spacing is
infinite or undefined in its steps. -/
theorem compile_outcome (c : Compiler) (verbose : Bool) (source : String) :
    match tokenize source with
    | .error _ => ∃ report : Report, report.isValid = false ∧
        (c.compile verbose source).1.result = .ok ⟨none, report⟩
    | .ok tokens => ∃ parsed, parse tokens = .ok parsed ∧
        match parsed.drawing.fault? with
        | none => ∃ outputs report, (c.compile verbose source).1.result = .ok ⟨some outputs, report⟩
        | some cause => (c.compile verbose source).1.result = .error (.unbounded cause) := by
  cases htokens : tokenize source with
  | error e => exact ⟨_, rfl, Compiler.compile_lexError htokens c verbose⟩
  | ok tokens =>
      obtain ⟨parsed, hparse⟩ := parse_lexed htokens
      refine ⟨parsed, hparse, ?_⟩
      rw [Compiler.compile_parsed htokens hparse]
      unfold Parsed.outcome
      cases parsed.drawing.fault? with
      | none => exact ⟨_, _, rfl⟩
      | some cause => rfl

theorem tokenize_ofList (cs : List Char) :
    tokenize (String.ofList cs) = (Cursor.mk [] cs .start).tokens.1 := by
  unfold tokenize Cursor.ofSource
  rw [String.toList_ofList]

/-- A row of lamps whose line is longer than the greatest number, in steps of its spacing. -/
def farLamps : String :=
  String.ofList ("@draw T".toList ++ '{' :: "@canvas 1 x 1;repeat Lamp from(0,0)to(1".toList ++
    List.replicate 154 '0' ++ ",0)space 0.".toList ++ List.replicate 154 '0' ++ ['1', ';', '}'])

theorem farLamps_fault :
    fromSource? (fun p => p.drawing.fault?) farLamps = some (some .infinite) := by
  unfold farLamps fromSource?
  rw [tokenize_ofList]
  decide +kernel

/-- Not every compilation ends with a result. -/
theorem not_compile_returns :
    ¬ ∀ (c : Compiler) (verbose : Bool) (source : String),
      ∃ result, (c.compile verbose source).1.result = .ok result := by
  intro hall
  obtain ⟨tokens, parsed, htokens, hparse, hfault⟩ := fromSource?_eq_some farLamps_fault
  obtain ⟨result, hresult⟩ := hall (.ofName "") false farLamps
  rw [Compiler.compile_parsed htokens hparse, Parsed.outcome, hfault] at hresult
  nomatch hresult

/-! ### Layout -/

theorem Report.on_eraseSpan (messages : Diagnostics) (model : Option Model) :
    Report.on (messages.map Diagnostic.eraseSpan) model = Report.on messages model := by
  have hseverity : ∀ d : Diagnostic, d.eraseSpan.isError = d.isError := fun _ => rfl
  have htext : ∀ d : Diagnostic, d.eraseSpan.message = d.message := fun _ => rfl
  unfold Report.on Compiler.report
  simp [Diagnostics.hasErrors, Diagnostics.errors, Diagnostics.warnings, List.filter_map,
    Function.comp_def, hseverity, htext]

theorem Drawing.core_congr {d d' : Drawing} (h : d.eraseSpans = d'.eraseSpans) :
    d.core = d'.core := by
  unfold core
  rw [h]

/-- The warnings as problems, without places, depend on the core of the drawing. -/
theorem Parsed.problems_eraseSpan (p : Parsed) : p.problems.map Diagnostic.eraseSpan =
    p.messages.map Diagnostic.eraseSpan ++ p.drawing.core.warnings.map Warning.diagnostic := by
  unfold problems
  rw [Drawing.warnings_core, List.map_append, List.map_map, List.map_map]
  rfl

/-- What comes of a parsed source depends on the core of the drawing and on the problems found, not
on places. -/
theorem Parsed.outcome_core {p p' : Parsed} (hcore : p.drawing.core = p'.drawing.core)
    (hmessages : p.messages.map Diagnostic.eraseSpan = p'.messages.map Diagnostic.eraseSpan) :
    p.outcome = p'.outcome := by
  have hfault : p.drawing.fault? = p'.drawing.fault? := by
    rw [← Drawing.fault?_core, hcore, Drawing.fault?_core]
  have hlowered : p.drawing.lowered = p'.drawing.lowered := by
    rw [← Drawing.lowered_core, hcore, Drawing.lowered_core]
  have hreport : ∀ model, Report.on p.problems model = Report.on p'.problems model := by
    intro model
    rw [← Report.on_eraseSpan, problems_eraseSpan, hmessages, hcore, ← problems_eraseSpan,
      Report.on_eraseSpan]
  unfold outcome
  rw [hfault, hlowered, hreport]

theorem Parsed.outcome_congr {p p' : Parsed}
    (hdrawing : p.drawing.eraseSpans = p'.drawing.eraseSpans)
    (hmessages : p.messages.map Diagnostic.eraseSpan = p'.messages.map Diagnostic.eraseSpan) :
    p.outcome = p'.outcome :=
  outcome_core (Drawing.core_congr hdrawing) hmessages

/-- The picture that goes with a result. -/
def Result.picture? (r : Result) : Option String := r.outputs.map (Preview.render ·.model)

/-- **Layout does not matter**: sources whose tokens have the same kinds and values end in the same
way, with the same outputs, picture and report. -/
theorem compile_layout {source source' : String} {tokens tokens' : List Token}
    (htokens : tokenize source = .ok tokens) (htokens' : tokenize source' = .ok tokens')
    (hpairs : tokens.map Token.pair = tokens'.map Token.pair) (c c' : Compiler)
    (verbose verbose' : Bool) :
    (c.compile verbose source).1.result = (c'.compile verbose' source').1.result ∧
      (c.compile verbose source).1.result.map Result.picture? =
        (c'.compile verbose' source').1.result.map Result.picture? := by
  obtain ⟨parsed, parsed', hparse, hparse', hdrawing, hmessages⟩ :=
    parse_agree htokens htokens' hpairs
  rw [Compiler.compile_parsed htokens hparse, Compiler.compile_parsed htokens' hparse',
    Parsed.outcome_congr hdrawing hmessages]
  exact ⟨rfl, rfl⟩

def loft : String :=
  "@draw L" ++ Text.braced ("@canvas 2k x 2k;room a at(0k,0)size(1,1)" ++
    Text.braced "label:'b';")

/-- The loft with a comment, other blanks and another spelling of its label. -/
def spaciousLoft : String :=
  "@draw L" ++ Text.braced ("/*top*/@canvas 2k x 2k;\n room a at (0k,0) size (1,1) " ++
    Text.braced "label: \"\\b\";" ++ "\n")

theorem compile_layout_loft : ∃ tokens tokens',
    tokenize loft = .ok tokens ∧ tokenize spaciousLoft = .ok tokens' ∧
      tokens.map Token.pair = tokens'.map Token.pair ∧
      ((Compiler.ofName "a").compile false loft).1.result =
        ((Compiler.ofName "b").compile true spaciousLoft).1.result := by
  have hpairs : ((tokenize loft).toOption.map (·.map Token.pair)).isSome = true ∧
      (tokenize loft).toOption.map (·.map Token.pair) =
        (tokenize spaciousLoft).toOption.map (·.map Token.pair) := by
    decide +kernel
  cases htokens : tokenize loft with
  | error e => simp [htokens, Except.toOption] at hpairs
  | ok tokens =>
      cases htokens' : tokenize spaciousLoft with
      | error e => simp [htokens, htokens', Except.toOption] at hpairs
      | ok tokens' =>
          have hsame : tokens.map Token.pair = tokens'.map Token.pair := by
            simpa [htokens, htokens', Except.toOption] using hpairs
          exact ⟨tokens, tokens', rfl, rfl, hsame,
            (compile_layout htokens htokens' hsame _ _ _ _).1⟩

end FloorPlan
