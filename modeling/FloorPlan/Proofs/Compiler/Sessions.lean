import FloorPlan.Proofs.Compiler.Outcomes

/-! # Sessions of a compiler

A compiler takes one source after another.  A run keeps nothing of what the compiler holds from
earlier ones but its name, what it gives does not depend on whether it has to give an account
(`compile_eq`), and its report is on what the compiler holds afterwards (`compile_result`).  So
every run of a session is like the first run of a new compiler, whatever came before it, faults
included (`session_fresh`). -/

namespace FloorPlan

/-- The report tells what the compiler holds: its problems by severity, and the canvas and the sizes
of its model, which are nothing and zero without a model. -/
structure Report.Describes (r : Report) (c : Compiler) : Prop where
  valid : r.isValid = true ↔ r.errors = []
  errors : r.errors = (c.messages.filter fun d => d.severity = .error).map (·.message)
  warnings : r.warnings = (c.messages.filter fun d => d.severity = .warning).map (·.message)
  model : match c.model with
    | none => r.canvas = none ∧ r.rooms = 0 ∧ r.walls = 0 ∧ r.doors = 0 ∧ r.grids = 0
    | some m => r.canvas = some m.canvas ∧ r.rooms = m.rooms.length ∧
        r.walls = m.walls.length ∧ r.doors = m.doors.length ∧ r.grids = m.grids.length

namespace Compiler

theorem report_describes (c : Compiler) : c.report.Describes c where
  valid := by
    simp [report, Diagnostics.hasErrors, Diagnostics.errors]
  errors := rfl
  warnings := by
    have hwarning : ∀ d : Diagnostic, (!d.isError) = decide (d.severity = .warning) := by
      intro d
      unfold Diagnostic.isError
      cases d.severity <;> rfl
    simp only [report, Diagnostics.warnings, hwarning]
  model := by
    unfold report
    cases c.model with
    | none => exact ⟨rfl, rfl, rfl, rfl, rfl⟩
    | some m => exact ⟨rfl, rfl, rfl, rfl, rfl⟩

/-- What a run gives does not depend on the compiler, nor on whether it has to give an account, and
of the compiler it keeps the name only. -/
theorem compile_eq (c c' : Compiler) (verbose verbose' : Bool) (source : String) :
    (c.compile verbose source).1.result = (c'.compile verbose' source).1.result ∧
      (c.compile verbose source).2 = { (c'.compile verbose' source).2 with name := c.name } := by
  unfold compile
  cases tokenize source with
  | error e => exact ⟨rfl, rfl⟩
  | ok tokens =>
      dsimp only
      cases parse tokens with
      | error fault => exact ⟨rfl, rfl⟩
      | ok parsed =>
          dsimp only
          cases Lower.drawing parsed.drawing
              { Lowering.empty with messages := parsed.messages } with
          | error fault s => exact ⟨rfl, rfl⟩
          | ok model s => exact ⟨rfl, rfl⟩

/-- The report of a run is on the state that it leaves, and the outputs are those of the model
there. -/
theorem compile_result {c : Compiler} {verbose : Bool} {source : String} {r : Result}
    (h : (c.compile verbose source).1.result = .ok r) :
    r = ⟨(c.compile verbose source).2.model.map outputs, (c.compile verbose source).2.report⟩ := by
  unfold compile at h ⊢
  cases htokens : tokenize source with
  | error e =>
      rw [htokens] at h
      cases h
      rfl
  | ok tokens =>
      rw [htokens] at h
      dsimp only at h ⊢
      cases hparse : parse tokens with
      | error fault => rw [hparse] at h; cases h
      | ok parsed =>
          rw [hparse] at h
          dsimp only at h ⊢
          cases hlower : Lower.drawing parsed.drawing
              { Lowering.empty with messages := parsed.messages } with
          | error fault s => rw [hlower] at h; cases h
          | ok model s =>
              rw [hlower] at h
              cases h
              rfl

theorem compile_name (c : Compiler) (verbose : Bool) (source : String) :
    (c.compile verbose source).2.name = c.name := by
  rw [(compile_eq c c verbose verbose source).2]

/-- The runs of a compiler on one source after another, with or without an account, each with the
state that it leaves. -/
def session (c : Compiler) : List (Bool × String) → List (Run × Compiler)
  | [] => []
  | (verbose, source) :: steps =>
    c.compile verbose source :: session (c.compile verbose source).2 steps

/-- A run of a session is one by a compiler of the same name. -/
theorem session_getElem? (c : Compiler) (steps : List (Bool × String)) (k : Nat) :
    ∃ c' : Compiler, c'.name = c.name ∧
      (c.session steps)[k]? = steps[k]?.map fun step => c'.compile step.1 step.2 := by
  induction steps generalizing c k with
  | nil => exact ⟨c, rfl, by simp [session]⟩
  | cons step steps ih =>
      cases k with
      | zero => exact ⟨c, rfl, by simp [session]⟩
      | succ k =>
          obtain ⟨c', hname, hrun⟩ := ih (c.compile step.1 step.2).2 k
          refine ⟨c', hname.trans (compile_name c step.1 step.2), ?_⟩
          simpa [session] using hrun

end Compiler

/-- **Nothing is carried over**: each run of a session has the result of a new compiler of the same
name on that source alone, with or without an account, and leaves the same state; and a report
describes the state that the run leaves. -/
theorem session_fresh (c : Compiler) {steps : List (Bool × String)} {k : Nat} {verbose : Bool}
    {source : String} (h : steps[k]? = some (verbose, source)) :
    ∃ run state, (c.session steps)[k]? = some (run, state) ∧
      (∀ verbose', run.result = ((Compiler.ofName c.name).compile verbose' source).1.result ∧
        state = ((Compiler.ofName c.name).compile verbose' source).2) ∧
      ∀ result, run.result = .ok result →
        result.report.Describes state ∧ result.outputs.map (·.model) = state.model := by
  obtain ⟨c', hname, hstep⟩ := c.session_getElem? steps k
  rw [h, Option.map_some] at hstep
  refine ⟨(c'.compile verbose source).1, (c'.compile verbose source).2, hstep,
    fun verbose' => ?_, fun r hr => ?_⟩
  · obtain ⟨hresult, hstate⟩ :=
      Compiler.compile_eq (.ofName c.name) c' verbose' verbose source
    refine ⟨hresult.symm, ?_⟩
    rw [hstate, Compiler.ofName, ← hname, ← Compiler.compile_name c' verbose source]
  · rw [Compiler.compile_result hr]
    refine ⟨Compiler.report_describes _, ?_⟩
    cases (c'.compile verbose source).2.model <;> rfl

/-- Sources of which the first cannot be lexed and the second faults. -/
def troubledSteps : List (Bool × String) := [(true, "?"), (false, farLamps), (true, loft)]

theorem session_fresh_troubled : troubledSteps[2]? = some (true, loft) ∧
    ∃ run state, ((Compiler.ofName "a").session troubledSteps)[2]? = some (run, state) ∧
      run.result = ((Compiler.ofName "a").compile false loft).1.result ∧
      state = ((Compiler.ofName "a").compile false loft).2 := by
  have hstep : troubledSteps[2]? = some (true, loft) := rfl
  obtain ⟨run, state, hrun, hfresh, -⟩ := session_fresh (.ofName "a") hstep
  exact ⟨hstep, run, state, hrun, hfresh false⟩

end FloorPlan
