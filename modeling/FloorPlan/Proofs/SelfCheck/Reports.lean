import FloorPlan.SelfCheck
import FloorPlan.Proofs.Number.Packing

/-! # What stands in a report

A case of the self check expects values under names of a report.  Values are equal by a relation of
its own (`Value.Equals`), in which numbers are compared as rational numbers, and a report has its
values by another one (`Stands`).  The check of one entry decides whether what stands in the report
is equal to what is expected (`holds_iff`). -/

namespace FloorPlan.SelfCheck

/-! ### Equal values -/

namespace Value

/-- The number that a value is.  Truth values are zero and one. -/
def number? : Value → Option ℚ
  | .flag b => some (if b then 1 else 0)
  | .whole n => some n
  | .real x => Number.value? x
  | _ => none

/-- Equal values.  Values of different kinds are equal if they are one number, and an infinite float
is equal to itself.  Tuples and lists are equal element by element, but no tuple is equal to a list. -/
inductive Equals : Value → Value → Prop
  | absent : Equals .absent .absent
  | number {v w : Value} {q : ℚ} (hv : v.number? = some q) (hw : w.number? = some q) : Equals v w
  | infinite {x : Float} (h : x.isInf = true) : Equals (.real x) (.real x)
  | text (s : String) : Equals (.text s) (.text s)
  | tuple {vs ws : List Value} (h : List.Forall₂ Equals vs ws) : Equals (.tuple vs) (.tuple ws)
  | list {vs ws : List Value} (h : List.Forall₂ Equals vs ws) : Equals (.list vs) (.list ws)

variable {v w : Value}

theorem whole?_eq_some_iff {n : Int} : v.whole? = some n ↔ v.number? = some (n : ℚ) := by
  cases v with
  | flag b =>
      unfold whole? number?
      rw [Option.some.injEq, Option.some.injEq]
      cases b <;> norm_cast
  | whole k =>
      unfold whole? number?
      rw [Option.some.injEq, Option.some.injEq, Int.cast_inj]
  | real x => exact Number.whole?_eq_some_iff
  | _ => simp [whole?, number?]

/-- Only floats are numbers that are not whole. -/
theorem exists_whole {q : ℚ} (hv : ∀ x, v ≠ .real x) (h : v.number? = some q) :
    ∃ n : Int, q = n := by
  cases v with
  | flag b => exact ⟨if b then 1 else 0, by cases b <;> simpa [number?] using h.symm⟩
  | whole n => exact ⟨n, (Option.some.inj h).symm⟩
  | real x => exact absurd rfl (hv x)
  | _ => simp [number?] at h

/-- Where one value is no float, both are compared as integers. -/
theorem sameWhole_iff (h : (∀ x, v ≠ .real x) ∨ ∀ x, w ≠ .real x) :
    v.sameNumber w = true ↔ ∃ q, v.number? = some q ∧ w.number? = some q := by
  have hcompare : v.sameNumber w = true ↔ ∃ n, v.whole? = some n ∧ w.whole? = some n := by
    have hnot : ∀ x y, v = .real x → w ≠ .real y := by
      rintro x y hv hw
      exact h.elim (· x hv) (· y hw)
    unfold sameNumber
    split
    · next x y => exact absurd rfl (hnot x y rfl)
    · cases v.whole? <;> cases w.whole? <;> simp [eq_comm]
  rw [hcompare]
  constructor
  · rintro ⟨n, hv, hw⟩
    exact ⟨n, whole?_eq_some_iff.mp hv, whole?_eq_some_iff.mp hw⟩
  · rintro ⟨q, hv, hw⟩
    obtain ⟨n, rfl⟩ : ∃ n : Int, q = n := h.elim (exists_whole · hv) (exists_whole · hw)
    exact ⟨n, whole?_eq_some_iff.mpr hv, whole?_eq_some_iff.mpr hw⟩

theorem sameNumber_iff :
    v.sameNumber w = true ↔ (∃ q, v.number? = some q ∧ w.number? = some q) ∨
      ∃ x, x.isInf = true ∧ v = .real x ∧ w = .real x := by
  by_cases h : (∀ x, v ≠ .real x) ∨ ∀ x, w ≠ .real x
  · rw [sameWhole_iff h, or_iff_left]
    rintro ⟨x, -, hv, hw⟩
    exact h.elim (· x hv) (· x hw)
  · push Not at h
    obtain ⟨⟨x, rfl⟩, ⟨y, rfl⟩⟩ := h
    refine Number.beq_iff.trans (or_congr_right ?_)
    constructor
    · rintro ⟨hx, rfl⟩
      exact ⟨x, hx, rfl, rfl⟩
    · rintro ⟨z, hz, hx, hy⟩
      cases hx
      cases hy
      exact ⟨hz, rfl⟩

/-- Equal values are equal numbers, unless they are of one other kind. -/
theorem equals_cases : v.Equals w ↔ v.sameNumber w = true ∨ (v = .absent ∧ w = .absent) ∨
    (∃ s, v = .text s ∧ w = .text s) ∨
    (∃ vs ws, v = .tuple vs ∧ w = .tuple ws ∧ List.Forall₂ Equals vs ws) ∨
    ∃ vs ws, v = .list vs ∧ w = .list ws ∧ List.Forall₂ Equals vs ws := by
  rw [sameNumber_iff]
  constructor
  · intro h
    cases h with
    | absent => exact .inr (.inl ⟨rfl, rfl⟩)
    | number hv hw => exact .inl (.inl ⟨_, hv, hw⟩)
    | infinite h => exact .inl (.inr ⟨_, h, rfl, rfl⟩)
    | text s => exact .inr (.inr (.inl ⟨s, rfl, rfl⟩))
    | tuple h => exact .inr (.inr (.inr (.inl ⟨_, _, rfl, rfl, h⟩)))
    | list h => exact .inr (.inr (.inr (.inr ⟨_, _, rfl, rfl, h⟩)))
  · rintro ((⟨q, hv, hw⟩ | ⟨x, hx, rfl, rfl⟩) | ⟨rfl, rfl⟩ | ⟨s, rfl, rfl⟩ | ⟨vs, ws, rfl, rfl, h⟩ |
      ⟨vs, ws, rfl, rfl, h⟩)
    · exact .number hv hw
    · exact .infinite hx
    · exact .absent
    · exact .text s
    · exact .tuple h
    · exact .list h

end Value

mutual

theorem Value.equals_iff (v w : Value) : v.equals w = true ↔ v.Equals w := by
  rw [Value.equals_cases]
  match v with
  | .tuple vs =>
      cases w with
      | tuple ws =>
          simp [Value.equals, Value.sameNumber, Value.whole?, Value.allEqual_iff vs ws]
      | _ => simp [Value.equals]
  | .list vs =>
      cases w with
      | list ws =>
          simp [Value.equals, Value.sameNumber, Value.whole?, Value.allEqual_iff vs ws]
      | _ => simp [Value.equals]
  | .text s =>
      cases w with
      | text t => simp [Value.equals, Value.sameNumber, Value.whole?, eq_comm]
      | _ => simp [Value.equals]
  | .absent | .flag b | .whole n | .real x => cases w <;> simp [Value.equals]

theorem Value.allEqual_iff (vs ws : List Value) :
    Value.allEqual vs ws = true ↔ List.Forall₂ Value.Equals vs ws := by
  match vs, ws with
  | [], [] | [], _ :: _ | _ :: _, [] => simp [Value.allEqual]
  | v :: vs, w :: ws =>
      rw [Value.allEqual, Bool.and_eq_true, Value.equals_iff v w, Value.allEqual_iff vs ws,
        List.forall₂_cons]

end

/-! ### Entries of a report -/

/-- What stands in a report under a name; nothing stands under a name that is not one of its own. -/
inductive Stands (r : Report) : String → Value → Prop
  | isValid : Stands r "is_valid" (.flag r.isValid)
  | errors : Stands r "errors" (.list (r.errors.map .text))
  | warnings : Stands r "warnings" (.list (r.warnings.map .text))
  | canvas {c : Model.Canvas} (h : r.canvas = some c) :
      Stands r "canvas" (.tuple [.real c.cols, .real c.rows])
  | noCanvas (h : r.canvas = none) : Stands r "canvas" .absent
  | rooms : Stands r "rooms" (.whole r.rooms)
  | walls : Stands r "walls" (.whole r.walls)
  | doors : Stands r "doors" (.whole r.doors)
  | grids : Stands r "grids" (.whole r.grids)
  | unknown {name : String} (h : name ∉ ["is_valid", "errors", "warnings", "canvas", "rooms", "walls",
      "doors", "grids"]) : Stands r name .absent

theorem stands_iff {r : Report} {name : String} {v : Value} : Stands r name v ↔ entry r name = v := by
  constructor
  · intro h
    cases h with
    | canvas h => simp [entry, h]
    | noCanvas h => simp [entry, h]
    | unknown h =>
        simp only [List.mem_cons, List.not_mem_nil, or_false, not_or] at h
        simp [entry, h]
    | _ => rfl
  · rintro rfl
    unfold entry
    split
    · exact .isValid
    · exact .errors
    · exact .warnings
    · split
      · next h => exact .canvas h
      · next h => exact .noCanvas h
    · exact .rooms
    · exact .walls
    · exact .doors
    · exact .grids
    · apply Stands.unknown
      simp_all

theorem holds_iff {r : Report} {name : String} {v : Value} :
    holds r name v = true ↔ ∃ w, Stands r name w ∧ w.Equals v := by
  unfold holds
  rw [Value.equals_iff]
  simp only [stands_iff, exists_eq_left']

end FloorPlan.SelfCheck
