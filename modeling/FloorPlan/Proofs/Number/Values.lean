import FloorPlan.Proofs.Number.Shortest
import Mathlib.Data.Rat.Floor

/-! # The number that a float is

A finite float is a rational number (`value?`).  The whole part of a float is that of its number
(`floor_of_value`), and the float is an integer where its number is one (`whole?_eq_some_iff`). -/

namespace FloorPlan.Number

open Float.Model.UnpackedFloat

/-- The number that a finite float is. -/
def value? (x : Float) : Option ℚ :=
  match x.toModel.unpack with
  | .zero _ => some 0
  | .finite s m e _ => some (s.apply m * 2 ^ e)
  | .infinity _ | .notANumber => none

/-- Why a float has no whole part. -/
def unbounded? (x : Float) : Option Unbounded :=
  if x.isInf then some .infinite else if x.isNaN then some .undefined else none

theorem floor_eq_error_iff {x : Float} {cause : Unbounded} :
    floor x = .error cause ↔ unbounded? x = some cause := by
  unfold floor unbounded? Float.isInf Float.isNaN Float.Model.isInf Float.Model.isNaN
  cases x.toModel.unpack <;> constructor <;> intro h <;> cases h <;> rfl

/-- The fraction of a mantissa, with the sign of a float. -/
theorem apply_fraction (s : Sign) (m : Nat) (e : Int) :
    ((s.apply (fraction m e).1 : Int) : ℚ) / (fraction m e).2 = s.apply m * 2 ^ e := by
  have hfraction := fraction_value m e
  cases s with
  | positive => simpa [Sign.apply] using hfraction
  | negative => simpa [Sign.apply, neg_div] using hfraction

section

variable {x : Float} {v : ℚ}

theorem floor_of_value (h : value? x = some v) : floor x = .ok ⌊v⌋ := by
  unfold value? at h
  unfold floor
  cases hunpack : x.toModel.unpack with
  | infinity s => simp [hunpack] at h
  | notANumber => simp [hunpack] at h
  | zero s =>
      rw [hunpack] at h
      obtain rfl : 0 = v := Option.some.inj h
      rfl
  | finite s m e hm =>
      rw [hunpack] at h
      obtain rfl : (s.apply m : ℚ) * 2 ^ e = v := Option.some.inj h
      rw [← apply_fraction, Rat.floor_intCast_div_natCast]

/-- A float whose whole part is bounded has a value, and the whole part is that of the value. -/
theorem exists_floor (h : unbounded? x = none) :
    ∃ v, value? x = some v ∧ floor x = .ok ⌊v⌋ := by
  suffices ∃ v, value? x = some v by
    obtain ⟨v, hv⟩ := this
    exact ⟨v, hv, floor_of_value hv⟩
  unfold unbounded? Float.isInf Float.isNaN Float.Model.isInf Float.Model.isNaN at h
  unfold value?
  cases hunpack : x.toModel.unpack with
  | infinity s =>
      rw [hunpack] at h
      nomatch h
  | notANumber =>
      rw [hunpack] at h
      nomatch h
  | zero s => exact ⟨_, rfl⟩
  | finite s m e hm => exact ⟨_, rfl⟩

end

/-- A fraction with a sign is an integer if its denominator divides it. -/
theorem apply_div_eq_iff {s : Sign} {a b : Nat} (hb : 0 < b) {n : Int} :
    ((s.apply a : Int) : ℚ) / b = n ↔ a % b = 0 ∧ s.apply (a / b : Nat) = n := by
  have hb' : (b : ℚ) ≠ 0 := by exact_mod_cast hb.ne'
  rw [div_eq_iff hb']
  constructor
  · intro h
    have hproduct : s.apply a = n * b := by exact_mod_cast h
    have hdvd : b ∣ a := by
      rw [← Int.natCast_dvd_natCast]
      cases s with
      | positive => exact ⟨n, by rw [mul_comm]; exact hproduct⟩
      | negative => exact ⟨-n, by rw [mul_neg, mul_comm, ← hproduct]; exact (neg_neg _).symm⟩
    obtain ⟨k, rfl⟩ := hdvd
    refine ⟨Nat.mul_mod_right b k, ?_⟩
    rw [Nat.mul_div_cancel_left k hb]
    have hb₀ : (b : Int) ≠ 0 := by exact_mod_cast hb.ne'
    apply mul_right_cancel₀ hb₀
    rw [← hproduct]
    cases s <;> simp [Sign.apply, mul_comm]
  · rintro ⟨hmod, rfl⟩
    obtain ⟨k, rfl⟩ := Nat.dvd_of_mod_eq_zero hmod
    rw [Nat.mul_div_cancel_left k hb]
    cases s <;> simp [Sign.apply, mul_comm]

theorem whole?_eq_some_iff {x : Float} {n : Int} : whole? x = some n ↔ value? x = some (n : ℚ) := by
  unfold whole? value?
  cases x.toModel.unpack with
  | infinity s => simp
  | notANumber => simp
  | zero s =>
      rw [Option.some.injEq, Option.some.injEq]
      norm_cast
  | finite s m e hm =>
      simp only
      rw [Option.some.injEq, ← apply_fraction, apply_div_eq_iff (fraction_pos m e)]
      split
      · next h => simp [h]
      · next h => simp [h]

end FloorPlan.Number
