import FloorPlan.Number.Shortest
import Mathlib.Algebra.Order.Field.Rat
import Mathlib.Data.Nat.Cast.Order.Field
import Mathlib.Tactic.FieldSimp
import Mathlib.Tactic.Linarith
import Mathlib.Tactic.Positivity
import Mathlib.Tactic.NormNum
import Mathlib.Tactic.Ring

/-! # The shortest decimal lies in the interval of its float

`Rounds m q x` says that the rational `x` lies in the interval of the reals that round to
`m · 2^q`.  A grid point that `onGrid?` finds lies there, and with seventeen digits it finds one, so
the shortest decimal of a float lies in its interval (`shortest_rounds`). -/

namespace FloorPlan.Number

/-- A rational between the ends of the interval of `m · 2^q`, an end included when `m` is even. -/
def Rounds (m : Nat) (q : Int) (x : ℚ) : Prop :=
  let lo : ℚ := (quarters m q).1 * 2 ^ (q - 2)
  let hi : ℚ := (quarters m q).2 * 2 ^ (q - 2)
  if m % 2 = 0 then lo ≤ x ∧ x ≤ hi else lo < x ∧ x < hi

/-! ### Fractions of natural numbers -/

theorem fraction_pos (m : Nat) (e : Int) : 0 < (fraction m e).2 := by
  unfold fraction
  split
  · exact Nat.one_pos
  · exact Nat.pow_pos (by decide)

theorem fraction_num_pos {m : Nat} (h : 0 < m) (e : Int) : 0 < (fraction m e).1 := by
  unfold fraction
  split
  · exact Nat.mul_pos h (Nat.pow_pos (by decide))
  · exact h

theorem fraction_value (m : Nat) (e : Int) :
    ((fraction m e).1 : ℚ) / (fraction m e).2 = m * 2 ^ e := by
  unfold fraction
  split
  · next he =>
      obtain ⟨n, rfl⟩ := Int.eq_ofNat_of_zero_le he
      simp
  · next he =>
      obtain ⟨n, rfl⟩ : ∃ n : Nat, e = -(n : Int) := ⟨(-e).toNat, by omega⟩
      simp [div_eq_mul_inv]

theorem powerOfTen_pos (k : Int) : 0 < (powerOfTen k).1 ∧ 0 < (powerOfTen k).2 := by
  unfold powerOfTen
  split
  · exact ⟨Nat.pow_pos (by decide), Nat.one_pos⟩
  · exact ⟨Nat.one_pos, Nat.pow_pos (by decide)⟩

theorem powerOfTen_value (k : Int) :
    ((powerOfTen k).1 : ℚ) / (powerOfTen k).2 = 10 ^ k := by
  unfold powerOfTen
  split
  · next hk =>
      obtain ⟨n, rfl⟩ := Int.eq_ofNat_of_zero_le hk
      simp
  · next hk =>
      obtain ⟨n, rfl⟩ : ∃ n : Nat, k = -(n : Int) := ⟨(-k).toNat, by omega⟩
      simp

/-! ### Points of a decimal grid -/

/-- The unit `2^(q - 2)` of the interval and the unit `10^k` of the grid, over one denominator. -/
def units (q k : Int) : Nat × Nat :=
  ((fraction 1 (q - 2)).1 * (powerOfTen k).2, (fraction 1 (q - 2)).2 * (powerOfTen k).1)

theorem units_pos (q k : Int) : 0 < (units q k).2 :=
  Nat.mul_pos (fraction_pos 1 (q - 2)) (powerOfTen_pos k).1

/-- The two units in terms of each other. -/
theorem units_ratio (q k : Int) :
    ((units q k).1 : ℚ) * 10 ^ k = (units q k).2 * 2 ^ (q - 2) := by
  have hd : ((fraction 1 (q - 2)).2 : ℚ) ≠ 0 := by exact_mod_cast (fraction_pos 1 (q - 2)).ne'
  have ht : ((powerOfTen k).2 : ℚ) ≠ 0 := by exact_mod_cast (powerOfTen_pos k).2.ne'
  have hunit := fraction_value 1 (q - 2)
  have hgrid := powerOfTen_value k
  rw [Nat.cast_one, one_mul] at hunit
  rw [← hunit, ← hgrid, units]
  push_cast
  field_simp

/-- Whether the multiple `c` of the grid lies in the interval. -/
def hits (m : Nat) (q k : Int) (c : Nat) : Bool :=
  if m % 2 = 0 then
    (quarters m q).1 * (units q k).1 ≤ c * (units q k).2 &&
      c * (units q k).2 ≤ (quarters m q).2 * (units q k).1
  else
    (quarters m q).1 * (units q k).1 < c * (units q k).2 &&
      c * (units q k).2 < (quarters m q).2 * (units q k).1

theorem onGrid?_eq (m : Nat) (q k : Int) :
    onGrid? m q k =
      let value := 4 * m * (units q k).1
      let c := value / (units q k).2
      match hits m q k c, hits m q k (c + 1) with
      | true, true =>
        let below := value - c * (units q k).2
        let above := (c + 1) * (units q k).2 - value
        if below < above || (below = above && c % 2 = 0) then some c else some (c + 1)
      | true, false => some c
      | false, true => some (c + 1)
      | false, false => none := rfl

/-- Comparing multiples of the two units. -/
theorem units_le_iff (q k : Int) (a c : Nat) :
    (a * (units q k).1 ≤ c * (units q k).2 ↔ (a : ℚ) * 2 ^ (q - 2) ≤ c * 10 ^ k) ∧
      (c * (units q k).2 ≤ a * (units q k).1 ↔ (c : ℚ) * 10 ^ k ≤ a * 2 ^ (q - 2)) := by
  have hratio := units_ratio q k
  have hten : (0 : ℚ) < 10 ^ k := zpow_pos (by norm_num) k
  have hgrid : (0 : ℚ) < (units q k).2 := by exact_mod_cast units_pos q k
  have ha : (a : ℚ) * (units q k).1 * 10 ^ k = (units q k).2 * (a * 2 ^ (q - 2)) := by
    rw [mul_assoc, hratio]
    ring
  have hc : (c : ℚ) * (units q k).2 * 10 ^ k = (units q k).2 * (c * 10 ^ k) := by ring
  constructor
  · rw [← Nat.cast_le (α := ℚ), Nat.cast_mul, Nat.cast_mul, ← mul_le_mul_iff_left₀ hten, ha, hc,
      mul_le_mul_iff_right₀ hgrid]
  · rw [← Nat.cast_le (α := ℚ), Nat.cast_mul, Nat.cast_mul, ← mul_le_mul_iff_left₀ hten, ha, hc,
      mul_le_mul_iff_right₀ hgrid]

theorem hits_iff (m : Nat) (q k : Int) (c : Nat) :
    hits m q k c = true ↔ Rounds m q (c * 10 ^ k) := by
  have hlo := units_le_iff q k (quarters m q).1 c
  have hhi := units_le_iff q k (quarters m q).2 c
  unfold hits Rounds
  split
  · rw [Bool.and_eq_true, decide_eq_true_eq, decide_eq_true_eq, hlo.1, hhi.2]
  · rw [Bool.and_eq_true, decide_eq_true_eq, decide_eq_true_eq, ← not_le, ← not_le, hlo.2, hhi.1,
      not_le, not_le]

/-- A grid point that is found lies in the interval. -/
theorem onGrid?_rounds {m : Nat} {q k : Int} {c : Nat} (h : onGrid? m q k = some c) :
    Rounds m q (c * 10 ^ k) := by
  rw [← hits_iff]
  rw [onGrid?_eq] at h
  simp only at h
  split at h
  · next hlow hhigh => 
      split at h
      · rw [← Option.some_inj.mp h]; exact hlow
      · rw [← Option.some_inj.mp h]; exact hhigh
  · next hlow _ => rw [← Option.some_inj.mp h]; exact hlow
  · next _ hhigh => rw [← Option.some_inj.mp h]; exact hhigh
  · cases h

/-- A grid point is found if one of the two neighbours of the value lies in the interval. -/
theorem exists_onGrid? {m : Nat} {q k : Int} {c : Nat}
    (hc : c = 4 * m * (units q k).1 / (units q k).2)
    (h : Rounds m q (c * 10 ^ k) ∨ Rounds m q ((c + 1 : Nat) * 10 ^ k)) :
    ∃ c, onGrid? m q k = some c := by
  rw [← hits_iff, ← hits_iff, hc] at h
  rw [onGrid?_eq]
  simp only
  split
  · split <;> exact ⟨_, rfl⟩
  · exact ⟨_, rfl⟩
  · exact ⟨_, rfl⟩
  · next hlow hhigh =>
      rw [hlow, hhigh] at h
      rcases h with h | h <;> cases h

/-! ### Seventeen digits -/

theorem digitCount_pos (n : Nat) : 0 < digitCount n := Nat.length_toDigits_pos

theorem lt_pow_digitCount (n : Nat) : n < 10 ^ digitCount n :=
  (Nat.length_toDigits_le_iff (by decide) (digitCount_pos n)).mp (le_refl _)

theorem pow_digitCount_le {n : Nat} (h : 0 < n) : 10 ^ (digitCount n - 1) ≤ n := by
  by_cases hone : digitCount n - 1 = 0
  · rw [hone, pow_zero]
    exact h
  · have hnot : ¬ digitCount n ≤ digitCount n - 1 := by
      have hpos := digitCount_pos n
      omega
    have hle : ¬ n < 10 ^ (digitCount n - 1) := fun hlt =>
      hnot ((Nat.length_toDigits_le_iff (by decide) (by omega)).mpr hlt)
    omega

/-- The place of the point: the value is at least the power of ten before it. -/
theorem pointPlace_le {a b : Nat} (ha : 0 < a) (hb : 0 < b) :
    (10 : ℚ) ^ (pointPlace a b - 1) ≤ a / b := by
  have hbq : (0 : ℚ) < b := by exact_mod_cast hb
  unfold pointPlace
  split
  · next hle =>
      have hdigits := pow_digitCount_le (Nat.div_pos hle hb)
      have hplace : (digitCount (a / b) : Int) - 1 = (digitCount (a / b) - 1 : Nat) := by
        have hpos := digitCount_pos (a / b)
        omega
      calc
        (10 : ℚ) ^ ((digitCount (a / b) : Int) - 1) = (10 ^ (digitCount (a / b) - 1) : Nat) := by
          rw [hplace, zpow_natCast]
          push_cast
          rfl
        _ ≤ (a / b : Nat) := by exact_mod_cast hdigits
        _ ≤ a / b := Nat.cast_div_le
  · next hlt =>
      have hb' : b ≤ a * 10 ^ digitCount ((b - 1) / a) := by
        have hdiv := (Nat.div_lt_iff_lt_mul ha).mp (lt_pow_digitCount ((b - 1) / a))
        rw [Nat.mul_comm] at hdiv
        omega
      have hcast : (b : ℚ) ≤ a * 10 ^ digitCount ((b - 1) / a) := by exact_mod_cast hb'
      have hten : (0 : ℚ) < 10 ^ digitCount ((b - 1) / a) := by positivity
      have hplace : 1 - (digitCount ((b - 1) / a) : Int) - 1 = -(digitCount ((b - 1) / a) : Int) := by
        omega
      rw [hplace, zpow_neg, zpow_natCast, le_div_iff₀ hbq, inv_mul_le_iff₀ hten, mul_comm]
      exact hcast

theorem value_in_quarters (m : Nat) (q : Int) : (m : ℚ) * 2 ^ q = 4 * m * 2 ^ (q - 2) := by
  rw [zpow_sub₀ (by norm_num)]
  ring

/-- What lies as near to `m · 2^q` as a `2^54`-th of it rounds to it. -/
theorem rounds_of_near {m : Nat} {q : Int} {x : ℚ} (hm : 0 < m) (hlt : m < 2 ^ 53)
    (hlow : m * 2 ^ q - x < m * 2 ^ q / 2 ^ 54) (hhigh : x - m * 2 ^ q < m * 2 ^ q / 2 ^ 54) :
    Rounds m q x := by
  have hunit : (0 : ℚ) < 2 ^ (q - 2) := zpow_pos (by norm_num) _
  have hmq : (m : ℚ) < 2 ^ 53 := by exact_mod_cast hlt
  have hwidth : 4 * (m : ℚ) * 2 ^ (q - 2) / 2 ^ 54 ≤ 2 * 2 ^ (q - 2) := by
    rw [div_le_iff₀ (by norm_num)]
    nlinarith
  have hlo : ((quarters m q).1 : ℚ) * 2 ^ (q - 2) ≤
      4 * m * 2 ^ (q - 2) - 4 * m * 2 ^ (q - 2) / 2 ^ 54 := by
    simp only [quarters]
    split
    · next hpower =>
        rw [hpower.1, Nat.cast_sub (by decide)]
        norm_num
        linarith
    · rw [Nat.cast_sub (by omega)]
      push_cast
      linarith
  have hhi : ((quarters m q).2 : ℚ) * 2 ^ (q - 2) = 4 * m * 2 ^ (q - 2) + 2 * 2 ^ (q - 2) := by
    simp only [quarters]
    push_cast
    ring
  rw [value_in_quarters] at hlow hhigh
  unfold Rounds
  simp only
  split
  · constructor <;> linarith
  · constructor <;> linarith

/-- Seventeen digits reach the interval of a float. -/
theorem exists_onGrid?_seventeen {m : Nat} {q : Int} (hm : 0 < m) (hlt : m < 2 ^ 53) :
    ∃ c, onGrid? m q (pointPlace (fraction m q).1 (fraction m q).2 - 17) = some c := by
  have hmq : (0 : ℚ) < m := by exact_mod_cast hm
  have hvalue : (0 : ℚ) < m * 2 ^ q := mul_pos hmq (zpow_pos (by norm_num) q)
  have hplace := pointPlace_le (fraction_num_pos hm q) (fraction_pos m q)
  rw [fraction_value] at hplace
  generalize pointPlace (fraction m q).1 (fraction m q).2 = p at hplace
  have hgrid : (10 : ℚ) ^ (p - 17) * 10 ^ 16 ≤ m * 2 ^ q := by
    have hshift : (10 : ℚ) ^ (p - 17) * 10 ^ 16 = 10 ^ (p - 1) := by
      rw [← zpow_natCast (10 : ℚ) 16, ← zpow_add₀ (by norm_num)]
      congr 1
      omega
    rw [hshift]
    exact hplace
  have hten : (0 : ℚ) < 10 ^ (p - 17) := zpow_pos (by norm_num) _
  obtain ⟨c, hc⟩ : ∃ c, c = 4 * m * (units q (p - 17)).1 / (units q (p - 17)).2 := ⟨_, rfl⟩
  have hbelow : (c : ℚ) * 10 ^ (p - 17) ≤ m * 2 ^ q := by
    have hle : c * (units q (p - 17)).2 ≤ 4 * m * (units q (p - 17)).1 := by
      rw [hc]
      exact Nat.div_mul_le_self _ _
    rw [value_in_quarters]
    exact_mod_cast (units_le_iff q (p - 17) (4 * m) c).2.mp hle
  have habove : (m : ℚ) * 2 ^ q ≤ (c + 1 : Nat) * 10 ^ (p - 17) := by
    have hle : 4 * m * (units q (p - 17)).1 ≤ (c + 1) * (units q (p - 17)).2 := by
      rw [hc]
      exact ((Nat.div_lt_iff_lt_mul (units_pos q (p - 17))).mp (Nat.lt_succ_self _)).le
    rw [value_in_quarters]
    exact_mod_cast (units_le_iff q (p - 17) (4 * m) (c + 1)).1.mp hle
  -- the nearer of the two neighbours is at most half a step of the grid away
  apply exists_onGrid? hc
  rcases le_or_gt ((m : ℚ) * 2 ^ q - c * 10 ^ (p - 17)) (10 ^ (p - 17) / 2) with hnear | hfar
  · left
    apply rounds_of_near hm hlt <;> linarith
  · right
    push_cast at habove ⊢
    apply rounds_of_near hm hlt <;> linarith

/-- The shortest decimal lies in the interval of its float. -/
theorem shortest_rounds {m : Nat} {q : Int} (hm : 0 < m) (hlt : m < 2 ^ 53) :
    Rounds m q ((shortest m q).digits * 10 ^ (shortest m q).exponent) := by
  simp only [shortest]
  generalize hp : pointPlace (fraction m q).1 (fraction m q).2 = p
  cases hfound : (List.range 17).findSome? fun (n : Nat) =>
      (onGrid? m q (p - (n + 1 : Nat))).map fun c => Decimal.mk c (p - (n + 1 : Nat)) with
  | none =>
      -- the last of the seventeen grids has a point in the interval
      obtain ⟨c, hc⟩ := exists_onGrid?_seventeen (q := q) hm hlt
      have hnone := List.findSome?_eq_none_iff.mp hfound 16 (by decide)
      rw [hp] at hc
      simp [hc] at hnone
  | some d =>
      obtain ⟨n, -, hn⟩ := List.exists_of_findSome?_eq_some hfound
      obtain ⟨c, hc, rfl⟩ := Option.map_eq_some_iff.mp hn
      exact onGrid?_rounds hc

theorem Rounds.pos {m : Nat} {q : Int} {x : ℚ} (h : Rounds m q x) (hm : 0 < m) : 0 < x := by
  have hlo : 0 < (quarters m q).1 := by
    simp only [quarters]
    split <;> omega
  have hloq : (0 : ℚ) < (quarters m q).1 * 2 ^ (q - 2) := by
    have hcast : (0 : ℚ) < (quarters m q).1 := by exact_mod_cast hlo
    exact mul_pos hcast (zpow_pos (by norm_num) _)
  unfold Rounds at h
  simp only at h
  split at h <;> linarith [h.1]

/-- The shortest decimal has a digit. -/
theorem shortest_pos {m : Nat} {q : Int} (hm : 0 < m) (hlt : m < 2 ^ 53) :
    0 < (shortest m q).digits := by
  have hpos := (shortest_rounds (q := q) hm hlt).pos hm
  by_contra hzero
  have hdigits : (shortest m q).digits = 0 := by omega
  rw [hdigits, Nat.cast_zero, zero_mul] at hpos
  exact lt_irrefl 0 hpos

end FloorPlan.Number
