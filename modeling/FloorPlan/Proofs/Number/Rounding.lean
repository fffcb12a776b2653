import Mathlib
import FloorPlan.Proofs.Number.Shortest

/-! # Rounding to the nearest float

The interval of `m · 2^q` is what the arithmetic of floats rounds to it.  A mantissa with its round
bit and its sticky bit tells where an exact value lies (`Holds`); shifts keep that, and rounding
takes the nearest mantissa, so an operation whose exact result lies in the interval of a canonical
`m · 2^q` gives that float (`roundWithAccuracy_eq`). -/

namespace FloorPlan.Number

open Float.Model Float.Model.UnpackedFloat

/-! ### Extended mantissas -/

/-- A mantissa with its residual bits lies at a rational, or less than half a unit below it. -/
def Holds (em : ExtendedMantissa) (x : ℚ) : Prop :=
  let base : ℚ := em.mantissa + if em.roundBit then 1 / 2 else 0
  if em.stickyBit then base < x ∧ x < base + 1 / 2 else x = base

/-- The nearest natural number to a rational, of two as near as each other the even one. -/
def Nearest (n : Nat) (x : ℚ) : Prop :=
  if n % 2 = 0 then (n : ℚ) - 1 / 2 ≤ x ∧ x ≤ n + 1 / 2
  else (n : ℚ) - 1 / 2 < x ∧ x < n + 1 / 2

variable {em : ExtendedMantissa} {x : ℚ}

theorem Holds.mantissa_le (h : Holds em x) : (em.mantissa : ℚ) ≤ x ∧ x < em.mantissa + 1 := by
  obtain ⟨m, round, sticky⟩ := em
  cases round <;> cases sticky <;> simp [Holds] at h ⊢ <;> constructor <;> linarith

/-- A shift by one place halves the value. -/
theorem Holds.shiftRightOne (h : Holds em x) : Holds em.shiftRightOne (x / 2) := by
  obtain ⟨m, round, sticky⟩ := em
  have hparts : (m : ℚ) = 2 * (m / 2 : Nat) + (m % 2 : Nat) := by
    exact_mod_cast (Nat.div_add_mod m 2).symm
  rcases Nat.mod_two_eq_zero_or_one m with hm | hm <;> rw [hm] at hparts <;>
    cases round <;> cases sticky <;>
    simp [Holds, ExtendedMantissa.shiftRightOne, hm] at h hparts ⊢ <;>
    first
      | (constructor <;> linarith)
      | linarith

theorem Holds.shiftRight (h : Holds em x) (n : Nat) : Holds (em >>> n) (x / 2 ^ n) := by
  have hrun : Holds (n.repeat ExtendedMantissa.shiftRightOne em) (x / 2 ^ n) := by
    induction n with
    | zero => simpa [Nat.repeat] using h
    | succ n ih =>
        rw [Nat.repeat, pow_succ, ← div_div]
        exact ih.shiftRightOne
  exact hrun

theorem Nearest.near {n : Nat} (h : Nearest n x) : (n : ℚ) ≤ x + 1 / 2 ∧ x ≤ n + 1 / 2 := by
  unfold Nearest at h
  split at h <;> constructor <;> linarith [h.1, h.2]

/-- Rounding takes the nearest mantissa. -/
theorem Holds.rounded {n : Nat} (h : Holds em x) (hn : Nearest n x) : em.roundedMantissa = n := by
  obtain ⟨m, round, sticky⟩ := em
  have hnear := hn.near
  have hbounds : ∀ a b : Nat, (a : ℚ) < b + 1 → a ≤ b := fun a b hlt =>
    Nat.lt_succ_iff.mp (by exact_mod_cast hlt)
  cases round <;> cases sticky <;>
    simp only [Holds, Bool.false_eq_true, if_true, if_false, add_zero] at h <;>
    simp only [ExtendedMantissa.roundedMantissa, ExtendedMantissa.accuracy,
      Accuracy.roundToNearestEven]
  · -- exact
    exact le_antisymm (hbounds m n (by linarith)) (hbounds n m (by linarith))
  · -- below the middle
    exact le_antisymm (hbounds m n (by linarith)) (hbounds n m (by linarith))
  · -- in the middle: the even neighbour
    have hlow := hbounds m n (by linarith)
    have hhigh := hbounds n (m + 1) (by push_cast; linarith)
    have heven : n % 2 = 0 := by
      by_contra hodd
      rw [Nearest, if_neg hodd] at hn
      have hm : m ≠ n := by
        rintro rfl
        linarith [hn.2]
      have hm' : m + 1 ≠ n := by
        rintro rfl
        push_cast at hn
        linarith [hn.1]
      omega
    omega
  · -- above the middle
    have hlow := hbounds (m + 1) n (by push_cast; linarith)
    exact le_antisymm hlow (hbounds n (m + 1) (by push_cast; linarith))

/-! ### Canonical floats -/

/-- A mantissa and an exponent as a float has them: all bits of the mantissa are used, unless the
exponent is the least one. -/
structure Canonical (m : Nat) (q : Int) : Prop where
  pos : 0 < m
  lt : m < 2 ^ 53
  least : -1074 ≤ q
  full : 2 ^ 52 ≤ m ∨ q = -1074

theorem targetExponent_eq (t : Int) : Format.binary64.targetExponent t = max (t - 53) (-1074) := rfl

/-- The shift to an exponent keeps the value. -/
theorem Holds.shiftToExponent {m : Nat} {e t : Int} {acc : Accuracy} (het : e ≤ t)
    (h : Holds (ExtendedMantissa.ofMantissaAndAccuracy m acc) (x / 2 ^ e)) :
    Holds (shiftToExponent m e acc t).1 (x / 2 ^ t) ∧ (shiftToExponent m e acc t).2 = t := by
  obtain ⟨n, rfl⟩ : ∃ n : Nat, t = e + n := ⟨(t - e).toNat, by omega⟩
  have hn : (e + n - e).toNat = n := by omega
  simp only [UnpackedFloat.shiftToExponent, hn]
  refine ⟨?_, trivial⟩
  have hdiv : x / 2 ^ (e + (n : Int)) = x / 2 ^ e / 2 ^ n := by
    rw [zpow_add₀ (by norm_num), zpow_natCast, div_div]
  rw [hdiv]
  exact h.shiftRight n

/-- A canonical mantissa is not shifted. -/
theorem Canonical.shift {m : Nat} {q : Int} (h : Canonical m q) :
    shiftToTargetExponent Format.binary64 m q .exact = (⟨m, false, false⟩, q) := by
  have hlog : m.log2 < 53 := (Nat.log2_lt h.pos.ne').mpr h.lt
  have hleast := h.least
  have hzero : (Format.binary64.targetExponent (totalExponent m q) - q).toNat = 0 := by
    rw [targetExponent_eq, totalExponent]
    omega
  simp only [shiftToTargetExponent, UnpackedFloat.shiftToExponent, hzero]
  simp [HShiftRight.hShiftRight, Nat.repeat, ExtendedMantissa.ofMantissaAndAccuracy]

/-- A mantissa of `2^53` is shifted by one place. -/
theorem shift_carry {q : Int} (h : -1074 < q) :
    shiftToTargetExponent Format.binary64 (2 ^ 53) (q - 1) .exact =
      (⟨2 ^ 52, false, false⟩, q) := by
  have hone : (Format.binary64.targetExponent (totalExponent (2 ^ 53) (q - 1)) - (q - 1)).toNat = 1 := by
    rw [targetExponent_eq, totalExponent, Nat.log2_two_pow]
    omega
  simp only [shiftToTargetExponent, UnpackedFloat.shiftToExponent, hone]
  simp [HShiftRight.hShiftRight, Nat.repeat, ExtendedMantissa.ofMantissaAndAccuracy,
    ExtendedMantissa.shiftRightOne]

/-! ### The interval of a float -/

section Interval

variable {m : Nat} {q : Int}

/-- The interval in units of the last place. -/
theorem Rounds.scaled (h : Rounds m q x) (hm : 0 < m) :
    (m : ℚ) - 1 / 2 ≤ x / 2 ^ q ∧ x / 2 ^ q ≤ m + 1 / 2 ∧
      (m % 2 = 1 → (m : ℚ) - 1 / 2 < x / 2 ^ q ∧ x / 2 ^ q < m + 1 / 2) ∧
      (m = 2 ^ 52 → -1074 < q → (m : ℚ) - 1 / 4 ≤ x / 2 ^ q) := by
  have hunit : (0 : ℚ) < 2 ^ (q - 2) := zpow_pos (by norm_num) _
  have hx : x / 2 ^ q = x / 2 ^ (q - 2) / 4 := by
    rw [zpow_sub₀ (by norm_num)]
    field_simp
    norm_num
  have hhi : ((quarters m q).2 : ℚ) = 4 * m + 2 := by simp [quarters]
  have hlo : 4 * (m : ℚ) - 2 ≤ (quarters m q).1 := by
    simp only [quarters]
    split
    · rw [Nat.cast_sub (by omega)]
      push_cast
      linarith
    · rw [Nat.cast_sub (by omega)]
      push_cast
      linarith
  have hpower : m = 2 ^ 52 → -1074 < q → ((quarters m q).1 : ℚ) = 4 * m - 1 := by
    intro hm hq
    simp only [quarters]
    rw [if_pos ⟨hm, hq⟩, Nat.cast_sub (by omega)]
    push_cast
    rfl
  rw [hx]
  generalize hy : x / 2 ^ (q - 2) = y
  have hxy : x = y * 2 ^ (q - 2) := by rw [← hy, div_mul_cancel₀ _ hunit.ne']
  simp only [Rounds, hxy, mul_le_mul_iff_left₀ hunit, mul_lt_mul_iff_left₀ hunit, hhi] at h
  split at h
  · next heven =>
      refine ⟨by linarith [h.1], by linarith [h.2], fun hodd => by omega, fun hm hq => ?_⟩
      have hlow := hpower hm hq
      linarith [h.1]
  · next hodd =>
      refine ⟨by linarith [h.1], by linarith [h.2], fun _ => ⟨by linarith [h.1], by linarith [h.2]⟩,
        fun hm _ => ?_⟩
      rw [hm] at hodd
      exact absurd (by decide) hodd

/-- What rounds to a float has the float's mantissa as its nearest one. -/
theorem Rounds.nearest (h : Rounds m q x) (hm : 0 < m) : Nearest m (x / 2 ^ q) := by
  obtain ⟨hlow, hhigh, hodd, -⟩ := h.scaled hm
  unfold Nearest
  split
  · exact ⟨hlow, hhigh⟩
  · exact hodd (by omega)

/-- Below a power of two the mantissa is the nearest one of twice as many bits. -/
theorem Rounds.nearest_below (h : Rounds (2 ^ 52) q x) (hq : -1074 < q)
    (hbelow : x / 2 ^ q < 2 ^ 52) : Nearest (2 ^ 53) (x / 2 ^ (q - 1)) := by
  obtain ⟨-, -, -, hpower⟩ := h.scaled (by norm_num)
  have hlow := hpower rfl hq
  have hx : x / 2 ^ (q - 1) = 2 * (x / 2 ^ q) := by
    rw [zpow_sub₀ (by norm_num)]
    field_simp
  rw [hx, Nearest, if_pos (by norm_num)]
  push_cast at hlow ⊢
  constructor <;> linarith

end Interval

/-! ### Rounding an exact value -/

section Round

variable {m n : Nat} {q e : Int} {acc : Accuracy} {s : Sign}

/-- The binade of an exact value is that of its mantissa. -/
theorem Holds.binade (h : Holds (ExtendedMantissa.ofMantissaAndAccuracy n acc) (x / 2 ^ e)) :
    x < 2 ^ totalExponent n e ∧ (0 < n → 2 ^ (totalExponent n e - 1) ≤ x) := by
  have hmantissa : (ExtendedMantissa.ofMantissaAndAccuracy n acc).mantissa = n := by
    unfold ExtendedMantissa.ofMantissaAndAccuracy
    split <;> rfl
  have hbounds := h.mantissa_le
  rw [hmantissa] at hbounds
  have hunit : (0 : ℚ) < 2 ^ e := zpow_pos (by norm_num) _
  rw [le_div_iff₀ hunit, div_lt_iff₀ hunit] at hbounds
  constructor
  · have hlt : n + 1 ≤ 2 ^ (n.log2 + 1) := Nat.lt_log2_self
    have hcast : (n : ℚ) + 1 ≤ 2 ^ (n.log2 + 1) := by exact_mod_cast hlt
    calc
      x < (n + 1) * 2 ^ e := hbounds.2
      _ ≤ 2 ^ (n.log2 + 1) * 2 ^ e := by gcongr
      _ = 2 ^ totalExponent n e := by
        rw [totalExponent, zpow_add₀ (by norm_num)]
        norm_cast
  · intro hn
    have hle : 2 ^ n.log2 ≤ n := Nat.log2_self_le hn.ne'
    have hcast : (2 : ℚ) ^ n.log2 ≤ n := by exact_mod_cast hle
    calc
      (2 : ℚ) ^ (totalExponent n e - 1) = 2 ^ n.log2 * 2 ^ e := by
        rw [totalExponent, show (n.log2 : Int) + 1 + e - 1 = n.log2 + e by omega,
          zpow_add₀ (by norm_num), zpow_natCast]
      _ ≤ n * 2 ^ e := by gcongr
      _ ≤ x := hbounds.1

/-- The exponent to which an exact value is shifted is that of the float whose interval it lies in,
or one less if it lies below a power of two. -/
theorem targetExponent_cases (hc : Canonical m q) (hx : Rounds m q x)
    (h : Holds (ExtendedMantissa.ofMantissaAndAccuracy n acc) (x / 2 ^ e))
    (hzero : n = 0 → e ≤ -1074) :
    Format.binary64.targetExponent (totalExponent n e) = q ∨
      m = 2 ^ 52 ∧ -1074 < q ∧ x / 2 ^ q < 2 ^ 52 ∧
        Format.binary64.targetExponent (totalExponent n e) = q - 1 := by
  obtain ⟨hlt, hle⟩ := h.binade
  obtain ⟨hlow, hhigh, -, hpower⟩ := hx.scaled hc.pos
  have hunit : (0 : ℚ) < 2 ^ q := zpow_pos (by norm_num) _
  have hexp : ∀ a b : Int, (2 : ℚ) ^ a < 2 ^ b → a < b := fun a b =>
    (zpow_lt_zpow_iff_right₀ (by norm_num)).mp
  have hshift : ∀ k : Nat, (2 : ℚ) ^ (q + k) = 2 ^ k * 2 ^ q := by
    intro k
    rw [add_comm, zpow_add₀ (by norm_num), zpow_natCast]
  have hsmall : n = 0 → totalExponent n e - 53 ≤ -1074 := by
    rintro rfl
    have he := hzero rfl
    simp only [totalExponent, Nat.log2_zero]
    omega
  -- the value is less than `2^53` units, so the exponent is at most `q`
  have hupper : totalExponent n e - 53 ≤ q := by
    rcases Nat.eq_zero_or_pos n with hn | hn
    · exact (hsmall hn).trans hc.least
    · have hm : (m : ℚ) + 1 ≤ 2 ^ 53 := by exact_mod_cast hc.lt
      have hbound : x < 2 ^ (q + (53 : Nat)) := by
        rw [hshift, ← div_lt_iff₀ hunit]
        linarith
      have hlog := hexp _ _ ((hle hn).trans_lt hbound)
      push_cast at hlog
      omega
  rw [targetExponent_eq]
  rcases hc.full with hfull | hleast
  · have hmq : (2 : ℚ) ^ 52 ≤ m := by exact_mod_cast hfull
    rcases le_or_gt ((2 : ℚ) ^ 52) (x / 2 ^ q) with hnormal | hbelow
    · -- at least `2^52` units
      left
      have hbound : (2 : ℚ) ^ (q + (52 : Nat)) ≤ x := by
        rw [hshift, ← le_div_iff₀ hunit]
        exact hnormal
      have hlog := hexp _ _ (hbound.trans_lt hlt)
      have hleast := hc.least
      push_cast at hlog
      omega
    · -- less than `2^52` units: the mantissa is `2^52`
      have hm : m = 2 ^ 52 := by
        by_contra hne
        have hsucc : (2 : ℚ) ^ 52 + 1 ≤ m := by
          have hnat : 2 ^ 52 + 1 ≤ m := by omega
          exact_mod_cast hnat
        linarith
      rcases (hc.least).eq_or_lt with hleast | hleast
      · left
        omega
      right
      refine ⟨hm, hleast, hbelow, ?_⟩
      have hquarter := hpower hm hleast
      have hbound : (2 : ℚ) ^ (q + (51 : Nat)) ≤ x := by
        rw [hshift, ← le_div_iff₀ hunit]
        rw [hm] at hquarter
        push_cast at hquarter
        linarith
      have hlog := hexp _ _ (hbound.trans_lt hlt)
      push_cast at hlog
      have hlog' : totalExponent n e - 53 ≤ q - 1 := by
        rcases Nat.eq_zero_or_pos n with hn | hn
        · have hle := hsmall hn
          omega
        · have hbound' : x < 2 ^ (q + (52 : Nat)) := by
            rw [hshift, ← div_lt_iff₀ hunit]
            exact hbelow
          have hlog := hexp _ _ ((hle hn).trans_lt hbound')
          push_cast at hlog
          omega
      omega
  · left
    omega

/-- An exact value in the interval of a canonical float is rounded to that float. -/
theorem roundWithAccuracy_eq (hc : Canonical m q) (hx : Rounds m q x)
    (h : Holds (ExtendedMantissa.ofMantissaAndAccuracy n acc) (x / 2 ^ e))
    (hzero : n = 0 → e ≤ -1074)
    (he : e ≤ Format.binary64.targetExponent (totalExponent n e)) :
    roundWithAccuracy Format.binary64 s n e acc = .finite s m q hc.pos := by
  obtain ⟨hholds, hexponent⟩ := h.shiftToExponent he
  have hfirst : ∃ k, (shiftToTargetExponent Format.binary64 n e acc).1.roundedMantissa = k ∧
      shiftToTargetExponent Format.binary64 k
        (shiftToTargetExponent Format.binary64 n e acc).2 .exact = (⟨m, false, false⟩, q) := by
    simp only [shiftToTargetExponent] at hholds hexponent ⊢
    rcases targetExponent_cases hc hx h hzero with hq | ⟨rfl, hq, hbelow, hcarry⟩
    · rw [hexponent, hq]
      rw [hq] at hholds
      exact ⟨m, hholds.rounded (hx.nearest hc.pos), hc.shift⟩
    · rw [hexponent, hcarry]
      rw [hcarry] at hholds
      exact ⟨2 ^ 53, hholds.rounded (hx.nearest_below hq hbelow), shift_carry hq⟩
  obtain ⟨k, hk, hlast⟩ := hfirst
  have hne : m ≠ 0 := hc.pos.ne'
  simp only [roundWithAccuracy, hk, hlast, hne, dite_false]

/-! ### Products and quotients -/

theorem holds_exact (n : Nat) : Holds (ExtendedMantissa.ofMantissaAndAccuracy n .exact) n := by
  simp [Holds, ExtendedMantissa.ofMantissaAndAccuracy]

variable {m₁ m₂ : Nat} {e₁ e₂ : Int} {s₁ s₂ : Sign}

/-- A product that lies in the interval of a float is rounded to it. -/
theorem mul_finite (hc : Canonical m q) (h₁ : 0 < m₁) (h₂ : 0 < m₂)
    (hbits : 2 ^ 52 ≤ m₁ * m₂) (hx : Rounds m q ((m₁ * 2 ^ e₁) * (m₂ * 2 ^ e₂))) :
    mul Format.binary64 (.finite s₁ m₁ e₁ h₁) (.finite s₂ m₂ e₂ h₂) =
      .finite (s₁ * s₂) m q hc.pos := by
  have hpos : 0 < m₁ * m₂ := Nat.mul_pos h₁ h₂
  have hvalue : ((m₁ : ℚ) * 2 ^ e₁) * (m₂ * 2 ^ e₂) / 2 ^ (e₁ + e₂) = (m₁ * m₂ : Nat) := by
    rw [zpow_add₀ (by norm_num)]
    push_cast
    field_simp
  have hholds : Holds (ExtendedMantissa.ofMantissaAndAccuracy (m₁ * m₂) .exact)
      (((m₁ : ℚ) * 2 ^ e₁) * (m₂ * 2 ^ e₂) / 2 ^ (e₁ + e₂)) := by
    rw [hvalue]
    exact holds_exact _
  have hlog : 52 ≤ (m₁ * m₂).log2 := (Nat.le_log2 hpos.ne').mpr hbits
  apply roundWithAccuracy_eq hc hx hholds
  · intro hzero
    omega
  · rw [targetExponent_eq, totalExponent]
    omega

/-- The accuracy of a quotient of natural numbers tells where the exact quotient lies. -/
theorem holds_quotient (a : Nat) {b : Nat} (hb : 0 < b) :
    Holds (ExtendedMantissa.ofMantissaAndAccuracy (a / b) (accuracyOfFraction (a % b) b))
      (a / b) := by
  have hbq : (0 : ℚ) < b := by exact_mod_cast hb
  have hsplit : (a : ℚ) / b = (a / b : Nat) + ((a % b : Nat) : ℚ) / b := by
    have hparts : (a : ℚ) = b * (a / b : Nat) + (a % b : Nat) := by
      exact_mod_cast (Nat.div_add_mod a b).symm
    field_simp
    linarith
  have hrest : ((a % b : Nat) : ℚ) < b := by exact_mod_cast Nat.mod_lt a hb
  rw [hsplit]
  generalize a / b = k, a % b = r at *
  unfold accuracyOfFraction
  split
  · next hr => simp [Holds, ExtendedMantissa.ofMantissaAndAccuracy, hr]
  · next hr =>
      have hpos : (0 : ℚ) < r := by exact_mod_cast Nat.pos_of_ne_zero hr
      have hfraction : 0 < (r : ℚ) / b := by positivity
      have hone : (r : ℚ) / b < 1 := by rwa [div_lt_one hbq]
      rcases hcompare : compare (2 * r) b with _ | _ | _
      · have hlt : (2 * r : ℚ) < b := by exact_mod_cast Nat.compare_eq_lt.mp hcompare
        have hhalf : (r : ℚ) / b < 1 / 2 := by
          rw [div_lt_iff₀ hbq]
          linarith
        simp [Holds, ExtendedMantissa.ofMantissaAndAccuracy]
        constructor <;> linarith
      · have heq : (2 * r : ℚ) = b := by exact_mod_cast Nat.compare_eq_eq.mp hcompare
        have hhalf : (r : ℚ) / b = 1 / 2 := by
          rw [div_eq_iff hbq.ne']
          linarith
        simp [Holds, ExtendedMantissa.ofMantissaAndAccuracy, hhalf]
      · have hgt : (b : ℚ) < 2 * r := by exact_mod_cast Nat.compare_eq_gt.mp hcompare
        have hhalf : 1 / 2 < (r : ℚ) / b := by
          rw [lt_div_iff₀ hbq]
          linarith
        simp [Holds, ExtendedMantissa.ofMantissaAndAccuracy]
        constructor <;> linarith

/-- A quotient has enough bits, unless its exponent is the least one. -/
theorem quotient_bits {k : Nat} {t : Int} (h₁ : 0 < m₁) (h₂ : 0 < m₂)
    (ht : t ≤ totalExponent m₁ e₁ - totalExponent m₂ e₂ - 53) (hk : e₁ - e₂ - t = k) :
    2 ^ 52 ≤ m₁ * 2 ^ k / m₂ := by
  have hlow : 2 ^ m₁.log2 ≤ m₁ := Nat.log2_self_le h₁.ne'
  have hhigh : m₂ < 2 ^ (m₂.log2 + 1) := Nat.lt_log2_self
  have hbits : 52 + (m₂.log2 + 1) ≤ m₁.log2 + k := by
    simp only [totalExponent] at ht
    omega
  rw [Nat.le_div_iff_mul_le h₂]
  calc
    2 ^ 52 * m₂ ≤ 2 ^ 52 * 2 ^ (m₂.log2 + 1) := Nat.mul_le_mul_left _ hhigh.le
    _ = 2 ^ (52 + (m₂.log2 + 1)) := (Nat.pow_add 2 52 (m₂.log2 + 1)).symm
    _ ≤ 2 ^ (m₁.log2 + k) := Nat.pow_le_pow_right (by decide) hbits
    _ = 2 ^ m₁.log2 * 2 ^ k := Nat.pow_add 2 m₁.log2 k
    _ ≤ m₁ * 2 ^ k := Nat.mul_le_mul_right _ hlow

/-- A quotient is rounded once, from a mantissa with enough bits. -/
theorem div_rounded (s₁ s₂ : Sign) (e₁ e₂ : Int) (h₁ : 0 < m₁) (h₂ : 0 < m₂) : ∃ n t acc,
    UnpackedFloat.div Format.binary64 (.finite s₁ m₁ e₁ h₁) (.finite s₂ m₂ e₂ h₂) =
      roundWithAccuracy Format.binary64 (s₁ / s₂) n t acc ∧
    Holds (ExtendedMantissa.ofMantissaAndAccuracy n acc) ((m₁ * 2 ^ e₁) / (m₂ * 2 ^ e₂) / 2 ^ t) ∧
    (n = 0 → t ≤ -1074) ∧ t ≤ Format.binary64.targetExponent (totalExponent n t) := by
  obtain ⟨t, ht⟩ : ∃ t, t = min (e₁ - e₂)
      (Format.binary64.targetExponent (totalExponent m₁ e₁ - totalExponent m₂ e₂)) := ⟨_, rfl⟩
  obtain ⟨k, hk⟩ : ∃ k : Nat, e₁ - e₂ - t = k := ⟨(e₁ - e₂ - t).toNat, by omega⟩
  have hbits : -1074 < t → 2 ^ 52 ≤ m₁ * 2 ^ k / m₂ := by
    intro hleast
    rw [targetExponent_eq] at ht
    exact quotient_bits h₁ h₂ (by omega) hk
  have hvalue : (m₁ : ℚ) * 2 ^ e₁ / (m₂ * 2 ^ e₂) / 2 ^ t = (m₁ * 2 ^ k : Nat) / m₂ := by
    have he : e₁ = k + t + e₂ := by omega
    have hm₂ : (m₂ : ℚ) ≠ 0 := by exact_mod_cast h₂.ne'
    rw [he, zpow_add₀ (by norm_num), zpow_add₀ (by norm_num), zpow_natCast]
    push_cast
    field_simp
  have hshift : (e₁ - e₂ - t).toNat = k := by omega
  refine ⟨m₁ * 2 ^ k / m₂, t, accuracyOfFraction (m₁ * 2 ^ k % m₂) m₂, ?_, ?_, ?_, ?_⟩
  · simp only [UnpackedFloat.div, divCore, ← ht, hshift, Nat.shiftLeft_eq]
  · rw [hvalue]
    exact holds_quotient _ h₂
  · intro hzero
    by_contra hleast
    have hle := hbits (by omega)
    omega
  · rw [targetExponent_eq, totalExponent]
    by_cases hleast : -1074 < t
    · have hle := hbits hleast
      have hlog : 52 ≤ (m₁ * 2 ^ k / m₂).log2 := (Nat.le_log2 (by omega)).mpr hle
      omega
    · omega

/-- A quotient that lies in the interval of a float is rounded to it. -/
theorem div_finite (hc : Canonical m q) (h₁ : 0 < m₁) (h₂ : 0 < m₂)
    (hx : Rounds m q ((m₁ * 2 ^ e₁) / (m₂ * 2 ^ e₂))) :
    UnpackedFloat.div Format.binary64 (.finite s₁ m₁ e₁ h₁) (.finite s₂ m₂ e₂ h₂) =
      .finite (s₁ / s₂) m q hc.pos := by
  obtain ⟨n, t, acc, hdiv, hholds, hzero, ht⟩ := div_rounded s₁ s₂ e₁ e₂ h₁ h₂
  rw [hdiv]
  exact roundWithAccuracy_eq hc hx hholds hzero ht

end Round

end FloorPlan.Number
