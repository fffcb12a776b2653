import FloorPlan.Proofs.Number.ReadBack

/-! # The nearest float

Every number above half of the least float lies in the interval of one float (`exists_rounds`), so
reading a numeral and dividing two floats give the nearest float, zero below, and infinity above
the greatest one (`Correct`, `readFloat?_correct`, `div_correct`).  The distance of a point on the axis from the origin
is exact (`Valued.distance_eq`). -/

namespace FloorPlan.Number

open Float.Model Float.Model.UnpackedFloat

/-! ### Nearest mantissas -/

section Mantissa

variable {m : Nat} {q : Int} {x : ℚ}

theorem exists_nearest (hx : 0 ≤ x) : ∃ n, Nearest n x := by
  have hlow : (⌊x⌋₊ : ℚ) ≤ x := Nat.floor_le hx
  have hhigh : x < ⌊x⌋₊ + 1 := Nat.lt_floor_add_one x
  generalize ⌊x⌋₊ = n at hlow hhigh
  rcases lt_trichotomy x (n + 1 / 2) with hlt | hmiddle | hgt
  · refine ⟨n, ?_⟩
    unfold Nearest
    split <;> constructor <;> linarith
  · -- in the middle: the even neighbour
    rcases Nat.mod_two_eq_zero_or_one n with hn | hn
    · refine ⟨n, ?_⟩
      rw [Nearest, if_pos hn]
      constructor <;> linarith
    · refine ⟨n + 1, ?_⟩
      rw [Nearest, if_pos (by omega)]
      push_cast
      constructor <;> linarith
  · refine ⟨n + 1, ?_⟩
    unfold Nearest
    push_cast
    split <;> constructor <;> linarith

/-- A number rounds to the float of its nearest mantissa. -/
theorem Nearest.rounds (h : Nearest m (x / 2 ^ q)) (hm : 0 < m)
    (hpower : m = 2 ^ 52 → -1074 < q → (m : ℚ) - 1 / 4 ≤ x / 2 ^ q) : Rounds m q x := by
  have hunit : (0 : ℚ) < 2 ^ (q - 2) := zpow_pos (by norm_num) _
  have hx : x / 2 ^ q = x / 2 ^ (q - 2) / 4 := by
    rw [zpow_sub₀ (by norm_num)]
    field_simp
    norm_num
  have hhi : ((quarters m q).2 : ℚ) = 4 * m + 2 := by simp [quarters]
  rw [hx] at h hpower
  generalize hy : x / 2 ^ (q - 2) = y at h hpower
  have hxy : x = y * 2 ^ (q - 2) := by rw [← hy, div_mul_cancel₀ _ hunit.ne']
  simp only [Rounds, hxy, mul_le_mul_iff_left₀ hunit, mul_lt_mul_iff_left₀ hunit, hhi]
  have hparity : m = 2 ^ 52 → m % 2 = 0 := by
    rintro rfl
    norm_num
  unfold Nearest at h
  by_cases hp : m = 2 ^ 52 ∧ -1074 < q
  · have hquarters : (quarters m q).1 = 4 * m - 1 := if_pos hp
    have hlo : ((quarters m q).1 : ℚ) = 4 * m - 1 := by
      rw [hquarters, Nat.cast_sub (by omega)]
      push_cast
      rfl
    have hquarter := hpower hp.1 hp.2
    rw [if_pos (hparity hp.1)] at h ⊢
    rw [hlo]
    exact ⟨by linarith, by linarith [h.2]⟩
  · have hquarters : (quarters m q).1 = 4 * m - 2 := if_neg hp
    have hlo : ((quarters m q).1 : ℚ) = 4 * m - 2 := by
      rw [hquarters, Nat.cast_sub (by omega)]
      push_cast
      rfl
    rw [hlo]
    split at h
    · next heven =>
        rw [if_pos heven]
        exact ⟨by linarith [h.1], by linarith [h.2]⟩
    · next hodd =>
        rw [if_neg hodd]
        exact ⟨by linarith [h.1], by linarith [h.2]⟩

/-- Every number above half of the least float rounds to a float, if exponents are not bounded. -/
theorem exists_rounds (hx : 2 ^ (-1075 : Int) < x) : ∃ m q, Canonical m q ∧ Rounds m q x := by
  have hpos : 0 < x := lt_trans (zpow_pos (by norm_num) _) hx
  have hlow : (2 : ℚ) ^ Int.log 2 x ≤ x := by exact_mod_cast Int.zpow_log_le_self (by norm_num) hpos
  have hhigh : x < (2 : ℚ) ^ (Int.log 2 x + 1) := by
    exact_mod_cast Int.lt_zpow_succ_log_self (by norm_num) x
  generalize Int.log 2 x = t at hlow hhigh
  obtain ⟨q, hq⟩ : ∃ q, q = max (t - 52) (-1074) := ⟨_, rfl⟩
  have hunit : (0 : ℚ) < 2 ^ q := zpow_pos (by norm_num) _
  obtain ⟨n, hn⟩ := exists_nearest (div_nonneg hpos.le hunit.le)
  have hnear := hn.near
  have htop : x / 2 ^ q < 2 ^ 53 := by
    rw [div_lt_iff₀ hunit, ← zpow_natCast, ← zpow_add₀ (by norm_num)]
    exact hhigh.trans_le (zpow_le_zpow_right₀ (by norm_num) (by push_cast; omega))
  have hle : n ≤ 2 ^ 53 := by
    have hlt : (n : ℚ) < (2 ^ 53 + 1 : Nat) := by
      push_cast
      linarith
    exact Nat.lt_succ_iff.mp (by exact_mod_cast hlt)
  have hfull : -1074 < q → (2 : ℚ) ^ 52 ≤ x / 2 ^ q := by
    intro hleast
    have hbound : (2 : ℚ) ^ ((52 : Nat) + q) ≤ x :=
      le_trans (zpow_le_zpow_right₀ (by norm_num) (by push_cast; omega)) hlow
    rwa [zpow_add₀ (by norm_num), zpow_natCast, ← le_div_iff₀ hunit] at hbound
  rcases hle.eq_or_lt with hcarry | hlt
  · -- the mantissa carries into one more bit
    have hhalf : x / 2 ^ (q + 1) = x / 2 ^ q / 2 := by
      rw [zpow_add_one₀ (by norm_num), div_div]
    rw [hcarry] at hnear
    push_cast at hnear
    refine ⟨2 ^ 52, q + 1, ⟨by norm_num, by norm_num, by omega, .inl le_rfl⟩, ?_⟩
    apply Nearest.rounds
    · rw [Nearest, if_pos (by norm_num), hhalf]
      push_cast
      constructor <;> linarith
    · norm_num
    · intro _ _
      rw [hhalf]
      push_cast
      linarith
  · have hmantissa : -1074 < q → 2 ^ 52 ≤ n := by
      intro hleast
      have hbound : ((2 ^ 52 : Nat) : ℚ) < (n + 1 : Nat) := by
        push_cast
        linarith [hfull hleast]
      exact Nat.lt_succ_iff.mp (by exact_mod_cast hbound)
    have hn0 : 0 < n := by
      rcases eq_or_ne q (-1074) with hleast | hleast
      · have hhalf : (2 : ℚ) ^ (-1075 : Int) = 2 ^ (-1074 : Int) * 2⁻¹ :=
          zpow_sub_one₀ two_ne_zero (-1074)
        have hbound : (1 / 2 : ℚ) < x / 2 ^ q := by
          rw [lt_div_iff₀ hunit, hleast]
          rw [hhalf] at hx
          linarith
        by_contra hzero
        rw [show n = 0 by omega] at hnear
        push_cast at hnear
        linarith
      · have hbound := hmantissa (by omega)
        omega
    refine ⟨n, q, ⟨hn0, hlt, by omega, ?_⟩, ?_⟩
    · rcases eq_or_ne q (-1074) with hleast | hleast
      · exact .inr hleast
      · exact .inl (hmantissa (by omega))
    · apply hn.rounds hn0
      rintro rfl hleast
      push_cast
      linarith [hfull hleast]

end Mantissa

/-! ### Below the least float and above the greatest one -/

section Outside

variable {n m : Nat} {e q : Int} {acc : Accuracy} {s : Sign} {x : ℚ}

theorem shift_zero (e t : Int) : (UnpackedFloat.shiftToExponent 0 e .exact t).1.mantissa = 0 := by
  have hholds := (holds_exact 0).shiftRight (t - e).toNat
  have hle := hholds.mantissa_le.1
  rw [Nat.cast_zero, zero_div] at hle
  exact Nat.le_zero.mp (by exact_mod_cast hle)

/-- A number that is at most half of the least float is rounded to zero. -/
theorem roundWithAccuracy_zero (hpos : 0 ≤ x) (hx : x ≤ 2 ^ (-1075 : Int))
    (h : Holds (ExtendedMantissa.ofMantissaAndAccuracy n acc) (x / 2 ^ e))
    (hzero : n = 0 → e ≤ -1074)
    (he : e ≤ Format.binary64.targetExponent (totalExponent n e)) :
    roundWithAccuracy Format.binary64 s n e acc = .zero s := by
  have hunit : (0 : ℚ) < 2 ^ (-1074 : Int) := zpow_pos (by norm_num) _
  have hhalf : (2 : ℚ) ^ (-1075 : Int) = 2 ^ (-1074 : Int) * 2⁻¹ := zpow_sub_one₀ two_ne_zero (-1074)
  have htarget : Format.binary64.targetExponent (totalExponent n e) = -1074 := by
    have hle : totalExponent n e ≤ -1021 := by
      rcases Nat.eq_zero_or_pos n with hn | hn
      · have hlog := hzero hn
        rw [totalExponent, hn, Nat.log2_zero]
        omega
      · have hbound := (h.binade.2 hn).trans hx
        have hlog := (zpow_le_zpow_iff_right₀ (by norm_num)).mp hbound
        omega
    rw [targetExponent_eq]
    omega
  rw [htarget] at he
  obtain ⟨hholds, hexponent⟩ := h.shiftToExponent he
  have hrounded : (UnpackedFloat.shiftToExponent n e acc (-1074)).1.roundedMantissa = 0 := by
    apply hholds.rounded
    rw [hhalf] at hx
    rw [Nearest, if_pos rfl, le_div_iff₀ hunit, div_le_iff₀ hunit, Nat.cast_zero]
    constructor <;> linarith
  simp only [roundWithAccuracy, shiftToTargetExponent, htarget, hrounded, shift_zero, dite_true]

/-- A float above the greatest one is infinite. -/
theorem pack_infinite (hc : Canonical m q) (hq : 972 ≤ q) :
    Float.Model.pack (.finite s m q hc.pos) = Float.Model.pack (.infinity s) := by
  have hbiased : q + (Format.binary64.exponentBias : Int) + (52 : Nat) = q + 1075 := by
    rw [show (Format.binary64.exponentBias : Int) = 1023 from rfl]
    omega
  have hlarge : 2 ^ 11 ≤ (q + 1075).toNat + 1 := by omega
  have hpack : UnpackedFloat.pack Format.binary64 (.finite s m q hc.pos) =
      UnpackedFloat.pack Format.binary64 (.infinity s) := by
    simp only [UnpackedFloat.pack, hbiased, hlarge, if_true]
  simp only [Float.Model.pack, hpack]

end Outside

/-! ### Correct rounding -/

/-- A positive float and its value. -/
def Valued (x : Float) (v : ℚ) : Prop :=
  ∃ m q, ∃ hm : 0 < m, x.toModel.unpack = .finite .positive m q hm ∧ v = m * 2 ^ q

/-- The number `a` has the nearest float `v`. -/
def RoundsTo (a v : ℚ) : Prop := ∃ m q, Canonical m q ∧ q ≤ 971 ∧ Rounds m q a ∧ v = m * 2 ^ q

/-- The float `x` is what the number `a` is rounded to: zero up to half of the least float, infinity
above the greatest one, and else the nearest float. -/
structure Correct (a : ℚ) (x : Float) : Prop where
  zero : a ≤ 2 ^ (-1075 : Int) → x = 0
  nearest : ∀ v, RoundsTo a v → Valued x v
  infinite : 2 ^ (-1075 : Int) < a → (∀ v, ¬ RoundsTo a v) → x = 1 / 0

theorem correct_of_rounds {a : ℚ} {x : Float} (hzero : a ≤ 2 ^ (-1075 : Int) → x = 0)
    (h : ∀ m q, ∀ hc : Canonical m q, Rounds m q a →
      x = .ofModel (Float.Model.pack (.finite .positive m q hc.pos))) : Correct a x := by
  refine ⟨hzero, ?_, ?_⟩
  · rintro v ⟨m, q, hc, hq, hx, rfl⟩
    refine ⟨m, q, hc.pos, ?_, rfl⟩
    rw [h m q hc hx]
    exact unpack_pack hc hq
  · intro hlow hnone
    obtain ⟨m, q, hc, hx⟩ := exists_rounds hlow
    have hq : 972 ≤ q := by
      by_contra hq
      exact hnone _ ⟨m, q, hc, by omega, hx, rfl⟩
    rw [h m q hc hx, pack_infinite hc hq]
    decide +kernel

theorem Valued.unique {x : Float} {v w : ℚ} (h : Valued x v) (h' : Valued x w) : v = w := by
  obtain ⟨m, q, hm, hunpack, rfl⟩ := h
  obtain ⟨m', q', hm', hunpack', rfl⟩ := h'
  rw [hunpack] at hunpack'
  cases hunpack'
  rfl

/-- A number above half of the least float is rounded to a positive float or to infinity. -/
theorem Correct.valued_or_infinite {a : ℚ} {x : Float} (h : Correct a x)
    (hlow : 2 ^ (-1075 : Int) < a) :
    (∃ v, RoundsTo a v ∧ Valued x v) ∨ ((∀ v, ¬ RoundsTo a v) ∧ x = 1 / 0) := by
  by_cases hv : ∃ v, RoundsTo a v
  · obtain ⟨v, hv⟩ := hv
    exact .inl ⟨v, hv, h.nearest v hv⟩
  · have hnone : ∀ v, ¬ RoundsTo a v := fun v hv' => hv ⟨v, hv'⟩
    exact .inr ⟨hnone, h.infinite hlow hnone⟩

theorem Correct.cases {a : ℚ} {x : Float} (h : Correct a x) :
    x = 0 ∨ (∃ v, Valued x v) ∨ x = 1 / 0 := by
  rcases le_or_gt a (2 ^ (-1075 : Int)) with hsmall | hlow
  · exact .inl (h.zero hsmall)
  · rcases h.valued_or_infinite hlow with ⟨v, -, hv⟩ | ⟨-, hx⟩
    · exact .inr (.inl ⟨v, hv⟩)
    · exact .inr (.inr hx)

/-- The nearest float is less than half of itself away. -/
theorem RoundsTo.bounds {a v : ℚ} (h : RoundsTo a v) : 0 < v ∧ v ≤ 2 * a ∧ 2 * a ≤ 3 * v := by
  obtain ⟨m, q, hc, -, hx, rfl⟩ := h
  have hunit : (0 : ℚ) < 2 ^ q := zpow_pos (by norm_num) _
  have hone : (1 : ℚ) ≤ m := by exact_mod_cast hc.pos
  obtain ⟨hlow, hhigh, -⟩ := hx.scaled hc.pos
  rw [le_div_iff₀ hunit] at hlow
  rw [div_le_iff₀ hunit] at hhigh
  exact ⟨by positivity, by nlinarith, by nlinarith⟩

/-! ### The range of floats -/

section Range

variable {a b v : ℚ}

/-- What is rounded to a float is less than `2^1024` by half of the last place. -/
theorem RoundsTo.lt (h : RoundsTo a v) : a < (2 ^ 53 - 1 / 2) * 2 ^ (971 : Int) := by
  obtain ⟨m, q, hc, hq, hx, -⟩ := h
  have hunit : (0 : ℚ) < 2 ^ q := zpow_pos (by norm_num) _
  have hpow : (2 : ℚ) ^ q ≤ 2 ^ (971 : Int) := zpow_le_zpow_right₀ (by norm_num) hq
  obtain ⟨-, hhigh, hodd, -⟩ := hx.scaled hc.pos
  have hscaled : a / 2 ^ q < 2 ^ 53 - 1 / 2 := by
    rcases (Nat.le_sub_one_of_lt hc.lt).eq_or_lt with hm | hm
    · have hlt := (hodd (by rw [hm]; norm_num)).2
      rw [hm] at hlt
      norm_num at hlt ⊢
      linarith
    · have hle : (m : ℚ) + 2 ≤ 2 ^ 53 := by exact_mod_cast (by omega : m + 2 ≤ 2 ^ 53)
      linarith
  rw [div_lt_iff₀ hunit] at hscaled
  nlinarith

/-- What is rounded to a mantissa with an exponent above the greatest one is at least that. -/
theorem Rounds.ge {m : Nat} {q : Int} (hx : Rounds m q a) (hc : Canonical m q) (hq : 972 ≤ q) :
    (2 ^ 53 - 1 / 2) * 2 ^ (971 : Int) ≤ a := by
  have hunit : (0 : ℚ) < 2 ^ q := zpow_pos (by norm_num) _
  have hpow : (2 : ℚ) ^ (972 : Int) ≤ 2 ^ q := zpow_le_zpow_right₀ (by norm_num) hq
  have hdouble : (2 : ℚ) ^ (972 : Int) = 2 ^ (971 : Int) * 2 := zpow_add_one₀ two_ne_zero 971
  obtain ⟨hlow, -, -, hpower⟩ := hx.scaled hc.pos
  have hfull : 2 ^ 52 ≤ m := hc.full.resolve_right (by omega)
  have hscaled : (2 : ℚ) ^ 52 - 1 / 4 ≤ a / 2 ^ q := by
    rcases hfull.eq_or_lt with hm | hm
    · have hge := hpower hm.symm (by omega)
      rw [← hm] at hge
      exact_mod_cast hge
    · have hle : (2 : ℚ) ^ 52 + 1 ≤ m := by exact_mod_cast hm
      linarith
  rw [le_div_iff₀ hunit] at hscaled
  rw [hdouble] at hpow
  nlinarith

/-- The numbers with a nearest float form an interval. -/
theorem exists_roundsTo (h : RoundsTo a v) (hlow : 2 ^ (-1075 : Int) < b) (hle : b ≤ a) :
    ∃ w, RoundsTo b w := by
  obtain ⟨m, q, hc, hx⟩ := exists_rounds hlow
  refine ⟨_, m, q, hc, ?_, hx, rfl⟩
  by_contra hq
  have hge := hx.ge hc (by omega)
  have hlt := h.lt
  linarith

/-- The nearest float differs from a number by less than a `2^52`-th of it, if that is not too
small. -/
theorem RoundsTo.near (h : RoundsTo a v) (ha : 2 ^ (-1022 : Int) ≤ a) :
    a * (1 - 1 / 2 ^ 52) ≤ v ∧ v ≤ a * (1 + 1 / 2 ^ 52) := by
  obtain ⟨m, q, hc, -, hx, rfl⟩ := h
  have hunit : (0 : ℚ) < 2 ^ q := zpow_pos (by norm_num) _
  obtain ⟨hlow, hhigh, -⟩ := hx.scaled hc.pos
  have hfull : (2 : ℚ) ^ 52 - 1 / 2 ≤ a / 2 ^ q := by
    rcases hc.full with hm | hq
    · have hle : (2 : ℚ) ^ 52 ≤ m := by exact_mod_cast hm
      linarith
    · have hsplit : (2 : ℚ) ^ (-1022 : Int) = 2 ^ 52 * 2 ^ (-1074 : Int) := by
        rw [← zpow_natCast, ← zpow_add₀ two_ne_zero]
        norm_num
      rw [hsplit, ← hq, ← le_div_iff₀ hunit] at ha
      linarith
  have hvalue : a = a / 2 ^ q * 2 ^ q := (div_mul_cancel₀ a hunit.ne').symm
  generalize a / 2 ^ q = t at hvalue hlow hhigh hfull
  rw [hvalue, mul_right_comm t (2 ^ q), mul_right_comm t (2 ^ q)]
  constructor <;> refine mul_le_mul_of_nonneg_right ?_ hunit.le <;> norm_num at hfull ⊢ <;> linarith

/-- A number of at most 53 bits, at a place in the range, is its own nearest float. -/
theorem roundsTo_scaled {n : Nat} {e : Int} (hn : 0 < n) (hlt : n < 2 ^ 53) (hlow : -1022 ≤ e)
    (hhigh : e ≤ 971) : RoundsTo (n * 2 ^ e) (n * 2 ^ e) := by
  have hlog : n.log2 < 53 := (Nat.log2_lt hn.ne').mpr hlt
  have hbits := canonical_ofNat hn hlt
  have hc : Canonical (n * 2 ^ (52 - n.log2)) (n.log2 - 52 + e) :=
    ⟨hbits.pos, hbits.lt, by omega, .inl (hbits.full.resolve_right (by omega))⟩
  have hvalue : ((n * 2 ^ (52 - n.log2) : Nat) : ℚ) * 2 ^ ((n.log2 : Int) - 52 + e) =
      n * 2 ^ e := by
    rw [zpow_add₀ two_ne_zero, ← mul_assoc, ofNat_value hlog]
  have hx := hc.rounds
  rw [hvalue] at hx
  exact ⟨_, _, hc, by omega, hx, hvalue.symm⟩

theorem roundsTo_natCast {n : Nat} (hn : 0 < n) (hlt : n < 2 ^ 53) : RoundsTo n n := by
  have h := roundsTo_scaled hn hlt (by norm_num : -1022 ≤ (0 : Int)) (by norm_num)
  rwa [zpow_zero, mul_one] at h

end Range

/-! ### Quotients and decimals -/

section Operations

variable {a b : Float} {u v : ℚ} {n : Nat} {e : Int}

/-- A quotient of positive floats is rounded correctly. -/
theorem div_correct (ha : Valued a u) (hb : Valued b v) : Correct (u / v) (a / b) := by
  obtain ⟨m₁, e₁, h₁, ha, rfl⟩ := ha
  obtain ⟨m₂, e₂, h₂, hb, rfl⟩ := hb
  refine correct_of_rounds (fun hsmall => ?_) fun m q hc hx => float_div hc ha hb hx
  have hdiv : a / b = .ofModel (Float.Model.pack
    (UnpackedFloat.div Format.binary64 a.toModel.unpack b.toModel.unpack)) := rfl
  obtain ⟨n, t, acc, hquotient, hholds, hzero, ht⟩ := div_rounded .positive .positive e₁ e₂ h₁ h₂
  have hpos : (0 : ℚ) ≤ m₁ * 2 ^ e₁ / (m₂ * 2 ^ e₂) := by positivity
  rw [hdiv, ha, hb, hquotient, roundWithAccuracy_zero hpos hsmall hholds hzero ht]
  decide +kernel

/-- No decimal with few places is as small as the least float. -/
theorem lt_scientific (hn : 0 < n) (he : -22 ≤ e) : (2 : ℚ) ^ (-1075 : Int) < n * 10 ^ e := by
  have hnq : (1 : ℚ) ≤ n := by exact_mod_cast hn
  have hten : (0 : ℚ) < 10 ^ (-22 : Int) := zpow_pos (by norm_num) _
  calc
    (2 : ℚ) ^ (-1075 : Int) < 2 ^ (-100 : Int) := zpow_lt_zpow_right₀ (by norm_num) (by norm_num)
    _ < 10 ^ (-22 : Int) := by norm_num
    _ ≤ 10 ^ e := zpow_le_zpow_right₀ (by norm_num) he
    _ ≤ n * 10 ^ e := le_mul_of_one_le_left (zpow_pos (by norm_num) e).le hnq

theorem ofScientific_zero (minus : Bool) (k : Nat) : Float.ofScientific 0 minus k = 0 := by
  by_cases hfast : k ≤ 22
  · have htable : ∀ k < 23, ∀ minus, Float.ofScientific 0 minus k = 0 := by decide +kernel
    exact htable k (by omega) minus
  · have hslow : Float.ofScientific 0 minus k = .ofModel (Float.Model.pack
        (UnpackedFloat.ofScientific Format.binary64 0
          (if minus then Int.negOfNat k else Int.ofNat k))) := dif_neg fun h => hfast h.2
    rw [hslow, UnpackedFloat.ofScientific, dif_pos rfl]
    decide +kernel

/-- Figures without an exponent of their own are rounded correctly. -/
theorem ofScientific_correct (n : Nat) (he : e ≤ 0) :
    Correct (n * 10 ^ e) (Float.ofScientific n (e < 0) e.natAbs) := by
  rcases Nat.eq_zero_or_pos n with rfl | hn
  · rw [ofScientific_zero]
    refine correct_of_rounds (fun _ => rfl) fun m q hc hx => ?_
    have hpos := hx.pos hc.pos
    rw [Nat.cast_zero, zero_mul] at hpos
    exact absurd hpos (lt_irrefl 0)
  refine correct_of_rounds (fun hsmall => ?_) fun m q hc hx => ofScientific_eq hc (by omega) hn hx
  have hplaces : e < -22 := by
    by_contra hfew
    exact absurd (lt_scientific hn (by omega)) (not_lt.mpr hsmall)
  have hzero : UnpackedFloat.ofScientific Format.binary64 n e = .zero .positive := by
    unfold UnpackedFloat.ofScientific
    have hlarge : ¬ e > 2 ^ Format.binary64.exponentBits := by
      rw [show Format.binary64.exponentBits = 11 from rfl]
      omega
    rw [dif_neg hn.ne', if_neg hlarge]
    split
    · rfl
    rw [if_neg (by omega)]
    obtain ⟨k, t, acc, hquotient, hholds, hzero, ht⟩ := div_rounded .positive .positive 0 0 hn
      (Nat.pow_pos (by decide) : 0 < 10 ^ (-e).toNat)
    have hvalue : (n : ℚ) * 2 ^ (0 : Int) / ((10 ^ (-e).toNat : Nat) * 2 ^ (0 : Int)) = n * 10 ^ e := by
      obtain ⟨j, rfl⟩ : ∃ j : Nat, e = -(j : Int) := ⟨(-e).toNat, by omega⟩
      rw [Int.neg_neg, Int.toNat_natCast, zpow_neg, zpow_zero, zpow_natCast]
      push_cast
      field_simp
    rw [hvalue] at hholds
    have hpos : (0 : ℚ) ≤ n * 10 ^ e := by positivity
    rw [hquotient, roundWithAccuracy_zero hpos hsmall hholds hzero ht]
    rfl
  rw [ofScientific_exact (by omega), hzero]
  decide +kernel

end Operations

/-! ### Numerals -/

/-- The value of a numeral: its whole part and its fraction. -/
def numeralValue (cs : List Char) : ℚ :=
  let fraction := (cs.dropWhile Char.isDigit).drop 1
  decimalValue (cs.takeWhile Char.isDigit) + decimalValue fraction / 10 ^ fraction.length

/-- A numeral is read as its digits, scaled by its places. -/
theorem readUnsigned?_numeral {cs : List Char} (h : IsNumeral cs) : ∃ (n : Nat) (e : Int), e ≤ 0 ∧
    readUnsigned? cs = some (Float.ofScientific n (e < 0) e.natAbs) ∧
    numeralValue cs = n * 10 ^ e := by
  have hnil : ∀ c ∈ ([] : List Char).head?, c.isDigit = false := by simp
  cases h with
  | whole hne hd =>
      obtain ⟨htake, hdrop⟩ := takeWhile_isDigit hd hnil
      rw [List.append_nil] at htake hdrop
      refine ⟨decimalValue cs, 0, le_rfl, ?_, ?_⟩
      · simp [readUnsigned?, htake, hdrop, hne, readExponent?]
      · simp [numeralValue, htake, hdrop, decimalValue]
  | @point ds es hne hd _ he =>
      have hdot : ∀ c ∈ ('.' :: es).head?, c.isDigit = false := by simp
      obtain ⟨htake, hdrop⟩ := takeWhile_isDigit hd hdot
      obtain ⟨htake', hdrop'⟩ := takeWhile_isDigit he hnil
      rw [List.append_nil] at htake' hdrop'
      refine ⟨decimalValue (ds ++ es), -(es.length : Int), by omega, ?_, ?_⟩
      · simp [readUnsigned?, htake, hdrop, htake', hdrop', hne, readExponent?]
      · simp only [numeralValue, htake, hdrop, List.drop_succ_cons, List.drop_zero,
          decimalValue_append, zpow_neg, zpow_natCast]
        push_cast
        field_simp

/-- Reading a numeral gives its value, rounded correctly. -/
theorem readFloat?_correct {text : String} (h : IsNumeral text.toList) :
    ∃ x, readFloat? text = some x ∧ Correct (numeralValue text.toList) x := by
  obtain ⟨n, e, he, hread, hvalue⟩ := readUnsigned?_numeral h
  refine ⟨_, (readFloat?_numeral h).trans hread, ?_⟩
  rw [hvalue]
  exact ofScientific_correct n he

/-! ### Whole parts and distances -/

section Exact

variable {x y : Float} {u v : ℚ} {m : Nat} {q : Int}

theorem Valued.floor_eq (h : Valued x v) : floor x = .ok ⌊v⌋ := by
  obtain ⟨m, q, hm, hunpack, rfl⟩ := h
  unfold floor
  rw [hunpack]
  have hfloor := Rat.floor_intCast_div_natCast ((fraction m q).1 : Int) (fraction m q).2
  rw [Int.cast_natCast, fraction_value] at hfloor
  rw [hfloor]
  rfl

/-- The whole part of a quotient of floats is that of its nearest float. -/
theorem floor_div (hx : Valued x u) (hy : Valued y v)
    (hlow : 2 ^ (-1075 : Int) < u / v) (n : Nat) :
    floor (x / y) = .ok n ↔ ∃ q, RoundsTo (u / v) q ∧ n ≤ q ∧ q < n + 1 := by
  have hcorrect := div_correct hx hy
  rcases hcorrect.valued_or_infinite hlow with ⟨q, hq, hvalued⟩ | ⟨hnone, hinfinite⟩
  · rw [hvalued.floor_eq, Except.ok.injEq, Int.floor_eq_iff, Int.cast_natCast]
    constructor
    · exact fun hn => ⟨q, hq, hn⟩
    · rintro ⟨q', hq', hn⟩
      rwa [hvalued.unique (hcorrect.nearest q' hq')]
  · have hfloor : floor (1 / 0) = .error .infinite := by decide +kernel
    rw [hinfinite, hfloor]
    constructor
    · exact nofun
    · rintro ⟨q, hq, -⟩
      exact absurd hq (hnone q)

/-- The root of a square is exact. -/
theorem sqrt_square (hc : Canonical m q) {n k : Nat} {e : Int} (hn : 0 < n) (hk : 2 * q - e = k)
    (hsquare : n = m * m * 2 ^ k) :
    UnpackedFloat.sqrt Format.binary64 (.finite .positive n e hn) = .finite .positive m q hc.pos := by
  obtain ⟨t, ht⟩ : ∃ t, t = min (e.ediv 2)
      (Format.binary64.targetExponent ((totalExponent n e + 1).ediv 2)) := ⟨_, rfl⟩
  have htq : t ≤ q := by
    have hhalf : e.ediv 2 = e / 2 := rfl
    omega
  obtain ⟨j, hj⟩ : ∃ j : Nat, q - t = j := ⟨(q - t).toNat, by omega⟩
  obtain ⟨i, hi⟩ : ∃ i : Nat, e - 2 * t = i := ⟨(e - 2 * t).toNat, by
    have hhalf : e.ediv 2 = e / 2 := rfl
    omega⟩
  have hroot : n * 2 ^ i = m * 2 ^ j * (m * 2 ^ j) := by
    have hexponents : k + i = j + j := by omega
    calc
      n * 2 ^ i = m * m * 2 ^ (k + i) := by rw [hsquare, Nat.pow_add, Nat.mul_assoc]
      _ = m * 2 ^ j * (m * 2 ^ j) := by
        rw [hexponents, Nat.pow_add]
        ring
  have hshift : (e - 2 * t).toNat = i := by omega
  have hcore : sqrtCore Format.binary64 n e = (m * 2 ^ j, t, .exact) := by
    simp only [sqrtCore, ← ht, hshift, Nat.shiftLeft_eq, hroot, Nat.sqrt_eq, Nat.sub_self, if_true]
  simp only [UnpackedFloat.sqrt, hcore]
  have hvalue : (m : ℚ) * 2 ^ q / 2 ^ t = (m * 2 ^ j : Nat) := by
    have hq : q = j + t := by omega
    rw [hq, zpow_add₀ (by norm_num), zpow_natCast]
    push_cast
    field_simp
  have hmantissa : 0 < m * 2 ^ j := Nat.mul_pos hc.pos (Nat.pow_pos (by decide))
  apply roundWithAccuracy_eq hc hc.rounds
  · rw [hvalue]
    exact holds_exact _
  · intro hzero
    omega
  · rw [targetExponent_eq, totalExponent]
    rcases hc.full with hfull | hleast
    · have hbits : 2 ^ (52 + j) ≤ m * 2 ^ j := by
        rw [Nat.pow_add]
        exact Nat.mul_le_mul_right _ hfull
      have hlog := (Nat.le_log2 hmantissa.ne').mpr hbits
      omega
    · omega

/-- The distance of a point on the axis from the origin is exact. -/
theorem Valued.distance_eq (h : Valued x v) : distance x 0 = x := by
  obtain ⟨m, q, hm, hunpack, -⟩ := h
  obtain ⟨hc, hq⟩ := unpack_canonical hunpack
  have hfinite : x.isInf = false ∧ x.isNaN = false := by
    unfold Float.isInf Float.isNaN Float.Model.isInf Float.Model.isNaN
    rw [hunpack]
    exact ⟨rfl, rfl⟩
  have hzero : Float.isInf 0 = false ∧ Float.isNaN 0 = false := by decide +kernel
  have hsquare : square 0 = (0, 0) := by decide +kernel
  have hsquare' : square x = (m * m, 2 * q) := by
    unfold square
    rw [hunpack]
  obtain ⟨k, hk⟩ : ∃ k : Nat, 2 * q - min (2 * q) 0 = k := ⟨(2 * q - min (2 * q) 0).toNat, by omega⟩
  have hadd : addDyadic (square x) (square 0) = (m * m * 2 ^ k, min (2 * q) 0) := by
    have hshift : (2 * q - min (2 * q) 0).toNat = k := by omega
    simp only [addDyadic, hsquare, hsquare', hshift, Nat.zero_mul, Nat.add_zero, Nat.pow_eq]
  have hpos : 0 < m * m * 2 ^ k :=
    Nat.mul_pos (Nat.mul_pos hm hm) (Nat.pow_pos (by decide))
  unfold distance
  simp only [hfinite.1, hfinite.2, hzero.1, hzero.2, hadd, Bool.or_self, Bool.false_eq_true, if_false]
  rw [nearestSqrt, dif_pos hpos, sqrt_square hc hpos hk rfl, ofModel_pack hunpack]

theorem Valued.sub_zero (h : Valued x v) : x - 0 = x := by
  obtain ⟨m, q, hm, hunpack, -⟩ := h
  have hsub : x - 0 = .ofModel (Float.Model.pack
    (UnpackedFloat.sub Format.binary64 x.toModel.unpack (.zero .positive))) := rfl
  rw [hsub, hunpack]
  exact ofModel_pack hunpack

theorem Valued.zero_div (h : Valued x v) : 0 / x = 0 := by
  obtain ⟨m, q, hm, hunpack, -⟩ := h
  have hdiv : 0 / x = .ofModel (Float.Model.pack
    (UnpackedFloat.div Format.binary64 (.zero .positive) x.toModel.unpack)) := rfl
  rw [hdiv, hunpack]
  rfl

theorem Valued.infinite_div (h : Valued x v) : 1 / 0 / x = 1 / 0 := by
  obtain ⟨m, q, hm, hunpack, -⟩ := h
  have hdiv : 1 / 0 / x = .ofModel (Float.Model.pack
    (UnpackedFloat.div Format.binary64 (.infinity .positive) x.toModel.unpack)) := rfl
  rw [hdiv, hunpack]
  rfl

theorem Valued.not_le_zero (h : Valued x v) : ¬ x ≤ 0 := by
  obtain ⟨m, q, hm, hunpack, -⟩ := h
  intro hle
  have hcompare : x.toModel.unpack.le (.zero .positive) = true := of_decide_eq_true hle
  rw [hunpack] at hcompare
  cases hcompare

end Exact

end FloorPlan.Number
