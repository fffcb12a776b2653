import FloorPlan.Proofs.Number.Figures
import FloorPlan.Proofs.Number.Packing

/-! # Written floats are read back

Reading the figures of a decimal in the interval of a float gives the float
(`ofScientific_eq`).  The shortest decimal of a float lies in its interval, so the text of every
float is read back as the float (`readFloat?_write`). -/

namespace FloorPlan.Number

open Float.Model Float.Model.UnpackedFloat

section Scientific

variable {m n : Nat} {q e : Int}

/-- A canonical float lies in its own interval. -/
theorem Canonical.rounds (hc : Canonical m q) : Rounds m q (m * 2 ^ q) := by
  have hm : (0 : ℚ) < m := by exact_mod_cast hc.pos
  have hpos : (0 : ℚ) < m * 2 ^ q := mul_pos hm (zpow_pos (by norm_num) q)
  apply rounds_of_near hc.pos hc.lt <;> rw [sub_self] <;> positivity

/-- What rounds to a float is at least half of the least float. -/
theorem Rounds.lower {x : ℚ} (hx : Rounds m q x) (hc : Canonical m q) : 2 ^ (-1075 : Int) ≤ x := by
  have hunit : (0 : ℚ) < 2 ^ q := zpow_pos (by norm_num) _
  have hone : (1 : ℚ) ≤ m := by exact_mod_cast hc.pos
  have hhalf : (2 : ℚ) ^ (-1075 : Int) = 2 ^ (-1074 : Int) * 2⁻¹ :=
    zpow_sub_one₀ two_ne_zero (-1074)
  have hleast : (2 : ℚ) ^ (-1074 : Int) ≤ 2 ^ q := zpow_le_zpow_right₀ (by norm_num) hc.least
  obtain ⟨hlow, -⟩ := hx.scaled hc.pos
  rw [le_div_iff₀ hunit] at hlow
  rw [hhalf]
  nlinarith

/-! ### Natural numbers and powers of ten as floats -/

/-- The mantissa and exponent of a natural number of at most 53 bits. -/
theorem canonical_ofNat (hn : 0 < n) (hlt : n < 2 ^ 53) :
    Canonical (n * 2 ^ (52 - n.log2)) (n.log2 - 52) := by
  have hlog : n.log2 < 53 := (Nat.log2_lt hn.ne').mpr hlt
  have hlow : 2 ^ n.log2 ≤ n := Nat.log2_self_le hn.ne'
  have hhigh : n < 2 ^ (n.log2 + 1) := Nat.lt_log2_self
  have hpow : ∀ a b : Nat, 2 ^ a * 2 ^ b = 2 ^ (a + b) := fun a b => (Nat.pow_add 2 a b).symm
  have hshift : 0 < 2 ^ (52 - n.log2) := Nat.pow_pos (by decide)
  refine ⟨Nat.mul_pos hn hshift, ?_, by omega, .inl ?_⟩
  · calc
      n * 2 ^ (52 - n.log2) < 2 ^ (n.log2 + 1) * 2 ^ (52 - n.log2) :=
        Nat.mul_lt_mul_of_pos_right hhigh hshift
      _ = 2 ^ 53 := by
        rw [hpow]
        congr 1
        omega
  · calc
      2 ^ 52 = 2 ^ n.log2 * 2 ^ (52 - n.log2) := by
        rw [hpow]
        congr 1
        omega
      _ ≤ n * 2 ^ (52 - n.log2) := Nat.mul_le_mul_right _ hlow

theorem ofNat_value (hlt : n.log2 < 53) :
    ((n * 2 ^ (52 - n.log2) : Nat) : ℚ) * 2 ^ ((n.log2 : Int) - 52) = n := by
  obtain ⟨k, hk⟩ : ∃ k : Nat, 52 - n.log2 = k := ⟨_, rfl⟩
  have hq : (n.log2 : Int) - 52 = -(k : Int) := by omega
  rw [hk, hq, zpow_neg, zpow_natCast]
  push_cast
  field_simp

/-- A natural number of at most 53 bits is a float. -/
theorem unpack_ofNat (hn : 0 < n) (hlt : n < 2 ^ 53) :
    UnpackedFloat.ofNat Format.binary64 n =
      .finite .positive (n * 2 ^ (52 - n.log2)) (n.log2 - 52) (canonical_ofNat hn hlt).pos := by
  have hlog : n.log2 < 53 := (Nat.log2_lt hn.ne').mpr hlt
  have hcompare : compare (n : Int) 0 = .gt := Int.compare_eq_gt.mpr (by omega)
  have htarget : Format.binary64.targetExponent (totalExponent n 0) = n.log2 - 52 := by
    rw [targetExponent_eq, totalExponent]
    omega
  have hshift : (0 - ((n.log2 : Int) - 52)).toNat = 52 - n.log2 := by omega
  have hexponent : (0 : Int) - (52 - n.log2 : Nat) = n.log2 - 52 := by omega
  have hc := canonical_ofNat hn hlt
  simp only [UnpackedFloat.ofNat, UnpackedFloat.ofInt, UnpackedFloat.normalize, hcompare,
    UnpackedFloat.round, Int.toNat_natCast, htarget, decreaseExponent, hshift, hexponent,
    Nat.shiftLeft_eq]
  have hunit : (2 : ℚ) ^ ((n.log2 : Int) - 52) ≠ 0 := zpow_ne_zero _ (by norm_num)
  have hbits : 52 ≤ (n * 2 ^ (52 - n.log2)).log2 :=
    (Nat.le_log2 hc.pos.ne').mpr (hc.full.resolve_right (by omega))
  apply roundWithAccuracy_eq hc hc.rounds
  · rw [mul_div_cancel_right₀ _ hunit]
    exact holds_exact _
  · intro hzero
    have hpos := hc.pos
    omega
  · rw [targetExponent_eq, totalExponent]
    omega

/-- A float that is a power of ten, with all bits of its mantissa used. -/
def isPower (k : Nat) (x : Float) : Bool :=
  match x.toModel.unpack with
  | .finite .positive m e _ => 2 ^ 52 ≤ m && (fraction m e).1 = 10 ^ k * (fraction m e).2
  | _ => false

theorem isPower_table : ∀ k (h : k < Float.exactlyRepresentablePowersOfTen.size),
    isPower k Float.exactlyRepresentablePowersOfTen[k] = true := by
  decide +kernel

theorem unpack_isPower {k : Nat} {x : Float} (h : isPower k x = true) :
    ∃ m e, ∃ hm : 0 < m, x.toModel.unpack = .finite .positive m e hm ∧ 2 ^ 52 ≤ m ∧
      (m : ℚ) * 2 ^ e = 10 ^ k := by
  unfold isPower at h
  split at h
  · next m e hm hunpack =>
      rw [Bool.and_eq_true, decide_eq_true_eq, decide_eq_true_eq] at h
      refine ⟨m, e, hm, hunpack, h.1, ?_⟩
      have hd : ((fraction m e).2 : ℚ) ≠ 0 := by exact_mod_cast (fraction_pos m e).ne'
      rw [← fraction_value, div_eq_iff hd, h.2]
      push_cast
      rfl
  · cases h

/-! ### Reading figures -/

theorem toModel_toFloat (hn : 0 < n) (hlt : n < 2 ^ 53) :
    n.toUInt64.toFloat.toModel.unpack =
      .finite .positive (n * 2 ^ (52 - n.log2)) (n.log2 - 52) (canonical_ofNat hn hlt).pos := by
  have hlog : n.log2 < 53 := (Nat.log2_lt hn.ne').mpr hlt
  have hsize : n.toUInt64.toNat = n := by
    rw [Nat.toUInt64, UInt64.toNat_ofNat']
    omega
  have hmodel : n.toUInt64.toFloat.toModel =
      Float.Model.pack (UnpackedFloat.ofNat Format.binary64 n.toUInt64.toNat) := rfl
  rw [hmodel, hsize, unpack_ofNat hn hlt, unpack_pack (canonical_ofNat hn hlt) (by omega)]

variable {a b : Float} {m₁ m₂ : Nat} {e₁ e₂ : Int} {h₁ : 0 < m₁} {h₂ : 0 < m₂}

/-- A product of positive floats that lies in the interval of a float. -/
theorem float_mul (hc : Canonical m q) (ha : a.toModel.unpack = .finite .positive m₁ e₁ h₁)
    (hb : b.toModel.unpack = .finite .positive m₂ e₂ h₂) (hbits : 2 ^ 52 ≤ m₁ * m₂)
    (hx : Rounds m q ((m₁ * 2 ^ e₁) * (m₂ * 2 ^ e₂))) :
    a * b = .ofModel (Float.Model.pack (.finite .positive m q hc.pos)) := by
  have hmul : a * b = .ofModel (Float.Model.pack
    (UnpackedFloat.mul Format.binary64 a.toModel.unpack b.toModel.unpack)) := rfl
  have hsign : Sign.positive * Sign.positive = .positive := rfl
  rw [hmul, ha, hb, mul_finite hc h₁ h₂ hbits hx, hsign]

/-- A quotient of positive floats that lies in the interval of a float. -/
theorem float_div (hc : Canonical m q) (ha : a.toModel.unpack = .finite .positive m₁ e₁ h₁)
    (hb : b.toModel.unpack = .finite .positive m₂ e₂ h₂)
    (hx : Rounds m q ((m₁ * 2 ^ e₁) / (m₂ * 2 ^ e₂))) :
    a / b = .ofModel (Float.Model.pack (.finite .positive m q hc.pos)) := by
  have hdiv : a / b = .ofModel (Float.Model.pack
    (UnpackedFloat.div Format.binary64 a.toModel.unpack b.toModel.unpack)) := rfl
  have hsign : Sign.positive / Sign.positive = .positive := rfl
  rw [hdiv, ha, hb, div_finite hc h₁ h₂ hx, hsign]

/-- The exponent of a sign and a number of places. -/
def placed (minus : Bool) (k : Nat) : Int := if minus then -(k : Int) else k

/-- A small mantissa and a small power of ten: one product or one quotient of floats. -/
theorem ofScientific_fast {minus : Bool} {k : Nat} (hc : Canonical m q) (hn : 0 < n)
    (hlt : n < 2 ^ 53) (hk : k ≤ 22) (hx : Rounds m q (n * 10 ^ placed minus k)) :
    Float.ofScientific n minus k = .ofModel (Float.Model.pack (.finite .positive m q hc.pos)) := by
  have hsize : k < Float.exactlyRepresentablePowersOfTen.size := by
    simp only [Float.exactlyRepresentablePowersOfTen, List.size_toArray, List.length_cons,
      List.length_nil]
    omega
  obtain ⟨m₂, e₂, h₂, hpower, hfull, hvalue⟩ := unpack_isPower (isPower_table k hsize)
  have hlog : n.log2 < 53 := (Nat.log2_lt hn.ne').mpr hlt
  have hfloat := toModel_toFloat hn hlt
  cases minus with
  | true =>
      have hdiv : Float.ofScientific n true k =
          n.toUInt64.toFloat / Float.exactlyRepresentablePowersOfTen[k] := dif_pos ⟨hlt, hk⟩
      have hplaced : placed true k = -(k : Int) := rfl
      rw [hplaced, zpow_neg, zpow_natCast, ← div_eq_mul_inv, ← hvalue, ← ofNat_value hlog] at hx
      rw [hdiv]
      exact float_div hc hfloat hpower hx
  | false =>
      have hmul : Float.ofScientific n false k =
          n.toUInt64.toFloat * Float.exactlyRepresentablePowersOfTen[k] := dif_pos ⟨hlt, hk⟩
      have hplaced : placed false k = (k : Int) := rfl
      have hpos := (canonical_ofNat hn hlt).pos
      have hbits : 2 ^ 52 ≤ n * 2 ^ (52 - n.log2) * m₂ :=
        hfull.trans (Nat.le_mul_of_pos_left m₂ hpos)
      rw [hplaced, zpow_natCast, ← hvalue, ← ofNat_value hlog] at hx
      rw [hmul]
      exact float_mul hc hfloat hpower hbits hx

/-- A decimal in the interval of a float has an exponent that the reader does not refuse: its value
is less than `2^1024`. -/
theorem exponent_le (hc : Canonical m q) (hq : q ≤ 971) (hn : 0 < n)
    (hx : Rounds m q (n * 10 ^ e)) : e ≤ 2 ^ 11 := by
  have hunit : (0 : ℚ) < 2 ^ q := zpow_pos (by norm_num) _
  obtain ⟨-, hhigh, -⟩ := hx.scaled hc.pos
  have hm : (m : ℚ) + 1 ≤ 2 ^ 53 := by exact_mod_cast hc.lt
  have hnq : (1 : ℚ) ≤ n := by exact_mod_cast hn
  rw [div_le_iff₀ hunit] at hhigh
  by_contra hlarge
  have hten : (2 : ℚ) ^ e ≤ 10 ^ e := zpow_le_zpow_left₀ (by omega) (by norm_num) (by norm_num)
  have hvalue : (2 : ℚ) ^ e < 2 ^ (53 + q) := by
    have hpow : (2 : ℚ) ^ (53 + q) = 2 ^ 53 * 2 ^ q := by
      rw [zpow_add₀ (by norm_num)]
      norm_num
    rw [hpow]
    nlinarith
  have hlog := (zpow_lt_zpow_iff_right₀ (by norm_num)).mp hvalue
  omega

/-- A decimal with an exponent that the reader refuses as too small is less than half of the least
float. -/
theorem scientific_lt (n : Nat) (hsmall : e < -(2 ^ 11 + (n.log2 : Int))) :
    (n : ℚ) * 10 ^ e < 2 ^ (-1075 : Int) := by
  have hnlt : (n : ℚ) < 2 ^ (n.log2 + 1) := by exact_mod_cast Nat.lt_log2_self
  have hten : (10 : ℚ) ^ e ≤ 2 ^ e := by
    obtain ⟨k, rfl⟩ : ∃ k : Nat, e = -(k : Int) := ⟨(-e).toNat, by omega⟩
    rw [zpow_neg, zpow_neg, zpow_natCast, zpow_natCast]
    gcongr
    norm_num
  calc
    (n : ℚ) * 10 ^ e ≤ 2 ^ (n.log2 + 1) * 2 ^ e := by gcongr
    _ = 2 ^ ((n.log2 : Int) + 1 + e) := by
      rw [zpow_add₀ (by norm_num)]
      norm_cast
    _ < 2 ^ (-1075 : Int) := zpow_lt_zpow_right₀ (by norm_num) (by omega)

/-- Any mantissa and any power of ten: the exact product or quotient. -/
theorem ofScientific_slow (hc : Canonical m q) (hlarge : e ≤ 2 ^ 11) (hn : 0 < n)
    (hx : Rounds m q (n * 10 ^ e)) :
    UnpackedFloat.ofScientific Format.binary64 n e = .finite .positive m q hc.pos := by
  have hsmall : -(2 ^ 11 + (n.log2 : Int)) ≤ e := by
    by_contra hsmall
    exact absurd (scientific_lt n (by omega)) (not_lt.mpr (hx.lower hc))
  have hmul : Sign.positive * Sign.positive = .positive := rfl
  have hdiv : Sign.positive / Sign.positive = .positive := rfl
  unfold UnpackedFloat.ofScientific
  rw [dif_neg hn.ne', if_neg (by simpa using hlarge), if_neg (by simpa using hsmall)]
  split
  · next hpos =>
      obtain ⟨k, rfl⟩ := Int.eq_ofNat_of_zero_le hpos
      have hbits : 2 ^ 52 ≤ n <<< 53 * 10 ^ k := by
        have hten : 0 < 10 ^ k := Nat.pow_pos (by decide)
        rw [Nat.shiftLeft_eq]
        nlinarith
      have hvalue : (((n <<< 53 : Nat) : ℚ) * 2 ^ (-53 : Int)) * ((10 ^ k : Nat) * 2 ^ (0 : Int)) =
          n * 10 ^ (k : Int) := by
        rw [Nat.shiftLeft_eq, zpow_neg, zpow_zero, zpow_natCast]
        push_cast
        field_simp
      rw [← hvalue] at hx
      calc
        _ = UnpackedFloat.finite (.positive * .positive) m q hc.pos :=
          mul_finite hc _ _ hbits hx
        _ = .finite .positive m q hc.pos := by rw [hmul]
  · next hneg =>
      obtain ⟨k, rfl⟩ : ∃ k : Nat, e = -(k : Int) := ⟨(-e).toNat, by omega⟩
      have hvalue : ((n : ℚ) * 2 ^ (0 : Int)) / ((10 ^ (- -(k : Int)).toNat : Nat) * 2 ^ (0 : Int)) =
          n * 10 ^ (-(k : Int)) := by
        rw [Int.neg_neg, Int.toNat_natCast, zpow_neg, zpow_zero, zpow_natCast]
        push_cast
        field_simp
      rw [← hvalue] at hx
      calc
        _ = UnpackedFloat.finite (.positive / .positive) m q hc.pos := div_finite hc _ _ hx
        _ = .finite .positive m q hc.pos := by rw [hdiv]

/-- Figures that are not few, or with many places. -/
theorem ofScientific_exact (h : ¬ (n < 2 ^ 53 ∧ e.natAbs ≤ 22)) :
    Float.ofScientific n (e < 0) e.natAbs =
      .ofModel (Float.Model.pack (UnpackedFloat.ofScientific Format.binary64 n e)) := by
  have hslow : Float.ofScientific n (e < 0) e.natAbs = .ofModel (Float.Model.pack
      (UnpackedFloat.ofScientific Format.binary64 n
        (if decide (e < 0) then Int.negOfNat e.natAbs else Int.ofNat e.natAbs))) :=
    dif_neg h
  have hexponent : (if decide (e < 0) then Int.negOfNat e.natAbs else Int.ofNat e.natAbs) = e := by
    split
    · next h =>
        have hneg := of_decide_eq_true h
        rw [Int.negOfNat_eq, Int.ofNat_eq_natCast]
        omega
    · next h =>
        have hpos : ¬ e < 0 := fun hneg => h (decide_eq_true hneg)
        rw [Int.ofNat_eq_natCast]
        omega
  rw [hslow, hexponent]

/-- Figures in the interval of a float are read as the float. -/
theorem ofScientific_eq (hc : Canonical m q) (hlarge : e ≤ 2 ^ 11) (hn : 0 < n)
    (hx : Rounds m q (n * 10 ^ e)) :
    Float.ofScientific n (e < 0) e.natAbs =
      .ofModel (Float.Model.pack (.finite .positive m q hc.pos)) := by
  have he : placed (e < 0) e.natAbs = e := by
    simp only [placed, decide_eq_true_eq]
    split <;> omega
  by_cases hfast : n < 2 ^ 53 ∧ e.natAbs ≤ 22
  · apply ofScientific_fast hc hn hfast.1 hfast.2
    rw [he]
    exact hx
  · rw [ofScientific_exact hfast, ofScientific_slow hc hlarge hn hx]

end Scientific

/-! ### Texts of floats -/

/-- The texts of the floats that have no figures. -/
def Layout.names (l : Layout) : List (List Char) :=
  [l.notANumber.toList, l.infinity.toList, '-' :: l.infinity.toList]

/-- The sign of a float as a flag. -/
def isNegative : Sign → Bool
  | .negative => true
  | .positive => false

theorem signText_toList (s : Sign) (cs : List Char) :
    (signText s ++ String.ofList cs).toList = Figures.signed (isNegative s) cs := by
  cases s <;> simp [signText, isNegative, Figures.signed]

/-- The text of a finite float is the sign and the figures of a decimal in its interval. -/
theorem decimal_shortest (l : Layout) {m : Nat} {q : Int} (hc : Canonical m q) :
    ∃ f : Figures, l.decimal (shortest m q) = f.text ∧ f.Proper ∧ Rounds m q f.value := by
  obtain ⟨f, htext, hf, hvalue⟩ := decimal_figures l (shortest_pos (q := q) hc.pos hc.lt)
  exact ⟨f, htext, hf, hvalue ▸ shortest_rounds hc.pos hc.lt⟩

/-- The text of a float is a name, or the sign and the figures of a number. -/
theorem write_cases (l : Layout) (x : Float) :
    (l.write x).toList ∈ l.names ∨
      ∃ minus f, Figures.Proper f ∧ (l.write x).toList = Figures.signed minus f.text := by
  unfold Layout.write
  split
  · exact .inl (by simp [Layout.names])
  · next s _ => cases s <;> exact .inl (by simp [Layout.names, signText])
  · next s _ =>
      refine .inr ⟨isNegative s, ⟨['0'], ['0'], none⟩, ?_, ?_⟩
      · constructor <;> simp
      · rw [← signText_toList]
        cases s <;> rfl
  · next s m q hm hunpack =>
      obtain ⟨f, htext, hf, -⟩ := decimal_shortest l (unpack_canonical hunpack).1
      exact .inr ⟨isNegative s, f, hf, by rw [htext, signText_toList]⟩

/-- The opposite of a positive float. -/
theorem neg_positive {m : Nat} {q : Int} (hc : Canonical m q) (hq : q ≤ 971) :
    -Float.ofModel (Float.Model.pack (.finite .positive m q hc.pos)) =
      .ofModel (Float.Model.pack (.finite .negative m q hc.pos)) := by
  have hneg : -Float.ofModel (Float.Model.pack (.finite .positive m q hc.pos)) = .ofModel
      (Float.Model.pack (Float.Model.pack (.finite .positive m q hc.pos)).unpack.neg) := rfl
  rw [hneg, unpack_pack hc hq]
  rfl

/-- Reading the text of a float gives the float. -/
theorem readFloat?_write (x : Float) : readFloat? (json.write x) = some x := by
  unfold Layout.write
  split
  · next hunpack =>
      rw [← ofModel_pack hunpack]
      decide +kernel
  · next s hunpack =>
      rw [← ofModel_pack hunpack]
      cases s <;> decide +kernel
  · next s hunpack =>
      rw [← ofModel_pack hunpack]
      cases s <;> decide +kernel
  · next s m q hm hunpack =>
      obtain ⟨hc, hq⟩ := unpack_canonical hunpack
      obtain ⟨f, htext, hf, hrounds⟩ := decimal_shortest json hc
      have hmantissa : 0 < f.mantissa := by
        have hpos := hrounds.pos hm
        by_contra hzero
        rw [Figures.value, show f.mantissa = 0 by omega, Nat.cast_zero, zero_mul] at hpos
        exact lt_irrefl 0 hpos
      have hsigned : signText s ++ String.ofList f.text =
          String.ofList (Figures.signed (isNegative s) f.text) := by
        rw [← signText_toList, String.ofList_toList]
      rw [htext, hsigned, Figures.readFloat?_signed _ hf, Figures.readUnsigned?_text hf,
        ofScientific_eq hc (exponent_le hc hq hmantissa hrounds) hmantissa hrounds, Option.map_some, ← ofModel_pack hunpack]
      cases s with
      | positive => rfl
      | negative => exact congrArg some (neg_positive hc hq)

end FloorPlan.Number
