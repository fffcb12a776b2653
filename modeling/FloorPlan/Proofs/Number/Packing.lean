import FloorPlan.Proofs.Number.Rounding
import FloorPlan.Proofs.Number.Values

/-! # Packing floats

A float is its sign, mantissa and exponent: unpacking gives canonical ones
(`unpack_canonical`), packing them gives the float back (`pack_unpack`), and canonical ones that a
float can hold survive packing (`unpack_pack`).  So floats are compared by the numbers that they are
(`beq_iff`). -/

namespace FloorPlan.Number

open Float.Model Float.Model.UnpackedFloat

/-! ### Components of a bit pattern -/

theorem append_toNat {v w : Nat} (a : BitVec v) (b : BitVec w) :
    (a ++ b).toNat = a.toNat * 2 ^ w + b.toNat := by
  rw [BitVec.toNat_append, ← Nat.shiftLeft_add_eq_or_of_lt b.isLt, Nat.shiftLeft_eq]

/-- The exponent bits of a pattern that is neither infinite nor undefined. -/
theorem toNat_lt_of_ne {e : BitVec 11} (h : e ≠ -1#11) : e.toNat < 2047 := by
  have he := e.isLt
  have hne : e.toNat ≠ 2047 := fun hn => h (BitVec.eq_of_toNat_eq (hn.trans (by decide)))
  omega

/-- The mantissa of a pattern with all its bits. -/
theorem implicit_toNat (m : BitVec 52) : (1#1 ++ m).toNat = 2 ^ 52 + m.toNat := by
  rw [append_toNat]
  rfl

/-! ### Unpacking and packing -/

/-- The float of a sign, exponent bits and mantissa bits. -/
def assembled (s : Sign) (e : BitVec 11) (m : BitVec 52) : UnpackedFloat :=
  if e = -1#11 then if m = 0#52 then .infinity s else .notANumber
  else if e = 0#11 then
    if h : m.toNat = 0 then .zero s else .finite s m.toNat (-1074) (Nat.pos_of_ne_zero h)
  else .finite s (2 ^ 52 + m.toNat) (e.toNat - 1075) (by omega)

theorem toNat_eq_zero_iff {w : Nat} {b : BitVec w} : b.toNat = 0 ↔ b = 0#w := by
  rw [← BitVec.toNat_inj, BitVec.toNat_zero]

theorem unpack_eq (b : BitVec 64) :
    UnpackedFloat.unpack Format.binary64 b =
      assembled (Sign.ofBitVec (@unpackSign Format.binary64 b))
        (@unpackExponent Format.binary64 b) (@unpackMantissa Format.binary64 b) := by
  have hbias : ((Format.binary64.exponentBias : Int) + (52 : Nat)) = 1075 := rfl
  simp only [UnpackedFloat.unpack, assembled, toNat_eq_zero_iff, hbias, implicit_toNat]
  split
  · rfl
  split
  · next hzero =>
      split
      · rfl
      · congr 1
        rw [hzero]
        rfl
  · rfl

/-- Assembled mantissas and exponents are canonical. -/
theorem assembled_canonical {s s' : Sign} {e : BitVec 11} {m : BitVec 52} {n : Nat} {q : Int}
    {hn : 0 < n} (h : assembled s e m = .finite s' n q hn) : Canonical n q ∧ q ≤ 971 := by
  have hm := m.isLt
  unfold assembled at h
  split at h
  · split at h <;> cases h
  next hfinite =>
  have he := toNat_lt_of_ne hfinite
  split at h
  · split at h
    · cases h
    · cases h
      exact ⟨⟨hn, by omega, le_refl _, .inr rfl⟩, by norm_num⟩
  next hzero =>
  have hpos : e.toNat ≠ 0 := fun h => hzero (toNat_eq_zero_iff.mp h)
  cases h
  exact ⟨⟨hn, by omega, by omega, .inl (by omega)⟩, by omega⟩

/-- The bits of a canonical float that is not too large. -/
theorem pack_canonical {s : Sign} {m : Nat} {q : Int} (hc : Canonical m q) (hq : q ≤ 971) :
    UnpackedFloat.pack Format.binary64 (.finite s m q hc.pos) =
      packComponents Format.binary64 s
        (if 2 ^ 52 ≤ m then BitVec.ofNat 11 (q + 1075).toNat else 0#11) (BitVec.ofNat 52 m) := by
  have hleast := hc.least
  have hbiased : q + (Format.binary64.exponentBias : Int) + (52 : Nat) = q + 1075 := by
    rw [show (Format.binary64.exponentBias : Int) = 1023 from rfl]
    omega
  have hlt : ¬ 2 ^ 11 ≤ (q + 1075).toNat + 1 := by omega
  have hlog : m.log2 + 1 = Format.binary64.mantissaBits ↔ 2 ^ 52 ≤ m := by
    have hlt := (Nat.log2_lt hc.pos.ne').mpr hc.lt
    rw [← Nat.le_log2 hc.pos.ne', show Format.binary64.mantissaBits = 53 from rfl]
    omega
  simp only [UnpackedFloat.pack, hbiased, hlt, if_false, hlog]
  split <;> rfl

/-- Unpacking gives canonical mantissas and exponents. -/
theorem unpack_canonical {v : Float.Model} {s : Sign} {m : Nat} {q : Int} {hm : 0 < m}
    (h : v.unpack = .finite s m q hm) : Canonical m q ∧ q ≤ 971 := by
  rw [Float.Model.unpack, unpack_eq] at h
  exact assembled_canonical h

/-- Packing gives back what was unpacked. -/
theorem pack_unpack (v : Float.Model) : Float.Model.pack v.unpack = v := by
  obtain ⟨bits, hvalid⟩ := v
  have hpack : UnpackedFloat.pack Format.binary64
      (UnpackedFloat.unpack Format.binary64 bits.toBitVec) = bits.toBitVec :=
    pack_unpack_of_valid hvalid
  simp only [Float.Model.pack, Float.Model.unpack, hpack]

theorem ofModel_pack {x : Float} {u : UnpackedFloat} (h : x.toModel.unpack = u) :
    .ofModel (Float.Model.pack u) = x := by
  rw [← h, pack_unpack]

/-- Canonical mantissas and exponents survive packing. -/
theorem unpack_pack {s : Sign} {m : Nat} {q : Int} (hc : Canonical m q) (hq : q ≤ 971) :
    (Float.Model.pack (.finite s m q hc.pos)).unpack = .finite s m q hc.pos := by
  have hleast := hc.least
  have hlt := hc.lt
  have hbits : (Float.Model.pack (.finite s m q hc.pos)).unpack =
      UnpackedFloat.unpack Format.binary64
        (UnpackedFloat.pack Format.binary64 (.finite s m q hc.pos)) := rfl
  rw [hbits, pack_canonical hc hq, unpack_eq, unpackSign_packComponents, Sign.ofBitVec_toBitVec,
    unpackExponent_packComponents, unpackMantissa_packComponents]
  have hmantissa : (BitVec.ofNat 52 m).toNat = m % 2 ^ 52 := BitVec.toNat_ofNat m 52
  by_cases hfull : 2 ^ 52 ≤ m
  · have hexponent : (BitVec.ofNat 11 (q + 1075).toNat).toNat = (q + 1075).toNat := by
      rw [BitVec.toNat_ofNat]
      omega
    have hinfinite : BitVec.ofNat 11 (q + 1075).toNat ≠ -1#11 := by
      intro h
      have hn := congrArg BitVec.toNat h
      rw [hexponent, show (-1#11).toNat = 2047 from rfl] at hn
      omega
    have hzero : BitVec.ofNat 11 (q + 1075).toNat ≠ 0#11 := by
      intro h
      have hn := toNat_eq_zero_iff.mpr h
      omega
    rw [if_pos hfull, assembled, if_neg hinfinite, if_neg hzero, UnpackedFloat.finite.injEq]
    exact ⟨rfl, by omega, by omega⟩
  · have hinfinite : 0#11 ≠ -1#11 := by decide
    have hne : (BitVec.ofNat 52 m).toNat ≠ 0 := by
      have hpos := hc.pos
      omega
    have hq : q = -1074 := hc.full.resolve_left hfull
    rw [if_neg hfull, assembled, if_neg hinfinite, if_pos rfl, dif_neg hne,
      UnpackedFloat.finite.injEq]
    exact ⟨rfl, by omega, hq.symm⟩

/-! ### Equality -/

/-- A number has one canonical mantissa and exponent. -/
theorem Canonical.unique {m m' : Nat} {q q' : Int} (h : Canonical m q) (h' : Canonical m' q')
    (hvalue : (m : ℚ) * 2 ^ q = m' * 2 ^ q') : m = m' ∧ q = q' := by
  -- the one with the greater exponent would need too large a mantissa for the other exponent
  have hle : ∀ {m m' : Nat} {q q' : Int}, Canonical m q → Canonical m' q' →
      (m : ℚ) * 2 ^ q = m' * 2 ^ q' → q' ≤ q := by
    intro m m' q q' h h' hvalue
    by_contra hlt
    obtain ⟨k, rfl⟩ : ∃ k : Nat, q' = q + (k + 1) := ⟨(q' - q - 1).toNat, by omega⟩
    have hpow : (2 : ℚ) ^ q ≠ 0 := zpow_ne_zero _ (by norm_num)
    have hmantissa : m = m' * 2 ^ (k + 1) := by
      rw [zpow_add₀ (by norm_num), ← mul_assoc, mul_right_comm] at hvalue
      have hcancel := mul_right_cancel₀ hpow hvalue
      exact_mod_cast hcancel
    have hfull : 2 ^ 52 ≤ m' := h'.full.resolve_right (by have := h.least; omega)
    have hlarge : 2 ^ 52 * 2 ≤ m' * 2 ^ (k + 1) := by
      apply Nat.mul_le_mul hfull
      rw [Nat.pow_succ]
      have := Nat.one_le_two_pow (n := k)
      omega
    have hlt := h.lt
    omega
  obtain rfl : q = q' := le_antisymm (hle h' h hvalue.symm) (hle h h' hvalue)
  have hpow : (2 : ℚ) ^ q ≠ 0 := zpow_ne_zero _ (by norm_num)
  exact ⟨by exact_mod_cast mul_right_cancel₀ hpow hvalue, rfl⟩

theorem ext_unpack {x y : Float} : x = y ↔ x.toModel.unpack = y.toModel.unpack := by
  constructor
  · rintro rfl
    rfl
  · intro h
    rw [← ofModel_pack h, ofModel_pack rfl]

/-- Finite floats of one value are one float. -/
theorem apply_value_eq_iff {s s' : Sign} {m m' : Nat} {q q' : Int} (h : Canonical m q)
    (h' : Canonical m' q') :
    (s.apply m : ℚ) * 2 ^ q = s'.apply m' * 2 ^ q' ↔ s = s' ∧ m = m' ∧ q = q' := by
  constructor
  · intro hvalue
    have hpos : (0 : ℚ) < m * 2 ^ q :=
      mul_pos (by exact_mod_cast h.pos) (zpow_pos (by norm_num) _)
    have hpos' : (0 : ℚ) < m' * 2 ^ q' :=
      mul_pos (by exact_mod_cast h'.pos) (zpow_pos (by norm_num) _)
    cases s <;> cases s' <;>
      simp only [Sign.apply, Int.cast_neg, Int.cast_natCast, neg_mul, neg_inj] at hvalue
    · exact ⟨rfl, h.unique h' hvalue⟩
    · linarith
    · linarith
    · exact ⟨rfl, h.unique h' hvalue⟩
  · rintro ⟨rfl, rfl, rfl⟩
    rfl

theorem apply_value_ne_zero {s : Sign} {m : Nat} {q : Int} (hm : 0 < m) :
    (s.apply m : ℚ) * 2 ^ q ≠ 0 := by
  have hm' : (m : ℚ) ≠ 0 := by exact_mod_cast hm.ne'
  have hq : (2 : ℚ) ^ q ≠ 0 := zpow_ne_zero _ (by norm_num)
  cases s <;> simp [Sign.apply, hm', hq]

theorem compare_finite {s s' : Sign} {m m' : Nat} {q q' : Int} (hm : 0 < m) (hm' : 0 < m') :
    UnpackedFloat.compare (.finite s m q hm) (.finite s' m' q' hm') = some .eq ↔
      s = s' ∧ m = m' ∧ q = q' := by
  cases s <;> cases s' <;> simp [UnpackedFloat.compare, Ordering.then_eq_eq, and_comm]

/-- Floats are equal if they are one number, or one infinite float. -/
theorem beq_iff {x y : Float} :
    (x == y) = true ↔ (∃ v, value? x = some v ∧ value? y = some v) ∨ x.isInf = true ∧ x = y := by
  have hbeq : (x == y) = (x.toModel.unpack.compare y.toModel.unpack == some .eq) := rfl
  have hinf : x.isInf = x.toModel.unpack.isInf := rfl
  rw [hbeq, hinf, ext_unpack, beq_iff_eq]
  unfold value?
  cases hx : x.toModel.unpack with
  | notANumber => simp [UnpackedFloat.compare, UnpackedFloat.isInf]
  | infinity s =>
      cases y.toModel.unpack with
      | infinity s' =>
          cases s <;> cases s' <;> simp [UnpackedFloat.compare, UnpackedFloat.isInf] <;> decide
      | _ => cases s <;> simp [UnpackedFloat.compare, UnpackedFloat.isInf]
  | zero s =>
      cases y.toModel.unpack with
      | infinity s' => cases s' <;> simp [UnpackedFloat.compare, UnpackedFloat.isInf]
      | notANumber => simp [UnpackedFloat.compare, UnpackedFloat.isInf]
      | zero s' => simp [UnpackedFloat.compare, UnpackedFloat.isInf]
      | finite s' m q hm =>
          have hne := apply_value_ne_zero (s := s') (q := q) hm
          cases s' <;> simp only [UnpackedFloat.compare] <;> simp [UnpackedFloat.isInf, hne]
  | finite s m q hm =>
      have hne := apply_value_ne_zero (s := s) (q := q) hm
      cases hy : y.toModel.unpack with
      | infinity s' => cases s' <;> simp [UnpackedFloat.compare, UnpackedFloat.isInf]
      | notANumber => simp [UnpackedFloat.compare, UnpackedFloat.isInf]
      | zero s' => cases s <;> simp only [UnpackedFloat.compare] <;> simp [UnpackedFloat.isInf, hne.symm]
      | finite s' m' q' hm' =>
          have hvalues : (s.apply m : ℚ) * 2 ^ q = s'.apply m' * 2 ^ q' ↔
              s = s' ∧ m = m' ∧ q = q' :=
            apply_value_eq_iff (unpack_canonical hx).1 (unpack_canonical hy).1
          rw [compare_finite, ← hvalues]
          simp [UnpackedFloat.isInf, eq_comm]

end FloorPlan.Number
