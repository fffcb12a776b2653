import FloorPlan.Number.Layout
import FloorPlan.Proofs.Number.Numeral
import Mathlib.Algebra.Order.Field.Rat
import Mathlib.Data.List.DropRight
import Mathlib.Tactic.FieldSimp
import Mathlib.Tactic.Ring

/-! # Figures

The text of a positive decimal in a layout is made of figures: digits, digits after a point, and an
exponent (`decimal_figures`).  Reading figures gives the float nearest to their value
(`Figures.readUnsigned?_text`), and the value of the figures is that of the decimal. -/

namespace FloorPlan.Number

/-- Digits, the digits after a point, and the sign and digits of an exponent. -/
structure Figures where
  whole : List Char
  fraction : List Char
  exponent : Option (Bool × List Char)

namespace Figures

/-- A point with its digits, of which there may be none. -/
def pointText (ds : List Char) : List Char := if ds.isEmpty then [] else '.' :: ds

/-- The mark, the sign and the digits of an exponent that may be missing. -/
def markText : Option (Bool × List Char) → List Char
  | none => []
  | some (minus, ds) => 'e' :: (if minus then '-' else '+') :: ds

/-- The text of figures. -/
def text (f : Figures) : List Char := f.whole ++ (pointText f.fraction ++ markText f.exponent)

/-- Every part has digits only, the whole part and an exponent have some, and a zero leads only a
whole part of its own. -/
structure Proper (f : Figures) : Prop where
  whole_ne : f.whole ≠ []
  whole_digits : ∀ d ∈ f.whole, d.isDigit = true
  lead : f.whole = ['0'] ∨ f.whole.head? ≠ some '0'
  fraction_digits : ∀ d ∈ f.fraction, d.isDigit = true
  exponent_ne : ∀ e ∈ f.exponent, e.2 ≠ []
  exponent_digits : ∀ e ∈ f.exponent, ∀ d ∈ e.2, d.isDigit = true

/-- The digits without the point, as a number. -/
def mantissa (f : Figures) : Nat := decimalValue (f.whole ++ f.fraction)

/-- The written exponent. -/
def power (f : Figures) : Int :=
  match f.exponent with
  | none => 0
  | some (minus, ds) => if minus then -(decimalValue ds : Int) else decimalValue ds

/-- The power of ten of the mantissa. -/
def scale (f : Figures) : Int := f.power - f.fraction.length

/-- The value of figures. -/
def value (f : Figures) : ℚ := f.mantissa * 10 ^ f.scale

end Figures

/-! ### Digits of a number -/

theorem decimalValue_append (ds es : List Char) :
    decimalValue (ds ++ es) = 10 ^ es.length * decimalValue ds + decimalValue es :=
  calc
    decimalValue (ds ++ es) = Nat.ofDigitChars 10 es (decimalValue ds) := Nat.ofDigitChars_append 0
    _ = 10 ^ es.length * decimalValue ds + decimalValue es :=
      Nat.ofDigitChars_eq_ofDigitChars_zero

theorem decimalValue_replicate_zero (k : Nat) : decimalValue (List.replicate k '0') = 0 := by
  have h : decimalValue (List.replicate k '0') = 10 ^ k * 0 := Nat.ofDigitChars_replicate_zero
  rw [h, Nat.mul_zero]

theorem decimalValue_toDigits (n : Nat) : decimalValue (Nat.toDigits 10 n) = n :=
  Nat.ofDigitChars_ten_toDigits

theorem digitChar_ne_zero {n : Nat} (h : 0 < n) : n.digitChar ≠ '0' := by
  intro he
  rw [Nat.digitChar_eq_zero] at he
  omega

/-- No zero leads the digits of a positive number. -/
theorem head?_toDigits {n : Nat} (h : 0 < n) : (Nat.toDigits 10 n).head? ≠ some '0' := by
  induction n using Nat.strongRecOn with
  | ind n ih =>
      by_cases hn : n < 10
      · rw [Nat.toDigits_of_lt_base hn, List.head?_cons]
        exact fun he => digitChar_ne_zero h (Option.some_inj.mp he)
      · have hne : Nat.toDigits 10 (n / 10) ≠ [] := Nat.toDigits_ne_nil
        rw [Nat.toDigits_of_base_le (by omega) (by omega), List.head?_append,
          Option.or_of_isSome (List.isSome_head?.mpr hne)]
        exact ih (n / 10) (by omega) (by omega)

/-- The digits of a number are its significant ones and zeros. -/
theorem toDigits_eq_significant (n : Nat) :
    ∃ k, Nat.toDigits 10 n = significant n ++ List.replicate k '0' := by
  have hzeros : ∀ c ∈ (Nat.toDigits 10 n).rtakeWhile (· = '0'), c = '0' := by
    intro c hc
    have hzero := List.mem_rtakeWhile_imp hc
    exact of_decide_eq_true hzero
  refine ⟨((Nat.toDigits 10 n).rtakeWhile (· = '0')).length, ?_⟩
  rw [← List.eq_replicate_of_mem hzeros]
  exact List.rdropWhile_append_rtakeWhile.symm

theorem significant_digits {n : Nat} : ∀ d ∈ significant n, d.isDigit = true := by
  intro d hd
  obtain ⟨k, hk⟩ := toDigits_eq_significant n
  apply Nat.isDigit_of_mem_toDigits (b := 10) (n := n) (by decide) (by decide)
  rw [hk]
  exact List.mem_append_left _ hd

theorem significant_head {n : Nat} (h : 0 < n) :
    significant n ≠ [] ∧ (significant n).head? ≠ some '0' := by
  obtain ⟨k, hk⟩ := toDigits_eq_significant n
  have hhead := head?_toDigits h
  rw [hk, List.head?_append] at hhead
  cases hs : significant n with
  | nil =>
      -- all digits are zeros
      have hzero : decimalValue (Nat.toDigits 10 n) = 0 := by
        rw [hk, hs, List.nil_append, decimalValue_replicate_zero]
      rw [decimalValue_toDigits] at hzero
      omega
  | cons d ds =>
      rw [hs] at hhead
      exact ⟨List.cons_ne_nil d ds, hhead⟩

/-- The significant digits with the point where a decimal has it. -/
theorem significant_value (d : Decimal) :
    (decimalValue (significant d.digits) : ℚ) *
      10 ^ (d.exponent + digitCount d.digits - (significant d.digits).length) =
        d.digits * 10 ^ d.exponent := by
  obtain ⟨k, hk⟩ := toDigits_eq_significant d.digits
  have hcount : digitCount d.digits = (significant d.digits).length + k := by
    rw [digitCount, hk, List.length_append, List.length_replicate]
  have hvalue : d.digits = 10 ^ k * decimalValue (significant d.digits) := by
    conv_lhs => rw [← decimalValue_toDigits d.digits, hk]
    rw [decimalValue_append, decimalValue_replicate_zero, List.length_replicate, Nat.add_zero]
  have hpoint : d.exponent + (digitCount d.digits : Int) - (significant d.digits).length =
      k + d.exponent := by omega
  have hcast : (d.digits : ℚ) = 10 ^ k * decimalValue (significant d.digits) := by
    exact_mod_cast hvalue
  rw [hpoint, hcast, zpow_add₀ (by norm_num), zpow_natCast]
  ring

/-! ### The text of a decimal -/

namespace Figures

variable {ds : List Char} {point : Int}

/-- Figures that show digits with the point at a place. -/
structure Shows (f : Figures) (ds : List Char) (point : Int) : Prop where
  proper : f.Proper
  value : f.value = decimalValue ds * 10 ^ (point - ds.length)

theorem pointText_of_ne (h : ds ≠ []) : pointText ds = '.' :: ds := by
  rw [pointText, if_neg (by simpa using h)]

/-- A value from a mantissa that carries a power of ten of its own. -/
theorem value_of_shift {f : Figures} {n k : Nat} {e : Int} (hm : f.mantissa = 10 ^ k * n)
    (he : f.scale + k = e) : f.value = n * 10 ^ e := by
  rw [value, hm, ← he, zpow_add₀ (by norm_num), zpow_natCast]
  push_cast
  ring

/-- The point before all digits. -/
theorem shows_below (hdigits : ∀ d ∈ ds, d.isDigit = true) (hpoint : point ≤ 0) :
    Shows ⟨['0'], List.replicate (-point).toNat '0' ++ ds, none⟩ ds point where
  proper :=
    { whole_ne := by simp
      whole_digits := by simp
      lead := .inl rfl
      fraction_digits := by
        intro d hd
        rcases List.mem_append.mp hd with hd | hd
        · rw [List.eq_of_mem_replicate hd]
          rfl
        · exact hdigits d hd
      exponent_ne := by simp
      exponent_digits := by simp }
  value := by
    apply value_of_shift (k := 0)
    · rw [mantissa, decimalValue_append, decimalValue_append, decimalValue_replicate_zero]
      simp [decimalValue]
    · simp only [scale, power, List.length_append, List.length_replicate]
      omega

/-- The point after all digits. -/
theorem shows_above (hne : ds ≠ []) (hdigits : ∀ d ∈ ds, d.isDigit = true)
    (hhead : ds.head? ≠ some '0') (hpoint : (ds.length : Int) ≤ point) :
    Shows ⟨ds ++ List.replicate (point.toNat - ds.length) '0', ['0'], none⟩ ds point where
  proper :=
    { whole_ne := by simp [hne]
      whole_digits := by
        intro d hd
        rcases List.mem_append.mp hd with hd | hd
        · exact hdigits d hd
        · rw [List.eq_of_mem_replicate hd]
          rfl
      lead := by
        right
        rw [List.head?_append, Option.or_of_isSome (List.isSome_head?.mpr hne)]
        exact hhead
      fraction_digits := by simp
      exponent_ne := by simp
      exponent_digits := by simp }
  value := by
    apply value_of_shift (k := point.toNat - ds.length + 1)
    · have hzero : decimalValue ['0'] = 0 := rfl
      rw [mantissa, decimalValue_append, decimalValue_append, decimalValue_replicate_zero, hzero,
        List.length_replicate, List.length_singleton, pow_succ]
      ring
    · simp only [scale, power, List.length_singleton]
      omega

/-- The point between two digits. -/
theorem shows_within (hdigits : ∀ d ∈ ds, d.isDigit = true) (hhead : ds.head? ≠ some '0')
    (hpos : 0 < point) (hpoint : point < ds.length) :
    Shows ⟨ds.take point.toNat, ds.drop point.toNat, none⟩ ds point where
  proper :=
    { whole_ne := by
        intro h
        have hlength := congrArg List.length h
        simp only [List.length_take, List.length_nil] at hlength
        omega
      whole_digits := fun d hd => hdigits d (List.mem_of_mem_take hd)
      lead := by
        right
        rw [List.head?_take, if_neg (by omega)]
        exact hhead
      fraction_digits := fun d hd => hdigits d (List.mem_of_mem_drop hd)
      exponent_ne := by simp
      exponent_digits := by simp }
  value := by
    apply value_of_shift (k := 0)
    · rw [mantissa, List.take_append_drop, pow_zero, one_mul]
    · simp only [scale, power, List.length_drop]
      omega

/-- The point after the first digit, with an exponent. -/
theorem shows_scientific (width : Nat) (hne : ds ≠ []) (hdigits : ∀ d ∈ ds, d.isDigit = true)
    (hhead : ds.head? ≠ some '0') :
    Shows ⟨ds.take 1, ds.drop 1,
      some (decide (point - 1 < 0), List.replicate (width -
        (Nat.toDigits 10 (point - 1).natAbs).length) '0' ++ Nat.toDigits 10 (point - 1).natAbs)⟩
      ds point where
  proper :=
    { whole_ne := by simp [hne]
      whole_digits := fun d hd => hdigits d (List.mem_of_mem_take hd)
      lead := by
        right
        rw [List.head?_take, if_neg (by omega)]
        exact hhead
      fraction_digits := fun d hd => hdigits d (List.mem_of_mem_drop hd)
      exponent_ne := by simp [Nat.toDigits_ne_nil]
      exponent_digits := by
        intro e he d hd
        rw [Option.mem_some_iff] at he
        rw [← he] at hd
        rcases List.mem_append.mp hd with hd | hd
        · rw [List.eq_of_mem_replicate hd]
          rfl
        · exact Nat.isDigit_of_mem_toDigits (by decide) (by decide) hd }
  value := by
    apply value_of_shift (k := 0)
    · rw [mantissa, List.take_append_drop, pow_zero, one_mul]
    · have hlength := List.length_pos_iff.mpr hne
      simp only [scale, power, List.length_drop, decimalValue_append, decimalValue_replicate_zero,
        decimalValue_toDigits, Nat.mul_zero, Nat.zero_add, decide_eq_true_eq]
      split <;> omega

end Figures

open Figures

/-- The positional text of digits shows them with the point at its place. -/
theorem positional_shows {ds : List Char} {point : Int} (hne : ds ≠ [])
    (hdigits : ∀ d ∈ ds, d.isDigit = true) (hhead : ds.head? ≠ some '0') :
    ∃ f : Figures, positional ds point = f.text ∧ f.Shows ds point := by
  simp only [positional]
  split
  · next hpoint =>
      refine ⟨_, ?_, shows_below hdigits hpoint⟩
      simp [text, pointText, markText, hne]
  split
  · next hpoint hlength =>
      refine ⟨_, ?_, shows_above hne hdigits hhead (by omega)⟩
      simp [text, pointText, markText]
  · next hpoint hlength =>
      refine ⟨_, ?_, shows_within hdigits hhead (by omega) (by omega)⟩
      have hdrop : ds.drop point.toNat ≠ [] := by
        rw [ne_eq, List.drop_eq_nil_iff]
        omega
      simp [text, pointText_of_ne hdrop, markText]

theorem scientific_shows (width : Nat) {ds : List Char} {point : Int} (hne : ds ≠ [])
    (hdigits : ∀ d ∈ ds, d.isDigit = true) (hhead : ds.head? ≠ some '0') :
    ∃ f : Figures, scientific width ds (point - 1) = f.text ∧ f.Shows ds point := by
  refine ⟨_, ?_, shows_scientific width hne hdigits hhead⟩
  simp [scientific, text, pointText, markText, exponentText]

/-- The text of a positive decimal is made of figures of the same value. -/
theorem decimal_figures (l : Layout) {d : Decimal} (hd : 0 < d.digits) :
    ∃ f : Figures, l.decimal d = f.text ∧ f.Proper ∧ f.value = d.digits * 10 ^ d.exponent := by
  obtain ⟨hne, hhead⟩ := significant_head hd
  have hshows : ∃ f : Figures, l.decimal d = f.text ∧
      f.Shows (significant d.digits) (d.exponent + digitCount d.digits) := by
    simp only [Layout.decimal]
    split
    · exact positional_shows hne significant_digits hhead
    · exact scientific_shows l.exponentWidth hne significant_digits hhead
  obtain ⟨f, htext, hf⟩ := hshows
  exact ⟨f, htext, hf.proper, hf.value.trans (significant_value d)⟩

/-! ### Reading figures -/

namespace Figures

variable {f : Figures}

theorem head?_markText (e : Option (Bool × List Char)) :
    ∀ c ∈ (markText e).head?, c.isDigit = false := by
  cases e <;> simp [markText]

theorem head?_pointText (ds : List Char) (e : Option (Bool × List Char)) :
    ∀ c ∈ (pointText ds ++ markText e).head?, c.isDigit = false := by
  cases ds with
  | nil => exact head?_markText e
  | cons d ds => simp [pointText]

theorem readExponent?_markText (hf : f.Proper) :
    readExponent? (markText f.exponent) = some f.power := by
  cases he : f.exponent with
  | none => simp [markText, readExponent?, power, he]
  | some e =>
      obtain ⟨minus, ds⟩ := e
      have hne : ds ≠ [] := hf.exponent_ne _ he
      have hdigits : ∀ d ∈ ds, d.isDigit = true := hf.exponent_digits _ he
      cases minus <;> simp [markText, readExponent?, splitSign, power, he, hne] <;> exact hdigits

/-- Figures are read as the float nearest to their value. -/
theorem readUnsigned?_text (hf : f.Proper) :
    readUnsigned? f.text =
      some (Float.ofScientific f.mantissa (f.scale < 0) f.scale.natAbs) := by
  obtain ⟨hwhole, hrest⟩ :=
    takeWhile_isDigit hf.whole_digits (head?_pointText f.fraction f.exponent)
  have hne : f.whole.isEmpty = false := by simpa using hf.whole_ne
  have hpower := readExponent?_markText hf
  have hfraction := takeWhile_isDigit hf.fraction_digits (head?_markText f.exponent)
  simp only [readUnsigned?, text, hwhole, hrest, hne, Bool.false_and, Bool.false_eq_true, if_false,
    mantissa, scale]
  obtain ⟨whole, _ | ⟨d, ds⟩, exponent⟩ := f
  · -- the text goes on with the exponent, or it ends
    cases exponent with
    | none => rfl
    | some e =>
        simp only [markText] at hpower
        simp [pointText, markText, hpower]
  · simp only [pointText_of_ne (List.cons_ne_nil d ds), List.cons_append]
    rw [← List.cons_append, hfraction.1, hfraction.2, hpower]
    rfl

theorem mem_text (hf : f.Proper) {c : Char} (hc : c ∈ f.text) :
    c.isDigit = true ∨ c ∈ ['.', 'e', '-', '+'] := by
  have hpoint : c ∈ pointText f.fraction → c.isDigit = true ∨ c ∈ ['.', 'e', '-', '+'] := by
    intro hc
    rw [pointText] at hc
    split at hc
    · exact absurd hc List.not_mem_nil
    · rcases List.mem_cons.mp hc with rfl | hc
      · exact .inr (by decide)
      · exact .inl (hf.fraction_digits c hc)
  have hmark : c ∈ markText f.exponent → c.isDigit = true ∨ c ∈ ['.', 'e', '-', '+'] := by
    intro hc
    cases he : f.exponent with
    | none => simp [he, markText] at hc
    | some e =>
        simp only [he, markText, List.mem_cons] at hc
        rcases hc with rfl | rfl | hc
        · exact .inr (by decide)
        · exact .inr (by split <;> decide)
        · exact .inl (hf.exponent_digits e he c hc)
  rcases List.mem_append.mp hc with hc | hc
  · exact .inl (hf.whole_digits c hc)
  rcases List.mem_append.mp hc with hc | hc
  · exact hpoint hc
  · exact hmark hc

theorem text_eq_cons (hf : f.Proper) : ∃ d ds, f.text = d :: ds ∧ d.isDigit = true := by
  obtain ⟨d, ds, hwhole⟩ := List.exists_cons_of_ne_nil hf.whole_ne
  refine ⟨d, ds ++ (pointText f.fraction ++ markText f.exponent), ?_, ?_⟩
  · rw [text, hwhole, List.cons_append]
  · exact hf.whole_digits d (by simp [hwhole])

/-- The text of a sign. -/
def signed (minus : Bool) (cs : List Char) : List Char := if minus then '-' :: cs else cs

/-- Figures with a sign are read as the float nearest to their value, with that sign. -/
theorem readFloat?_signed (minus : Bool) (hf : f.Proper) :
    readFloat? (String.ofList (signed minus f.text)) =
      (readUnsigned? f.text).map fun x => if minus then -x else x := by
  have hmem : ∀ c ∈ signed minus f.text, c.isDigit = true ∨ c ∈ ['.', 'e', '-', '+'] := by
    intro c hc
    cases minus with
    | false => exact mem_text hf hc
    | true =>
        rcases List.mem_cons.mp hc with rfl | hc
        · exact .inr (by decide)
        · exact mem_text hf hc
  have hchars : numberChars (String.ofList (signed minus f.text)) = signed minus f.text := by
    apply numberChars_of_plain
    intro c hc
    rcases hmem c hc with hd | hmark
    · exact ⟨by simp [isMargin, isBlank_of_isDigit hd], plainDigit_of_isDigit hd⟩
    · simp only [List.mem_cons, List.not_mem_nil, or_false] at hmark
      rcases hmark with rfl | rfl | rfl | rfl <;> decide
  obtain ⟨d, ds, htext, hd⟩ := text_eq_cons hf
  have hsign : splitSign (signed minus f.text) = (minus, f.text) := by
    cases minus with
    | true => rfl
    | false =>
        rw [signed, htext]
        exact splitSign_digit hd
  have hjoin : '_' ∉ f.text := by
    intro hc
    rcases mem_text hf hc with h | h <;> revert h <;> decide
  have hnamed : readNamed? f.text = none := by
    rw [htext]
    exact readNamed?_of_digit hd
  simp only [readFloat?, hchars, hsign, hnamed, joinDigits?_of_none hjoin, Option.bind_some]

end Figures

end FloorPlan.Number
