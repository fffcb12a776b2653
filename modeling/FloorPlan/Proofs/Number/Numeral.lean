import FloorPlan.Number.Reader

/-! # Numerals

A numeral is what stands for a number in a source: digits, or digits on both sides of a point.
Every numeral can be read (`readFloat?_isSome`). -/

namespace FloorPlan

/-- Digits, alone or on both sides of a point. -/
inductive IsNumeral : List Char → Prop
  | whole {ds : List Char} : ds ≠ [] → (∀ d ∈ ds, d.isDigit = true) → IsNumeral ds
  | point {ds es : List Char} : ds ≠ [] → (∀ d ∈ ds, d.isDigit = true) → es ≠ [] →
      (∀ e ∈ es, e.isDigit = true) → IsNumeral (ds ++ '.' :: es)

theorem isDigit_toNat {c : Char} (h : c.isDigit = true) : 48 ≤ c.toNat ∧ c.toNat ≤ 57 := by
  simp only [Char.isDigit, ge_iff_le, Bool.and_eq_true, decide_eq_true_eq] at h
  exact ⟨UInt32.le_iff_toNat_le.mp h.1, UInt32.le_iff_toNat_le.mp h.2⟩

theorem isBlank_of_isDigit {c : Char} (h : c.isDigit = true) : Text.isBlank c = false := by
  have hc := isDigit_toNat h
  simp [Text.isBlank, Text.Ranges.contains, Text.blankRanges]
  omega

theorem toLower_of_isDigit {c : Char} (h : c.isDigit = true) : c.toLower = c := by
  have hc := isDigit_toNat h
  unfold Char.toLower
  rw [dif_neg]
  intro h'
  have hA := UInt32.le_iff_toNat_le.mp h'.1
  have h65 : 'A'.val.toNat = 65 := rfl
  have hval : c.val.toNat = c.toNat := rfl
  omega

/-- Every character of a numeral is a digit or the point. -/
theorem IsNumeral.mem {cs : List Char} (h : IsNumeral cs) {c : Char} (hc : c ∈ cs) :
    c.isDigit = true ∨ c = '.' := by
  cases h with
  | whole _ hd => exact .inl (hd c hc)
  | point _ hd _ he =>
      rcases List.mem_append.mp hc with hc | hc
      · exact .inl (hd c hc)
      · rcases List.mem_cons.mp hc with rfl | hc
        · exact .inr rfl
        · exact .inl (he c hc)

/-- A numeral starts with a digit. -/
theorem IsNumeral.head {cs : List Char} (h : IsNumeral cs) :
    ∃ d ds, cs = d :: ds ∧ d.isDigit = true := by
  cases h with
  | whole hne hd =>
      obtain ⟨d, ds, rfl⟩ := List.exists_cons_of_ne_nil hne
      exact ⟨d, ds, rfl, hd d (by simp)⟩
  | point hne hd _ _ =>
      obtain ⟨d, ds, rfl⟩ := List.exists_cons_of_ne_nil hne
      exact ⟨d, _, rfl, hd d (by simp)⟩

namespace Number

theorem stripBy_of_none {p : Char → Bool} {cs : List Char} (h : ∀ c ∈ cs, p c = false) :
    Text.stripBy p cs = cs := by
  have drop : ∀ l : List Char, (∀ c ∈ l, p c = false) → l.dropWhile p = l := by
    intro l hl
    cases l with
    | nil => rfl
    | cons c l => simp [hl c (by simp)]
  unfold Text.stripBy
  rw [drop cs h, drop cs.reverse (by simpa using h), List.reverse_reverse]

theorem plainDigit_of_isDigit {c : Char} (h : c.isDigit = true) : Text.plainDigit c = c := by
  have hc := isDigit_toNat h
  have hv : Text.decimalValue? c = some (c.toNat - 48) := by
    simp [Text.decimalValue?, Text.decimalZeros, hc.1, hc.2]
  have h48 : '0'.toNat + (c.toNat - 48) = c.toNat := by
    have : '0'.toNat = 48 := rfl
    omega
  simp only [Text.plainDigit, hv, h48, Char.ofNat_toNat]

/-- Reading takes characters as they are when none is a margin or a digit of another script. -/
theorem numberChars_of_plain {cs : List Char}
    (h : ∀ c ∈ cs, isMargin c = false ∧ Text.plainDigit c = c) :
    numberChars (String.ofList cs) = cs := by
  rw [numberChars, String.toList_ofList, stripBy_of_none fun c hc => (h c hc).1,
    List.map_congr_left fun c hc => (h c hc).2, List.map_id']

/-- Reading takes the characters of a numeral as they are. -/
theorem numberChars_numeral {s : String} (h : IsNumeral s.toList) : numberChars s = s.toList := by
  have hplain : ∀ c ∈ s.toList, isMargin c = false ∧ Text.plainDigit c = c := by
    intro c hc
    rcases h.mem hc with hd | rfl
    · exact ⟨by simp [isMargin, isBlank_of_isDigit hd], plainDigit_of_isDigit hd⟩
    · decide
  rw [← numberChars_of_plain hplain, String.ofList_toList]

theorem splitSign_digit {d : Char} {ds : List Char} (h : d.isDigit = true) :
    splitSign (d :: ds) = (false, d :: ds) := by
  unfold splitSign
  split
  · next e => cases e; cases h
  · next e => cases e; cases h
  · rfl

theorem joinDigits?_of_none {p : Char → Bool} {cs : List Char} (h : '_' ∉ cs) :
    ∀ after, joinDigits? p after cs = some cs := by
  induction cs with
  | nil => intro after; rfl
  | cons c cs ih =>
      intro after
      have hc : c ≠ '_' := fun e => h (by simp [e])
      rw [joinDigits?, ih (fun hm => h (by simp [hm]))]
      · rfl
      · exact hc

theorem readNamed?_of_digit {d : Char} {ds : List Char} (h : d.isDigit = true) :
    readNamed? (d :: ds) = none := by
  have hne : ∀ (c : Char) (cs : List Char), c.isDigit = false →
      String.ofList ((d :: ds).map Char.toLower) ≠ String.ofList (c :: cs) := by
    intro c cs hc he
    rw [String.ofList_inj, List.map_cons, toLower_of_isDigit h] at he
    rw [(List.cons.inj he).1, hc] at h
    cases h
  have hinf := hne 'i' "nf".toList (by decide)
  have hinfinity := hne 'i' "nfinity".toList (by decide)
  have hnan := hne 'n' "an".toList (by decide)
  simp only [readNamed?]
  rw [if_neg, if_neg]
  · exact hnan
  · simp only [Bool.or_eq_true, decide_eq_true_eq]
    rintro (he | he)
    · exact hinf he
    · exact hinfinity he

theorem takeWhile_isDigit {ds : List Char} (hd : ∀ d ∈ ds, d.isDigit = true) {rest : List Char}
    (hr : ∀ c ∈ rest.head?, c.isDigit = false) :
    (ds ++ rest).takeWhile Char.isDigit = ds ∧ (ds ++ rest).dropWhile Char.isDigit = rest := by
  rw [List.takeWhile_append_of_pos hd, List.dropWhile_append_of_pos hd]
  cases rest with
  | nil => simp
  | cons c rest => simp [hr c (by simp)]

theorem readUnsigned?_isSome {cs : List Char} (h : IsNumeral cs) :
    (readUnsigned? cs).isSome = true := by
  cases h with
  | whole hne hd =>
      have hnil : ∀ c ∈ ([] : List Char).head?, c.isDigit = false := by simp
      obtain ⟨ht, hr⟩ := takeWhile_isDigit hd hnil
      rw [List.append_nil] at ht hr
      simp [readUnsigned?, ht, hr, hne, readExponent?]
  | @point ds es hne hd _ he =>
      have hdot : ∀ c ∈ ('.' :: es).head?, c.isDigit = false := by simp
      have hnil : ∀ c ∈ ([] : List Char).head?, c.isDigit = false := by simp
      obtain ⟨ht, hr⟩ := takeWhile_isDigit hd hdot
      obtain ⟨ht', hr'⟩ := takeWhile_isDigit he hnil
      rw [List.append_nil] at ht' hr'
      simp [readUnsigned?, ht, hr, ht', hr', hne, readExponent?]

/-- A numeral is read without a sign. -/
theorem readFloat?_numeral {s : String} (h : IsNumeral s.toList) :
    readFloat? s = readUnsigned? s.toList := by
  obtain ⟨d, ds, hs, hd⟩ := h.head
  have hsign : splitSign s.toList = (false, s.toList) := by
    rw [hs]
    exact splitSign_digit hd
  have hjoin : '_' ∉ s.toList := by
    intro hm
    rcases h.mem hm with h' | h' <;> revert h' <;> decide
  simp only [readFloat?, numberChars_numeral h, hsign]
  rw [joinDigits?_of_none hjoin]
  have hn : readNamed? s.toList = none := by rw [hs]; exact readNamed?_of_digit hd
  simp [hn]

/-- Every numeral can be read. -/
theorem readFloat?_isSome {s : String} (h : IsNumeral s.toList) : (readFloat? s).isSome = true := by
  rw [readFloat?_numeral h]
  exact readUnsigned?_isSome h

end Number

end FloorPlan
