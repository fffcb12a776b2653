import FloorPlan.Proofs.Compiler.Outcomes
import FloorPlan.Proofs.Drawing.Extents
import FloorPlan.Proofs.Number.Nearest

/-! # The number of copies of a repeat pattern

A pattern along the axis is written with two numerals, its length and its spacing.  Each is read as
its nearest float, and the copies are counted by the whole part of the quotient of these floats,
which is rounded again (`Number.Steps`).  So `k` spacings do not always make `k` steps: they do
where both numbers are floats, and in the range of normal floats at most one step is lost
(`compile_copies`). -/

namespace FloorPlan

open Drawing Number

/-! ### Steps of a line -/

/-- A line has `n` whole steps of the spacing: the nearest floats of its length and of the spacing
have a quotient whose nearest float has the whole part `n`. -/
def Number.Steps (n : Nat) (length spacing : ℚ) : Prop :=
  2 ^ (-1075 : Int) < spacing ∧ (length = 0 ∧ n = 0 ∨
    ∃ x y q, RoundsTo length x ∧ RoundsTo spacing y ∧ RoundsTo (x / y) q ∧ n ≤ q ∧ q < n + 1)

/-- The number is zero or its own nearest float. -/
def Number.IsFloat (a : ℚ) : Prop := a = 0 ∨ RoundsTo a a

/-- The repeat pattern has `n` copies. -/
def Drawing.Repeat.Makes (r : Repeat) (n : Nat) : Prop := r.fault? = none ∧ r.copies.length = n

/-- A repeat pattern has one copy more than its line has whole steps. -/
theorem Drawing.Repeat.makes_iff {r : Repeat} (hspacing : ¬ r.spacing ≤ 0) (n : Nat) :
    r.Makes (n + 1) ↔ floor r.steps = .ok (n : Int) := by
  unfold Makes Repeat.fault? copies Repeat.count
  rw [if_neg hspacing, if_neg hspacing, List.length_map, List.length_range]
  cases hcause : unbounded? r.steps with
  | some cause =>
      rw [floor_eq_error_iff.mpr hcause]
      simp
  | none =>
      obtain ⟨steps, hvalue, hfloor⟩ := exists_floor hcause
      simp only [hvalue, hfloor, true_and, Except.ok.injEq]
      omega

/-! ### Lines on the axis -/

section Axis

variable {a b : ℚ} {x y : Float} {k n : Nat}

/-- The length of a line on the axis is its end. -/
theorem axis_length (h : Correct a x) : Segment.length ⟨0, 0, x, 0⟩ = x := by
  have hzero : (0 : Float) - 0 = 0 := by decide +kernel
  show distance (x - 0) (0 - 0) = x
  rw [hzero]
  rcases h.cases with rfl | ⟨v, hv⟩ | rfl
  · decide +kernel
  · rw [hv.sub_zero, hv.distance_eq]
  · decide +kernel

/-- A line that is a multiple of the spacing is no shorter than the spacing. -/
theorem le_of_multiple (hb : 0 < b) (hk : 0 < k) (hab : a = k * b) : b ≤ a := by
  have hone : (1 : ℚ) ≤ k := by exact_mod_cast hk
  rw [hab]
  exact le_mul_of_one_le_left hb.le hone

/-- A spacing that is not read as zero is positive. -/
theorem spacing_pos (hy : Correct b y) (hlow : 2 ^ (-1075 : Int) < b) : ¬ y ≤ 0 := by
  rcases hy.valued_or_infinite hlow with ⟨v, -, hv⟩ | ⟨-, rfl⟩
  · exact hv.not_le_zero
  · decide +kernel

/-- A line without length has no steps. -/
theorem floor_zero_div (hy : Correct b y) (hlow : 2 ^ (-1075 : Int) < b) :
    floor (0 / y) = .ok 0 := by
  have hzero : floor 0 = .ok 0 := by decide +kernel
  rcases hy.valued_or_infinite hlow with ⟨v, -, hv⟩ | ⟨-, rfl⟩
  · rw [hv.zero_div, hzero]
  · decide +kernel

/-- The steps of a line that is a positive multiple of the spacing. -/
theorem floor_multiple (hx : Correct a x) (hy : Correct b y) (hlow : 2 ^ (-1075 : Int) < b)
    (hba : b ≤ a) : floor (x / y) = .ok (n : Int) ↔
      ∃ u v q, RoundsTo a u ∧ RoundsTo b v ∧ RoundsTo (u / v) q ∧ n ≤ q ∧ q < n + 1 := by
  rcases hx.valued_or_infinite (hlow.trans_le hba) with ⟨u, hu, hxu⟩ | ⟨hnone, rfl⟩
  · obtain ⟨v, hv⟩ := exists_roundsTo hu hlow hba
    have hyv := hy.nearest v hv
    obtain ⟨hu0, -, hua⟩ := hu.bounds
    obtain ⟨hv0, hvb, -⟩ := hv.bounds
    have hquotient : 2 ^ (-1075 : Int) < u / v := by
      calc
        (2 : ℚ) ^ (-1075 : Int) < 2 ^ (-2 : Int) := zpow_lt_zpow_right₀ (by norm_num) (by norm_num)
        _ ≤ 1 / 3 := by norm_num
        _ ≤ u / v := by
          rw [div_le_div_iff₀ (by norm_num) hv0]
          linarith
    rw [floor_div hxu hyv hquotient]
    constructor
    · rintro ⟨q, hq⟩
      exact ⟨u, v, q, hu, hv, hq⟩
    · rintro ⟨u', v', q, hu', hv', hq⟩
      rw [hxu.unique (hx.nearest u' hu'), hyv.unique (hy.nearest v' hv')]
      exact ⟨q, hq⟩
  · -- an infinite line has no number of steps
    have hfloor : ∃ cause, floor (1 / 0 / y) = .error cause := by
      rcases hy.valued_or_infinite hlow with ⟨v, -, hv⟩ | ⟨-, rfl⟩
      · exact ⟨.infinite, by rw [hv.infinite_div]; decide +kernel⟩
      · exact ⟨.undefined, by decide +kernel⟩
    obtain ⟨cause, hcause⟩ := hfloor
    rw [hcause]
    constructor
    · exact nofun
    · rintro ⟨u, -, -, hu, -⟩
      exact absurd hu (hnone u)

/-- The copies along the axis, where the length is a multiple of the spacing. -/
theorem axis_makes {r : Repeat} (hline : r.line = ⟨0, 0, x, 0⟩) (hspacing : r.spacing = y)
    (hx : Correct a x) (hy : Correct b y) (hb : 0 < b) (hab : a = k * b) :
    r.Makes (n + 1) ↔ Steps n a b := by
  have hsteps : r.steps = x / y := by
    unfold Repeat.steps
    rw [hline, hspacing, axis_length hx]
  rcases le_or_gt b (2 ^ (-1075 : Int)) with hsmall | hlow
  · -- the spacing is read as zero, and the pattern is skipped
    have hzero : r.spacing ≤ 0 := by
      rw [hspacing, hy.zero hsmall]
      decide +kernel
    constructor
    · rintro ⟨-, hlength⟩
      rw [Repeat.copies, if_pos hzero] at hlength
      nomatch hlength
    · exact fun h => absurd h.1 (not_lt.mpr hsmall)
  · have hpositive : ¬ r.spacing ≤ 0 := hspacing ▸ spacing_pos hy hlow
    rw [Repeat.makes_iff hpositive, hsteps, Steps, and_iff_right hlow]
    rcases Nat.eq_zero_or_pos k with rfl | hk
    · have ha : a = 0 := by rw [hab, Nat.cast_zero, zero_mul]
      have hnone : ∀ v, ¬ RoundsTo a v := by
        intro v hv
        obtain ⟨hv0, hva, -⟩ := hv.bounds
        linarith
      rw [hx.zero (by rw [ha]; positivity), floor_zero_div hy hlow]
      constructor
      · intro h
        cases h
        exact .inl ⟨ha, rfl⟩
      · rintro (⟨-, rfl⟩ | ⟨u, -, -, hu, -⟩)
        · rfl
        · exact absurd hu (hnone u)
    · have hba := le_of_multiple hb hk hab
      rw [floor_multiple hx hy hlow hba]
      constructor
      · exact .inr
      · rintro (⟨ha, -⟩ | h)
        · linarith
        · exact h

end Axis

/-! ### When the rounded numbers count as the written ones do -/

section Rounded

variable {a b : ℚ} {k : Nat}

theorem roundsTo_greatestPower : RoundsTo (2 ^ (1023 : Int)) (2 ^ (1023 : Int)) := by
  have h := roundsTo_scaled (by norm_num : 0 < 2 ^ 52) (by norm_num) (by norm_num) le_rfl
  rwa [Nat.cast_pow, Nat.cast_ofNat, ← zpow_natCast, ← zpow_add₀ two_ne_zero] at h

/-- Floats of which one is a multiple of the other have as many steps as the multiple says. -/
theorem steps_of_isFloat (ha : IsFloat a) (hb : IsFloat b) (hpos : 0 < b) (hab : a = k * b)
    (hk : k < 2 ^ 53) : Steps k a b := by
  have hbb : RoundsTo b b := hb.resolve_left hpos.ne'
  have hlow : 2 ^ (-1075 : Int) < b := by
    obtain ⟨m, q, hc, -, -, rfl⟩ := hbb
    have hone : (1 : ℚ) ≤ m := by exact_mod_cast hc.pos
    calc
      (2 : ℚ) ^ (-1075 : Int) < 2 ^ q :=
        zpow_lt_zpow_right₀ (by norm_num) (lt_of_lt_of_le (by norm_num) hc.least)
      _ ≤ m * 2 ^ q := le_mul_of_one_le_left (zpow_pos (by norm_num) q).le hone
  refine ⟨hlow, ?_⟩
  rcases ha with ha | ha
  · left
    rw [hab, mul_eq_zero, Nat.cast_eq_zero] at ha
    have hk0 := ha.resolve_right hpos.ne'
    exact ⟨by rw [hab, hk0, Nat.cast_zero, zero_mul], hk0⟩
  · right
    have hk0 : 0 < k := by
      rcases Nat.eq_zero_or_pos k with rfl | hk0
      · have hapos := ha.bounds.1
        rw [hab, Nat.cast_zero, zero_mul] at hapos
        exact absurd hapos (lt_irrefl 0)
      · exact hk0
    have hquotient : a / b = k := by rw [hab, mul_div_cancel_right₀ _ hpos.ne']
    refine ⟨a, b, k, ha, hbb, ?_, le_rfl, lt_add_one _⟩
    rw [hquotient]
    exact roundsTo_natCast hk0 hk

/-- The quotient of the nearest floats is as near to the multiple as these are to the numbers. -/
theorem quotient_near {x y : ℚ} (hx : RoundsTo a x) (hy : RoundsTo b y)
    (hb : 2 ^ (-1022 : Int) ≤ b) (hba : b ≤ a) (hab : a = k * b) :
    k * (1 - 1 / 2 ^ 52) ≤ x / y * (1 + 1 / 2 ^ 52) ∧
      x / y * (1 - 1 / 2 ^ 52) ≤ k * (1 + 1 / 2 ^ 52) := by
  have hpos : 0 < b := lt_of_lt_of_le (zpow_pos (by norm_num) _) hb
  obtain ⟨hx1, hx2⟩ := hx.near (hb.trans hba)
  obtain ⟨hy1, hy2⟩ := hy.near hb
  have hy0 := hy.bounds.1
  have ht : 0 < x / y := div_pos hx.bounds.1 hy0
  have hxy : x / y * y = x := div_mul_cancel₀ x hy0.ne'
  generalize x / y = t at hxy ht
  constructor <;> refine le_of_mul_le_mul_right ?_ hpos
  · calc
      k * (1 - 1 / 2 ^ 52) * b = a * (1 - 1 / 2 ^ 52) := by rw [hab]; ring
      _ ≤ t * y := by rw [hxy]; exact hx1
      _ ≤ t * (b * (1 + 1 / 2 ^ 52)) := mul_le_mul_of_nonneg_left hy2 ht.le
      _ = t * (1 + 1 / 2 ^ 52) * b := by ring
  · calc
      t * (1 - 1 / 2 ^ 52) * b = t * (b * (1 - 1 / 2 ^ 52)) := by ring
      _ ≤ t * y := mul_le_mul_of_nonneg_left hy1 ht.le
      _ ≤ a * (1 + 1 / 2 ^ 52) := by rw [hxy]; exact hx2
      _ = k * (1 + 1 / 2 ^ 52) * b := by rw [hab]; ring

/-- In the range of normal floats the count is right or one less. -/
theorem steps_near (hb : 2 ^ (-1022 : Int) ≤ b) (ha : a ≤ 2 ^ (1023 : Int)) (hab : a = k * b)
    (hk : k ≤ 2 ^ 50) : Steps k a b ∨ ∃ n, k = n + 1 ∧ Steps n a b := by
  have hpos : 0 < b := lt_of_lt_of_le (zpow_pos (by norm_num) _) hb
  have hlow : 2 ^ (-1075 : Int) < b :=
    lt_of_lt_of_le (zpow_lt_zpow_right₀ (by norm_num) (by norm_num)) hb
  rcases Nat.eq_zero_or_pos k with rfl | hk0
  · exact .inl ⟨hlow, .inl ⟨by rw [hab, Nat.cast_zero, zero_mul], rfl⟩⟩
  have hba := le_of_multiple hpos hk0 hab
  obtain ⟨x, hx⟩ := exists_roundsTo roundsTo_greatestPower (hlow.trans_le hba) ha
  obtain ⟨y, hy⟩ := exists_roundsTo hx hlow hba
  obtain ⟨hlower, hupper⟩ := quotient_near hx hy hb hba hab
  have hone : (1 : ℚ) ≤ k := by exact_mod_cast hk0
  have hkq : (k : ℚ) ≤ 2 ^ 50 := by exact_mod_cast hk
  have hhalf : 2 ^ (-1 : Int) ≤ x / y := by
    norm_num at hlower ⊢
    linarith
  have hlarge : x / y ≤ (2 ^ 51 : Nat) := by
    norm_num at hupper ⊢
    linarith
  -- the quotient is a normal float
  have hnormal : 2 ^ (-1022 : Int) ≤ x / y :=
    (zpow_le_zpow_right₀ (by norm_num) (by norm_num)).trans hhalf
  obtain ⟨q, hq⟩ := exists_roundsTo (roundsTo_natCast (by norm_num) (by norm_num))
    (lt_of_lt_of_le (zpow_lt_zpow_right₀ (by norm_num) (by norm_num)) hhalf) hlarge
  obtain ⟨hq1, hq2⟩ := hq.near hnormal
  have hbelow : q < k + 1 := by
    norm_num at hupper hq2
    linarith
  have habove : (k : ℚ) - 1 ≤ q := by
    norm_num at hlower hq1
    linarith
  rcases le_or_gt (k : ℚ) q with hle | hlt
  · exact .inl ⟨hlow, .inr ⟨x, y, q, hx, hy, hq, hle, hbelow⟩⟩
  · obtain ⟨n, rfl⟩ : ∃ n, k = n + 1 := ⟨k - 1, by omega⟩
    push_cast at habove hlt
    exact .inr ⟨n, rfl, hlow, .inr ⟨x, y, q, hx, hy, hq, by linarith, hlt⟩⟩

end Rounded

/-! ### The statement -/

/-- `( x U , y U )` -/
def pointTokens (x y : String) : List (Kind × String) :=
  [(.leftParen, "("), (.number, x), (.identifier, "U"), (.comma, ","), (.number, y),
    (.identifier, "U"), (.rightParen, ")")]

/-- `repeat component from ( 0 U , 0 U ) to ( length U , 0 U ) space spacing U ;` -/
def axisRepeat (component length spacing : String) : List (Kind × String) :=
  (.repeatWord, "repeat") :: (.identifier, component) ::
    ((.fromWord, "from") :: (pointTokens "0" "0" ++ (.toWord, "to") :: pointTokens length "0") ++
      [(.spaceWord, "space"), (.number, spacing), (.identifier, "U"), (.semicolon, ";")])

section Statement

variable {component length spacing source : String} {tokens : List Token} {i j : Nat} {r : Repeat}

/-- A word of one token before others. -/
theorem Joined.cons_token {w : Word} {ws : List Word} {t : Kind × String}
    {ts : List (Kind × String)} (hw : w.Tokens [t]) (hws : Joined Word.Tokens ws ts) :
    Joined Word.Tokens (w :: ws) (t :: ts) :=
  .cons hw hws

theorem point_words {x y : String} {a b : Float} (hx : readFloat? x = some a)
    (hy : readFloat? y = some b) :
    Joined Word.Tokens (coordinateWords ⟨a, b, "U"⟩) (pointTokens x y) :=
  .cons_token rfl <| .cons_token ⟨x, rfl, hx⟩ <| .cons_token rfl <| .cons_token rfl <|
    .cons_token ⟨y, rfl, hy⟩ <| .cons_token rfl <| .cons_token rfl .nil

theorem axisRepeat_words {x y : Float} (hx : readFloat? length = some x)
    (hy : readFloat? spacing = some y) :
    Joined Word.Tokens (.keyword .repeatWord :: .name component ::
      (segmentWords ⟨0, 0, x, 0⟩ "U" ++ .keyword .spaceWord ::
        (measureWords y "U" ++ [.keyword .semicolon]))) (axisRepeat component length spacing) := by
  have hzero : readFloat? "0" = some 0 := by decide +kernel
  have hline : Joined Word.Tokens (segmentWords ⟨0, 0, x, 0⟩ "U")
      ((.fromWord, "from") :: (pointTokens "0" "0" ++ (.toWord, "to") :: pointTokens length "0")) :=
    .cons_token rfl <| Joined.append_iff.mpr
      ⟨_, _, rfl, point_words hzero hzero, .cons_token rfl (point_words hx hzero)⟩
  have hspacing : Joined Word.Tokens (.keyword .spaceWord :: (measureWords y "U" ++
      [.keyword .semicolon]))
      [(.spaceWord, "space"), (.number, spacing), (.identifier, "U"), (.semicolon, ";")] :=
    .cons_token rfl <| .cons_token ⟨spacing, rfl, hy⟩ <| .cons_token rfl <| .cons_token rfl .nil
  exact .cons_token rfl <| .cons_token rfl <|
    Joined.append_iff.mpr ⟨_, _, rfl, hline, hspacing⟩

/-- The statement is read as a repeat pattern along the axis, with the numbers that it says. -/
theorem axisRepeat_read (h : tokenize source = .ok tokens)
    (hwords : axisRepeat component length spacing <+: (tokens.drop i).map Token.pair)
    (hread : (Node.body (.copies r)).ReadAt tokens i j) :
    ∃ x y, Correct (numeralValue length.toList) x ∧ Correct (numeralValue spacing.toList) y ∧
      r.line = ⟨0, 0, x, 0⟩ ∧ r.spacing = y := by
  obtain ⟨s, s', hs, -, hrun, -⟩ := hread.run
  have hsteady := hs.steady h
  rw [← hs.rest, List.map_append, List.map_singleton, List.prefix_concat_iff] at hwords
  rcases hwords with hall | ⟨after, hwords⟩
  · -- the statement does not end with the ending token
    have hlast : some s.ending.pair = some (Kind.semicolon, ";") := by
      rw [← List.getLast?_concat, ← hall]
      rfl
    have hvalue : s.ending.value = ";" := congrArg Prod.snd (Option.some.inj hlast)
    rw [hsteady.ending] at hvalue
    nomatch hvalue
  obtain ⟨us, vs, hrest, hus, -⟩ := List.map_eq_append_iff.mp hwords.symm
  have hnumeral : ∀ v, (Kind.number, v) ∈ axisRepeat component length spacing →
      IsNumeral v.toList := by
    intro v hv
    rw [← hus] at hv
    obtain ⟨t, ht, hpair⟩ := List.mem_map.mp hv
    have hregular := hsteady.regular t (by rw [hrest]; exact List.mem_append_left _ ht)
    rw [hpair] at hregular
    exact hregular.numeral rfl
  obtain ⟨x, hx, hxv⟩ := readFloat?_correct (hnumeral length (by simp [axisRepeat, pointTokens]))
  obtain ⟨y, hy, hyv⟩ := readFloat?_correct (hnumeral spacing (by simp [axisRepeat]))
  have htokens : WordTokens _ us := hus ▸ axisRepeat_words hx hy
  obtain ⟨r', hrun', herase⟩ := reads_copies ⟨component, ⟨0, 0, x, 0⟩, y, "U", none⟩ s us vs hsteady
    hrest htokens trivial
  have hcopies : Parse.copies s = .ok r s' := hrun
  rw [hcopies] at hrun'
  cases hrun'
  exact ⟨x, y, hxv, hyv, congrArg Repeat.line herase, congrArg Repeat.spacing herase⟩

end Statement

/-! ### Rooms of a compilation -/

/-- A repeat pattern that is skipped. -/
theorem Drawing.Repeat.skipped_eq {r : Repeat} (h : r.spacing ≤ 0) :
    r.fault? = none ∧ r.copies = [] := ⟨if_pos h, if_pos h⟩

/-- Where all other repeat patterns are skipped, only one counts. -/
theorem Drawing.only_repeat {d : Drawing} {r : Repeat} (hnodup : d.repeats.Nodup)
    (hr : r ∈ d.repeats) (hothers : ∀ r' ∈ d.repeats, r' ≠ r → r'.spacing ≤ 0) :
    d.fault? = r.fault? ∧ d.repeats.flatMap Repeat.copies = r.copies := by
  unfold Drawing.fault?
  obtain ⟨before, after, hsplit⟩ := List.append_of_mem hr
  rw [hsplit] at hnodup hothers ⊢
  have hskipped : ∀ r' ∈ before ++ after, r'.fault? = none ∧ r'.copies = [] := by
    intro r' hr'
    refine Repeat.skipped_eq (hothers r' (by grind) ?_)
    rintro rfl
    exact (List.nodup_middle.mp hnodup).notMem hr'
  have hbefore : ∀ r' ∈ before, r'.fault? = none ∧ r'.copies = [] := fun r' hr' =>
    hskipped r' (List.mem_append_left after hr')
  have hafter : ∀ r' ∈ after, r'.fault? = none ∧ r'.copies = [] := fun r' hr' =>
    hskipped r' (List.mem_append_right before hr')
  constructor
  · rw [List.findSome?_append, List.findSome?_cons,
      List.findSome?_eq_none_iff.mpr fun r' hr' => (hbefore r' hr').1,
      List.findSome?_eq_none_iff.mpr fun r' hr' => (hafter r' hr').1]
    cases r.fault? <;> rfl
  · rw [List.flatMap_append, List.flatMap_cons,
      List.flatMap_eq_nil_iff.mpr fun r' hr' => (hbefore r' hr').2,
      List.flatMap_eq_nil_iff.mpr fun r' hr' => (hafter r' hr').2, List.nil_append, List.append_nil]

/-- The compilation gives a model with `n` rooms. -/
def Compiler.RoomCount (c : Compiler) (verbose : Bool) (source : String) (n : Nat) : Prop :=
  ∃ outputs report, (c.compile verbose source).1.result = .ok ⟨some outputs, report⟩ ∧
    outputs.model.rooms.length = n

section Rooms

variable {source : String} {tokens : List Token} {parsed : Parsed} {r : Repeat}

theorem Drawing.repeats_nodup (htokens : tokenize source = .ok tokens)
    (hparse : parse tokens = .ok parsed) : parsed.drawing.repeats.Nodup := by
  obtain ⟨top, body, hstatements, hstarts, -⟩ := parse_starts htokens hparse
  obtain ⟨-, hrepeats, -⟩ := hstatements.sublists
  exact .of_map _ (hrepeats.nodup (List.nodup_cons.mp hstarts).2.of_map)

/-- The rooms of a compilation are those of the drawing, unless one of its patterns is at fault. -/
theorem Compiler.roomCount_parsed (htokens : tokenize source = .ok tokens)
    (hparse : parse tokens = .ok parsed) (c : Compiler) (verbose : Bool) (n : Nat) :
    c.RoomCount verbose source n ↔
      parsed.drawing.fault? = none ∧ parsed.drawing.allRooms.length = n := by
  have hlength : parsed.drawing.lowered.rooms.length = parsed.drawing.allRooms.length :=
    List.length_map _
  unfold RoomCount
  rw [compile_parsed htokens hparse, Parsed.outcome, ← hlength]
  cases parsed.drawing.fault? with
  | some cause =>
      constructor
      · rintro ⟨_, _, hresult, -⟩
        cases hresult
      · rintro ⟨hfault, -⟩
        cases hfault
  | none =>
      constructor
      · rintro ⟨outputs, report, hresult, hcount⟩
        have houtputs := congrArg Result.outputs (Except.ok.inj hresult)
        rw [← Option.some.inj houtputs] at hcount
        exact ⟨rfl, hcount⟩
      · rintro ⟨-, hcount⟩
        exact ⟨_, _, rfl, hcount⟩

/-- The rooms of a drawing without rooms of its own are the copies of its repeat pattern. -/
theorem Compiler.roomCount_copies (htokens : tokenize source = .ok tokens)
    (hparse : parse tokens = .ok parsed) (hrooms : parsed.drawing.rooms = [])
    (hr : r ∈ parsed.drawing.repeats)
    (hothers : ∀ r' ∈ parsed.drawing.repeats, r' ≠ r → r'.spacing ≤ 0)
    (c : Compiler) (verbose : Bool) (n : Nat) : c.RoomCount verbose source n ↔ r.Makes n := by
  obtain ⟨hfault, hcopies⟩ := only_repeat (repeats_nodup htokens hparse) hr hothers
  rw [roomCount_parsed htokens hparse, hfault, allRooms, hrooms, hcopies, List.nil_append,
    Repeat.Makes]

end Rooms

/-! ### Sources -/

/-- The source is lexed and parsed, with the property `P` of its tokens and of what is read. -/
def Sourced (source : String) (P : List Token → Parsed → Prop) : Prop :=
  ∃ tokens parsed, tokenize source = .ok tokens ∧ parse tokens = .ok parsed ∧ P tokens parsed

instance {source : String} {P : List Token → Parsed → Prop} [∀ ts p, Decidable (P ts p)] :
    Decidable (Sourced source P) :=
  match htokens : tokenize source with
  | .error _ => .isFalse fun ⟨_, _, h, _⟩ => by rw [htokens] at h; nomatch h
  | .ok tokens =>
    match hparse : parse tokens with
    | .error _ => .isFalse fun ⟨_, _, h, h', _⟩ => by
        rw [htokens] at h
        cases h
        rw [hparse] at h'
        nomatch h'
    | .ok parsed => decidable_of_iff (P tokens parsed)
        ⟨fun h => ⟨tokens, parsed, htokens, hparse, h⟩, fun ⟨_, _, h, h', hP⟩ => by
          rw [htokens] at h
          cases h
          rw [hparse] at h'
          cases h'
          exact hP⟩

/-- The source has the statement `axisRepeat component length spacing`, and its drawing has no rooms
but the copies of this pattern. -/
def CopiesOnly (source component length spacing : String) : Prop :=
  Sourced source fun tokens parsed => ∃ i < tokens.length, ∃ r ∈ parsed.drawing.repeats,
    axisRepeat component length spacing <+: (tokens.drop i).map Token.pair ∧
    r.span.map Span.start = tokens[i]?.map Token.start ∧
    parsed.drawing.rooms = [] ∧ ∀ r' ∈ parsed.drawing.repeats, r' ≠ r → r'.spacing ≤ 0

instance (source component length spacing : String) :
    Decidable (CopiesOnly source component length spacing) :=
  inferInstanceAs (Decidable (Sourced source _))

/-- The pattern is read at its statement, with the nearest floats of the numerals. -/
theorem CopiesOnly.counts {source component length spacing : String} {k : Nat}
    (h : CopiesOnly source component length spacing) (hpositive : 0 < numeralValue spacing.toList)
    (hmultiple : numeralValue length.toList = k * numeralValue spacing.toList)
    (c : Compiler) (verbose : Bool) (n : Nat) : c.RoomCount verbose source (n + 1) ↔
      Steps n (numeralValue length.toList) (numeralValue spacing.toList) := by
  obtain ⟨tokens, parsed, htokens, hparse, i, hi, r, hr, hwords, hstart, hrooms, hothers⟩ := h
  obtain ⟨hplaced, -⟩ := placed_of_parse htokens hparse
  have hnode : Node.body (.copies r) ∈ parsed.drawing.nodes :=
    List.mem_flatMap.mpr ⟨.repeatWord, by decide, List.mem_map_of_mem hr⟩
  obtain ⟨i', j, t, u, hread, -, ht, -, -, -, hspan, -⟩ := hplaced.faithful _ hnode
  have hspan' : r.span = some ⟨t.start, u.stop⟩ := hspan
  have hindex : i' = i := by
    obtain ⟨t', ht'⟩ : ∃ t', tokens[i]? = some t' := ⟨_, List.getElem?_eq_getElem hi⟩
    rw [hspan', ht'] at hstart
    exact index_eq (tokenize_ordered htokens) ht ht' (Option.some.inj hstart)
  rw [hindex] at hread
  obtain ⟨x, y, hx, hy, hline, hspacing⟩ := axisRepeat_read htokens hwords hread
  rw [Compiler.roomCount_copies htokens hparse hrooms hr hothers,
    axis_makes hline hspacing hx hy hpositive hmultiple]

/-- **Copies along the axis**: where the length is `k` spacings, the compilation gives `n + 1` rooms
exactly if the rounded numbers have `n` steps.  These are `k + 1` rooms if both numbers are floats,
and `k + 1` or `k` rooms if both are in the range of normal floats. -/
theorem compile_copies {source component length spacing : String} {k : Nat}
    (hsource : CopiesOnly source component length spacing)
    (hpositive : 0 < numeralValue spacing.toList)
    (hmultiple : numeralValue length.toList = k * numeralValue spacing.toList)
    (c : Compiler) (verbose : Bool) :
    (∀ n, c.RoomCount verbose source (n + 1) ↔
        Steps n (numeralValue length.toList) (numeralValue spacing.toList)) ∧
      (IsFloat (numeralValue length.toList) → IsFloat (numeralValue spacing.toList) → k < 2 ^ 53 →
        c.RoomCount verbose source (k + 1)) ∧
      (2 ^ (-1022 : Int) ≤ numeralValue spacing.toList →
        numeralValue length.toList ≤ 2 ^ (1023 : Int) → k ≤ 2 ^ 50 →
        c.RoomCount verbose source (k + 1) ∨ c.RoomCount verbose source k) := by
  have hcount := hsource.counts hpositive hmultiple c verbose
  refine ⟨hcount, fun hlength hspacing hk => ?_, fun hspacing hlength hk => ?_⟩
  · exact (hcount k).mpr (steps_of_isFloat hlength hspacing hpositive hmultiple hk)
  · rcases steps_near hspacing hlength hmultiple hk with hsteps | ⟨n, rfl, hsteps⟩
    · exact .inl ((hcount k).mpr hsteps)
    · exact .inr ((hcount n).mpr hsteps)

/-- A row of lamps after a pattern without spacing. -/
def lampRow : String :=
  "@draw T" ++ Text.braced ("@canvas 9 x 1;repeat C from(0,0)to(1,0)space 0;" ++
    "repeat Lamp from(0U,0U)to(7.5U,0U)space 2.5U;")

theorem compile_copies_lampRow : CopiesOnly lampRow "Lamp" "7.5" "2.5" ∧
    0 < numeralValue "2.5".toList ∧
    numeralValue "7.5".toList = (3 : Nat) * numeralValue "2.5".toList ∧
    (Compiler.ofName "").RoomCount false lampRow 4 := by
  have hsource : CopiesOnly lampRow "Lamp" "7.5" "2.5" := by decide +kernel
  have hlength : numeralValue "7.5".toList = (15 : Nat) * 2 ^ (-1 : Int) := by decide +kernel
  have hspacing : numeralValue "2.5".toList = (5 : Nat) * 2 ^ (-1 : Int) := by decide +kernel
  have hpositive : 0 < numeralValue "2.5".toList := by decide +kernel
  have hmultiple : numeralValue "7.5".toList = (3 : Nat) * numeralValue "2.5".toList := by
    decide +kernel
  refine ⟨hsource, hpositive, hmultiple, ?_⟩
  obtain ⟨-, hexact, -⟩ := compile_copies hsource hpositive hmultiple (Compiler.ofName "") false
  apply hexact
  · rw [hlength]
    exact .inr (roundsTo_scaled (by norm_num) (by norm_num) (by norm_num) (by norm_num))
  · rw [hspacing]
    exact .inr (roundsTo_scaled (by norm_num) (by norm_num) (by norm_num) (by norm_num))
  · norm_num

/-- A line of three spacings, whose rounded numbers have a quotient less than three. -/
def closeCopies : String :=
  "@draw T" ++ Text.braced "@canvas 1 x 1;repeat C from (0U, 0U) to (0.3U, 0U) space 0.1U;"

theorem closeCopies_rooms :
    Sourced closeCopies fun _ parsed => parsed.drawing.allRooms.length = 3 := by
  decide +kernel

/-- A length of `k` spacings does not always give `k + 1` rooms. -/
theorem not_compile_copies :
    ¬ ∀ (c : Compiler) (verbose : Bool) (source component length spacing : String) (k : Nat),
      CopiesOnly source component length spacing → 0 < numeralValue spacing.toList →
      numeralValue length.toList = k * numeralValue spacing.toList →
      c.RoomCount verbose source (k + 1) := by
  intro hall
  obtain ⟨tokens, parsed, htokens, hparse, hrooms⟩ := closeCopies_rooms
  have hcount := hall (.ofName "") false closeCopies "C" "0.3" "0.1" 3 (by decide +kernel)
    (by decide +kernel) (by decide +kernel)
  rw [Compiler.roomCount_parsed htokens hparse, hrooms] at hcount
  nomatch hcount.2

end FloorPlan
