import FloorPlan.Proofs.Model.Warnings
import FloorPlan.Proofs.Stylesheet.Stops

/-! # The channels of a grid's color

The color of a grid statement is put together from numbers and identifiers, so a letter, an
underscore, a hyphen, a point or an at sign may stand where a hexadecimal digit is expected.  A
channel is read from two such characters.  Pairs that are not hexadecimal count as zero, but for
one sort: a hyphen in front of a digit is read as a minus (`channel_pair`).  As no number and no
identifier starts with a hyphen, this can happen to the second and the third channel only
(`translucent_channels`). -/

namespace FloorPlan

open Drawing

/-! ### Digits of a color -/

/-- A color is that of a grid in the drawing of some source. -/
def IsGridColor (color : String) : Prop :=
  ∃ source tokens parsed, tokenize source = .ok tokens ∧ parse tokens = .ok parsed ∧
    ∃ g ∈ parsed.drawing.grids, g.color = some color

/-- Numbers and identifiers start with neither of the marks that decide how a color is read. -/
theorem IsSpelled.head {p : Kind × String} (h : IsSpelled p) (hk : p.1 ∈ [Kind.number, .identifier]) :
    ∃ c cs, p.2.toList = c :: cs ∧ c ≠ '-' ∧ c ≠ '#' := by
  have hmarks : ∀ e ∈ Kind.marks, e.2 ∉ [Kind.number, .identifier] := by decide
  cases h with
  | string s => simp at hk
  | number hn =>
      obtain ⟨d, ds, rfl, hd⟩ := hn.head
      refine ⟨d, ds, String.toList_ofList, ?_, ?_⟩
      · rintro rfl
        cases hd
      · rintro rfl
        cases hd
  | word hw =>
      obtain ⟨c, cs, rfl, hc⟩ := hw.head
      refine ⟨c, cs, String.toList_ofList, ?_, ?_⟩
      · rintro rfl
        exact absurd hc (by decide)
      · rintro rfl
        exact absurd hc (by decide)
  | @mark c k hm => exact absurd hk (hmarks (c, k) (Kind.mem_of_lookup hm))

theorem IsSpelled.hash {p : Kind × String} (h : IsSpelled p) (hk : p.1 = .hash) :
    p.2.toList = ['#'] := by
  have hwords : ∀ e ∈ Kind.words, e.2 ≠ .hash := by decide
  have hmarks : ∀ e ∈ Kind.marks, e.2 = .hash → e.1 = '#' := by decide
  cases h with
  | string s => cases hk
  | number _ => cases hk
  | @word cs _ =>
      obtain hw | hw | hw := wordKind_cases cs
      · exact absurd (hw.symm.trans hk) (by decide)
      · exact absurd (hw.symm.trans hk) (by decide)
      · exact absurd hk (hwords _ hw)
  | @mark c k hm =>
      have hc : c = '#' := hmarks (c, k) (Kind.mem_of_lookup hm) hk
      rw [hc]
      exact String.toList_ofList

/-- The digits of a color do not start with a hyphen. -/
def StartsPlain (color : String) : Prop :=
  ∀ ds, color.toList = '#' :: ds → ds.head? ≠ some '-'

/-- A number sign and the texts after it. -/
theorem startsPlain_join {sharp : String} {texts : List String} (hsharp : sharp.toList = ['#'])
    (htexts : ∀ text ∈ texts, ∃ c cs, text.toList = c :: cs ∧ c ≠ '-' ∧ c ≠ '#') :
    StartsPlain (String.join (sharp :: texts)) := by
  intro ds hds
  rw [String.toList_join, List.flatMap_cons, hsharp, List.singleton_append, List.cons.injEq] at hds
  rw [← hds.2]
  cases texts with
  | nil => simp
  | cons text texts =>
      obtain ⟨c, cs, htext, hc, -⟩ := htexts text List.mem_cons_self
      rw [List.flatMap_cons, htext, List.cons_append, List.head?_cons]
      exact fun he => hc (Option.some_inj.mp he)

theorem yields_startsPlain :
    Yields (fun o => ∀ text ∈ o, StartsPlain text) Parse.gridColor := by
  have hsharp : .endOfInput ∉ [Kind.hash] := by decide
  have hname : .endOfInput ∉ [Kind.identifier] := by decide
  refine .after forward_accepts fun _ => .ite ?_ (.pure fun text ht => nomatch ht)
  refine .bind forward_accept? (yields_accept? hsharp) fun o ho => ?_
  cases o with
  | none =>
      -- a named color has no number sign
      refine .bind forward_accept? (yields_accept? hname) fun o ho => .pure ?_
      intro text htext ds hds
      obtain ⟨t, ht, rfl⟩ := Option.map_eq_some_iff.mp htext
      obtain ⟨hk, hspelled⟩ := ho t ht
      obtain ⟨c, cs, hvalue, -, hc⟩ := hspelled.head (List.mem_cons_of_mem _ hk)
      rw [show t.value.toList = c :: cs from hvalue, List.cons.injEq] at hds
      exact absurd hds.1 hc
  | some t =>
      refine .bind forward_takeWhile (yields_takeWhile _) fun parts hparts => .pure ?_
      intro text htext
      cases htext
      apply startsPlain_join
      · obtain ⟨hk, hspelled⟩ := ho t rfl
        exact hspelled.hash (List.mem_singleton.mp hk)
      · intro value hvalue
        obtain ⟨u, hu, rfl⟩ := List.mem_map.mp hvalue
        obtain ⟨hk, hspelled⟩ := hparts u hu
        exact hspelled.head (List.contains_iff_mem.mp hk)

theorem yields_startsPlain_grid :
    Yields (fun g => ∀ text ∈ g.color, StartsPlain text) Parse.grid := by
  refine .after forward_take fun _ => .after forward_accept? fun _ => .after forward_gridSize fun _ =>
    .bind forward_gridColor yields_startsPlain fun color hcolor => ?_
  exact .after forward_gridAlpha fun _ => .after forward_skip fun _ =>
    .after (forward_spanFrom _) fun _ => .pure hcolor

/-- The digits that a grid's color can have. -/
theorem IsGridColor.digits {color : String} (h : IsGridColor color) {ds : List Char}
    (hds : color.toList = '#' :: ds) :
    ds.head? ≠ some '-' ∧ ∀ c ∈ ds, isColorChar c = true := by
  obtain ⟨source, tokens, parsed, htokens, hparse, g, hg, hcolor⟩ := h
  constructor
  · exact (fits_of_yields yields_startsPlain_grid htokens hparse).grids g hg color hcolor ds hds
  · intro c hc
    exact (parse_grids htokens hparse g hg).color color hcolor c (by simp [hds, hc])

/-! ### Pairs of digits -/

/-- The value of a pair of hexadecimal digits; any other pair counts as zero. -/
def pairValue (c d : Char) : Nat :=
  if c.isHexDigit && d.isHexDigit then 16 * hexValue c + hexValue d else 0

/-- A hyphen and a digit: no pair of digits, but read as a number below zero. -/
def IsNegativePair (c d : Char) : Prop := c = '-' ∧ d.isHexDigit = true ∧ d ≠ '0'

instance (c d : Char) : Decidable (IsNegativePair c d) :=
  inferInstanceAs (Decidable (_ ∧ _ ∧ _))

/-- What a pair of characters reads as. -/
def pairReading (c d : Char) : Int :=
  if IsNegativePair c d then -(hexValue d : Int) else pairValue c d

/-- A channel of a color. -/
def IsByte (n : Int) : Prop := 0 ≤ n ∧ n ≤ 255

instance (n : Int) : Decidable (IsByte n) := inferInstanceAs (Decidable (_ ∧ _))

theorem hexValue_bounds {c : Char} (h : c.isHexDigit = true) :
    hexValue c < 16 ∧ (hexValue c = 0 ↔ c = '0') := by
  apply forall_isHexDigit (P := fun c => hexValue c < 16 ∧ (hexValue c = 0 ↔ c = '0')) ?_ h
  decide +kernel

theorem pairValue_lt (c d : Char) : pairValue c d < 256 := by
  unfold pairValue
  split
  · next h =>
      rw [Bool.and_eq_true] at h
      have hc := (hexValue_bounds h.1).1
      have hd := (hexValue_bounds h.2).1
      omega
  · omega

/-- A pair reads as a byte unless it is negative. -/
theorem isByte_pairReading_iff {c d : Char} : IsByte (pairReading c d) ↔ ¬ IsNegativePair c d := by
  unfold pairReading
  by_cases h : IsNegativePair c d
  · obtain ⟨-, hd, hne⟩ := id h
    have hpos : hexValue d ≠ 0 := fun hz => hne ((hexValue_bounds hd).2.mp hz)
    simp only [h, if_true, not_true, iff_false, IsByte]
    omega
  · have hlt := pairValue_lt c d
    simp only [h, if_false, not_false_iff, iff_true, IsByte]
    omega

namespace Number

theorem hexValue?_of_not_hex {c : Char} (h : c.isHexDigit = false) : hexValue? c = none := by
  have hc := mt isHexDigit_iff.mpr (Bool.eq_false_iff.mp h)
  simp only [not_or] at hc
  have hlower : ¬ ('a' ≤ c && c ≤ 'f') = true := by
    simp only [Bool.and_eq_true, decide_eq_true_eq]
    exact hc.2.1
  have hupper : ¬ ('A' ≤ c && c ≤ 'F') = true := by
    simp only [Bool.and_eq_true, decide_eq_true_eq]
    exact hc.2.2
  rw [hexValue?, if_neg hc.1, if_neg hlower, if_neg hupper]

/-- Reading takes the characters of colors as they are. -/
theorem plain_color {c : Char} (h : isColorChar c = true) :
    isMargin c = false ∧ Text.plainDigit c = c := by
  have hmarks : ∀ m ∈ ['_', '-', '.', '@', '#'],
      (!Text.isBlank m && Text.plainDigit m == m) = true := List.all_eq_true.mp (by decide)
  have hplain : Text.isBlank c = false ∧ Text.plainDigit c = c := by
    by_cases hd : c.isDigit = true
    · exact ⟨isBlank_of_isDigit hd, plainDigit_of_isDigit hd⟩
    · by_cases ha : c.isAlpha = true
      · have hstart : isWordStart c = true := by simp [isWordStart, ha]
        exact ⟨isBlank_of_isWordStart hstart, plainDigit_of_isAlpha ha⟩
      · have hmark : c ∈ ['_', '-', '.', '@', '#'] := by
          simpa [isColorChar, isWordChar, isWordStart, hd, ha, or_assoc] using h
        simpa using hmarks c hmark
  exact ⟨by simp [isMargin, hplain.1], hplain.2⟩

section

variable {c d : Char}

theorem numberChars_pair (hc : isColorChar c = true) (hd : isColorChar d = true) :
    numberChars (String.ofList [c, d]) = [c, d] := by
  apply numberChars_of_plain
  intro e he
  simp only [List.mem_cons, List.not_mem_nil, or_false] at he
  obtain rfl | rfl := he
  · exact plain_color hc
  · exact plain_color hd

theorem dropHexMark_single (d : Char) : dropHexMark [d] = [d] := by
  unfold dropHexMark
  split
  · next h => cases h
  · rfl

theorem dropHexMark_pair (c d : Char) : dropHexMark [c, d] = [c, d] ∨ dropHexMark [c, d] = [] := by
  unfold dropHexMark
  split
  · next x cs h =>
      cases h
      split
      · exact .inr rfl
      · exact .inl rfl
  · exact .inl rfl

/-- A hyphen in front of a digit is a minus. -/
theorem readHex?_minus (hd : d.isHexDigit = true) :
    readHex? (String.ofList ['-', d]) = some (-(hexValue d : Int)) := by
  have hhyphen : isColorChar '-' = true := by decide
  have hcolor : isColorChar d = true := by simp [isColorChar, isWordChar_of_isHexDigit hd]
  have hjoin : '_' ∉ [d] := by
    intro hm
    rw [← List.mem_singleton.mp hm] at hd
    cases hd
  have hmap : [d].mapM hexValue? = some [hexValue d] := by simp [hexValue?_hex hd]
  simp only [readHex?, numberChars_pair hhyphen hcolor, splitSign, dropHexMark_single,
    joinDigits?_of_none hjoin, hmap]
  simp

/-- Two characters leave no room for an underscore between digits. -/
theorem underscore_notMem {p : Char → Bool} {cs ds : List Char} (hlen : cs.length ≤ 2)
    (h : joinDigits? p false cs = some ds) : '_' ∉ cs := by
  match cs with
  | [] => exact List.not_mem_nil
  | [c] =>
      intro hc
      rw [← List.mem_singleton.mp hc] at h
      cases h
  | [c, d] =>
      intro hm
      by_cases hc : c = '_'
      · subst hc
        cases h
      · have hd : '_' = d := List.mem_singleton.mp ((List.mem_cons.mp hm).resolve_left (Ne.symm hc))
        subst hd
        rw [joinDigits?] at h
        · cases h
        · exact hc

theorem isHexDigit_of_mapM {cs : List Char} {vs : List Nat} (h : cs.mapM hexValue? = some vs) :
    ∀ c ∈ cs, c.isHexDigit = true := by
  induction cs generalizing vs with
  | nil => exact List.forall_mem_nil _
  | cons c cs ih =>
      rw [List.mapM_cons, Option.bind_eq_bind, Option.bind_eq_some_iff] at h
      obtain ⟨v, hv, h⟩ := h
      obtain ⟨ws, hws, -⟩ := Option.bind_eq_some_iff.mp h
      refine List.forall_mem_cons.mpr ⟨?_, ih hws⟩
      by_contra hc
      rw [hexValue?_of_not_hex (Bool.eq_false_iff.mpr hc)] at hv
      cases hv

/-- What is read after a sign and a mark is some digits. -/
theorem isHexDigit_of_readHex? {s : String} {minus : Bool} {cs : List Char} {n : Int}
    (hs : splitSign (numberChars s) = (minus, cs)) (hlen : (dropHexMark cs).length ≤ 2)
    (h : readHex? s = some n) :
    dropHexMark cs ≠ [] ∧ ∀ c ∈ dropHexMark cs, c.isHexDigit = true := by
  simp only [readHex?, hs] at h
  split at h
  · cases h
  · cases h
  · next ds hne hjoin =>
      obtain ⟨vs, hvs, -⟩ := Option.map_eq_some_iff.mp h
      rw [joinDigits?_of_none (underscore_notMem hlen hjoin), Option.some_inj] at hjoin
      rw [hjoin]
      exact ⟨hne, isHexDigit_of_mapM hvs⟩

/-- Only digits are read, and one digit behind a hyphen. -/
theorem hex_of_readHex?_pair (hc : isColorChar c = true) (hd : isColorChar d = true) {n : Int}
    (h : readHex? (String.ofList [c, d]) = some n) :
    (c.isHexDigit = true ∨ c = '-') ∧ d.isHexDigit = true := by
  have hchars := numberChars_pair hc hd
  by_cases hm : c = '-'
  · subst hm
    have hsign : splitSign (numberChars (String.ofList ['-', d])) = (true, [d]) := by
      rw [hchars]
      rfl
    have hdigit := (isHexDigit_of_readHex? hsign (by simp [dropHexMark_single]) h).2
    rw [dropHexMark_single] at hdigit
    exact ⟨.inr rfl, hdigit d List.mem_cons_self⟩
  · have hplus : c ≠ '+' := by
      rintro rfl
      cases hc
    have hsign : splitSign (numberChars (String.ofList [c, d])) = (false, [c, d]) := by
      rw [hchars]
      exact splitSign_of_unsigned (by simp [hm, hplus])
    obtain hdrop | hdrop := dropHexMark_pair c d
    · have hdigits := (isHexDigit_of_readHex? hsign (by simp [hdrop]) h).2
      rw [hdrop] at hdigits
      exact ⟨.inl (hdigits c (by simp)), hdigits d (by simp)⟩
    · exact absurd hdrop (isHexDigit_of_readHex? hsign (by simp [hdrop]) h).1

end

end Number

namespace Stylesheet

/-- The channel that two characters of a color stand for. -/
theorem channel_pair {c d : Char} (hc : isColorChar c = true) (hd : isColorChar d = true) :
    channel (String.ofList [c, d]) = pairReading c d := by
  unfold channel pairReading
  by_cases hpair : c.isHexDigit = true ∧ d.isHexDigit = true
  · have hall : ∀ e ∈ [c, d], e.isHexDigit = true := by simp [hpair]
    have hplain : ¬ IsNegativePair c d := by
      rintro ⟨rfl, -⟩
      exact absurd hpair.1 (by decide)
    rw [Number.readHex?_hex (by simp) hall, if_neg hplain, pairValue, if_pos (by simp [hpair])]
    simp
  by_cases hminus : c = '-' ∧ d.isHexDigit = true
  · obtain ⟨rfl, hhex⟩ := hminus
    rw [Number.readHex?_minus hhex, Option.getD_some]
    split
    · rfl
    · next hplain =>
        have hzero : d = '0' := by
          by_contra hne
          exact hplain ⟨rfl, hhex, hne⟩
        rw [hzero]
        decide
  · have hplain : ¬ IsNegativePair c d := fun h => hminus ⟨h.1, h.2.1⟩
    have hnone : Number.readHex? (String.ofList [c, d]) = none := by
      cases hread : Number.readHex? (String.ofList [c, d]) with
      | none => rfl
      | some n =>
          obtain ⟨hc' | hc', hd'⟩ := Number.hex_of_readHex?_pair hc hd hread
          · exact absurd ⟨hc', hd'⟩ hpair
          · exact absurd ⟨hc', hd'⟩ hminus
    rw [hnone, if_neg hplain, pairValue, if_neg (by simpa using hpair)]
    rfl

/-! ### Colors in channels -/

/-- A color in channels of any value. -/
def rgbaText (r g b : Int) (opacity : String) : String :=
  "rgba(" ++ Number.integerText r ++ ", " ++ Number.integerText g ++ ", " ++ Number.integerText b ++
    ", " ++ opacity ++ ")"

/-- The texts that commas set apart can be told from the whole. -/
theorem eq_of_append_comma {xs ys xs' ys' : List Char} (hxs : ',' ∉ xs) (hxs' : ',' ∉ xs')
    (h : xs ++ ',' :: ys = xs' ++ ',' :: ys') : xs = xs' ∧ ys = ys' := by
  have hfront : ∀ {zs us : List Char}, ',' ∉ zs → (zs ++ ',' :: us).takeWhile (· ≠ ',') = zs := by
    intro zs us hzs
    refine takeWhile_front (fun c hc => ?_) (by simp)
    exact decide_eq_true fun he => hzs (he ▸ hc)
  have hfirst : xs = xs' := by rw [← hfront hxs, h, hfront hxs']
  subst hfirst
  exact ⟨rfl, (List.cons.inj (List.append_cancel_left h)).2⟩

theorem integerText_inj {m n : Int} (h : Number.integerText m = Number.integerText n) : m = n := by
  have hrepr : ∀ k : Int, Number.integerText k = k.repr := by
    intro k
    cases k with
    | ofNat k => rfl
    | negSucc k =>
        rw [Int.repr_eq_if]
        simp [Number.integerText]
  rw [hrepr, hrepr] at h
  exact Int.repr_inj.mp h

theorem comma_notMem (n : Int) : ',' ∉ (Number.integerText n).toList := by
  intro hc
  exact absurd (IsInert.integerText n _ hc) (by decide)

theorem toList_rgbaText (r g b : Int) (opacity : String) :
    (rgbaText r g b opacity).toList = ['r', 'g', 'b', 'a', '('] ++
      ((Number.integerText r).toList ++ ',' :: ' ' :: ((Number.integerText g).toList ++ ',' :: ' ' ::
        ((Number.integerText b).toList ++ ',' :: ' ' :: (opacity.toList ++ [')'])))) := by
  unfold rgbaText
  simp only [String.toList_append, List.append_assoc]
  rfl

/-- A color in channels determines them. -/
theorem rgbaText_inj {r g b r' g' b' : Int} {opacity opacity' : String}
    (h : rgbaText r g b opacity = rgbaText r' g' b' opacity') :
    r = r' ∧ g = g' ∧ b = b' ∧ opacity = opacity' := by
  have htexts := congrArg String.toList h
  rw [toList_rgbaText, toList_rgbaText] at htexts
  obtain ⟨hr, hrest⟩ :=
    eq_of_append_comma (comma_notMem r) (comma_notMem r') (List.append_cancel_left htexts)
  obtain ⟨hg, hrest⟩ :=
    eq_of_append_comma (comma_notMem g) (comma_notMem g') (List.cons.inj hrest).2
  obtain ⟨hb, hrest⟩ :=
    eq_of_append_comma (comma_notMem b) (comma_notMem b') (List.cons.inj hrest).2
  have hopacity := List.append_cancel_right (List.cons.inj hrest).2
  exact ⟨integerText_inj (String.toList_inj.mp hr), integerText_inj (String.toList_inj.mp hg),
    integerText_inj (String.toList_inj.mp hb), String.toList_inj.mp hopacity⟩

theorem head?_rgbaText (r g b : Int) (opacity : String) :
    (rgbaText r g b opacity).toList.head? = some 'r' := by
  rw [toList_rgbaText]
  rfl

/-- The digits of a color are doubled or taken as they are. -/
theorem sixDigits?_eq_some {ds six : List Char} (h : sixDigits? ds = some six) :
    ∃ c₀ c₁ c₂ c₃ c₄ c₅, six = [c₀, c₁, c₂, c₃, c₄, c₅] ∧ ds.head? = some c₀ ∧ six ⊆ ds ∧
      (ds.length = 3 → c₂ = c₃ ∧ c₄ = c₅) := by
  unfold sixDigits? at h
  split at h
  · next hlen =>
      obtain ⟨x, y, z, rfl⟩ := List.length_eq_three.mp hlen
      cases h
      exact ⟨x, x, y, y, z, z, rfl, rfl, by simp, fun _ => ⟨rfl, rfl⟩⟩
  · split at h
    · next hlen =>
        cases h
        match ds with
        | [c₀, c₁, c₂, c₃, c₄, c₅] =>
            exact ⟨c₀, c₁, c₂, c₃, c₄, c₅, rfl, rfl, List.Subset.refl _, fun h => by simp at h⟩
    · cases h

/-- Only a hexadecimal color of three or six digits is written in channels. -/
theorem digits_of_translucent {color : String} {alpha : Number.Amount} {r g b : Int}
    {opacity : String} (h : translucent color alpha = rgbaText r g b opacity) :
    ∃ ds six, color.toList = '#' :: ds ∧ sixDigits? ds = some six ∧
      r = channel (String.ofList (six.take 2)) ∧ g = channel (String.ofList ((six.drop 2).take 2)) ∧
      b = channel (String.ofList ((six.drop 4).take 2)) ∧ opacity = alpha.text := by
  have hhead := head?_rgbaText r g b opacity
  unfold translucent at h
  split at h
  · next ds hds =>
      split at h
      · next six hsix =>
          obtain ⟨hr, hg, hb, hopacity⟩ := rgbaText_inj (r := channel (String.ofList (six.take 2)))
            (g := channel (String.ofList ((six.drop 2).take 2)))
            (b := channel (String.ofList ((six.drop 4).take 2))) h
          exact ⟨ds, six, hds, hsix, hr.symm, hg.symm, hb.symm, hopacity.symm⟩
      · rw [← h, hds] at hhead
        cases hhead
  · have hmix : ∀ text : String, ("color-mix(in srgb, " ++ text).toList.head? = some 'c' := by
      intro text
      rw [String.toList_append]
      rfl
    rw [← h, String.append_assoc, String.append_assoc, String.append_assoc, hmix] at hhead
    cases hhead

theorem pairReading_of_ne {c d : Char} (hc : c ≠ '-') : pairReading c d = pairValue c d := by
  unfold pairReading
  rw [if_neg fun h => hc h.1]

/-- A doubled character is no hyphen in front of a digit. -/
theorem not_isNegativePair_self (c : Char) : ¬ IsNegativePair c c := by
  rintro ⟨rfl, hhex, -⟩
  cases hhex

/-- **Channels of a grid's color**: where the color of a grid is written in channels, they are those
of its digits.  The first channel is a byte.  The second and the third one are bytes unless a hyphen
comes right before a digit other than zero, and then they are below zero; a color of three digits
has bytes only. -/
theorem translucent_channels {color : String} (hcolor : IsGridColor color) (alpha : Number.Amount)
    {r g b : Int} {opacity : String} (h : translucent color alpha = rgbaText r g b opacity) :
    opacity = alpha.text ∧ ∃ c₀ c₁ c₂ c₃ c₄ c₅,
      sixDigits? (color.toList.drop 1) = some [c₀, c₁, c₂, c₃, c₄, c₅] ∧
      (r = pairValue c₀ c₁ ∧ IsByte r) ∧
      (g = pairReading c₂ c₃ ∧ (IsByte g ↔ ¬ IsNegativePair c₂ c₃)) ∧
      (b = pairReading c₄ c₅ ∧ (IsByte b ↔ ¬ IsNegativePair c₄ c₅)) ∧
      (color.length = 4 → IsByte g ∧ IsByte b) := by
  obtain ⟨ds, six, hds, hsix, hr, hg, hb, hopacity⟩ := digits_of_translucent h
  obtain ⟨hhead, hchars⟩ := hcolor.digits hds
  obtain ⟨c₀, c₁, c₂, c₃, c₄, c₅, rfl, hfirst, hsub, hshort⟩ := sixDigits?_eq_some hsix
  have hdrop : color.toList.drop 1 = ds := by rw [hds, List.drop_succ_cons, List.drop_zero]
  have hlength : color.length = ds.length + 1 := by
    rw [← String.length_toList, hds, List.length_cons]
  have hplain : c₀ ≠ '-' := by
    rintro rfl
    exact hhead hfirst
  have hall : ∀ c ∈ [c₀, c₁, c₂, c₃, c₄, c₅], isColorChar c = true := fun c hc => hchars c (hsub hc)
  simp only [List.forall_mem_cons] at hall
  obtain ⟨h₀, h₁, h₂, h₃, h₄, h₅, -⟩ := hall
  have hred : r = pairValue c₀ c₁ := by
    rw [← pairReading_of_ne hplain, ← channel_pair h₀ h₁]
    exact hr
  have hgreen : g = pairReading c₂ c₃ := hg.trans (channel_pair h₂ h₃)
  have hblue : b = pairReading c₄ c₅ := hb.trans (channel_pair h₄ h₅)
  refine ⟨hopacity, c₀, c₁, c₂, c₃, c₄, c₅, hdrop ▸ hsix, ⟨hred, ?_⟩, ⟨hgreen, ?_⟩, ⟨hblue, ?_⟩, ?_⟩
  · have hlt := pairValue_lt c₀ c₁
    rw [hred, IsByte]
    omega
  · rw [hgreen, isByte_pairReading_iff]
  · rw [hblue, isByte_pairReading_iff]
  · intro hfour
    obtain ⟨rfl, rfl⟩ := hshort (by omega)
    rw [hgreen, hblue, isByte_pairReading_iff, isByte_pairReading_iff]
    exact ⟨not_isNegativePair_self c₂, not_isNegativePair_self c₄⟩

/-- Grids with a color that has hyphens among its digits. -/
def hyphenated (color : String) : String :=
  "@draw T" ++ Text.braced ("@canvas 1 x 1;@grid color " ++ color ++ " alpha 0.5;")

theorem isGridColor_hyphenated {color : String}
    (h : fromSource? (fun p => p.drawing.grids.map Grid.color) (hyphenated color) =
      some [some color]) : IsGridColor color := by
  obtain ⟨tokens, parsed, htokens, hparse, hgrids⟩ := fromSource?_eq_some h
  obtain ⟨g, hg, hcolor⟩ := List.mem_map.mp (hgrids ▸ List.mem_cons_self)
  exact ⟨_, tokens, parsed, htokens, hparse, g, hg, hcolor⟩

theorem translucent_channels_hyphens :
    IsGridColor "#a0-5-0" ∧ translucent "#a0-5-0" (.real 0.5) = rgbaText 160 (-5) 0 "0.5" ∧
      ∃ c₀ c₁ c₂ c₃ c₄ c₅,
        sixDigits? ("#a0-5-0".toList.drop 1) = some [c₀, c₁, c₂, c₃, c₄, c₅] ∧
        pairValue c₀ c₁ = 160 ∧ IsNegativePair c₂ c₃ ∧ ¬ IsNegativePair c₄ c₅ := by
  have hcolor : IsGridColor "#a0-5-0" := isGridColor_hyphenated (by decide +kernel)
  have htext : translucent "#a0-5-0" (.real 0.5) = rgbaText 160 (-5) 0 "0.5" := by decide +kernel
  obtain ⟨-, c₀, c₁, c₂, c₃, c₄, c₅, hsix, ⟨hr, -⟩, ⟨-, hg⟩, ⟨-, hb⟩, -⟩ :=
    translucent_channels hcolor (.real 0.5) htext
  have hnegative : IsNegativePair c₂ c₃ := by
    by_contra hplain
    exact absurd (hg.mpr hplain) (by decide)
  exact ⟨hcolor, htext, c₀, c₁, c₂, c₃, c₄, c₅, hsix, by omega, hnegative, hb.mp (by decide)⟩

/-- A hyphen in front of a digit makes a channel negative. -/
theorem not_translucent_channels :
    ¬ ∀ (color : String) (alpha : Number.Amount) (r g b : Int) (opacity : String),
      IsGridColor color → translucent color alpha = rgbaText r g b opacity →
      IsByte r ∧ IsByte g ∧ IsByte b := by
  intro hall
  have hcolor : IsGridColor "#a0-5b0" := isGridColor_hyphenated (by decide +kernel)
  have htext : translucent "#a0-5b0" (.real 0.5) = rgbaText 160 (-5) 176 "0.5" := by decide +kernel
  have hbytes := hall _ _ _ _ _ _ hcolor htext
  exact absurd hbytes.2.1 (by decide)

end Stylesheet

end FloorPlan
