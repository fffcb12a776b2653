import FloorPlan.Proofs.Text.Inert
import FloorPlan.Proofs.Token.Spelling

/-! # Color stops

A hexadecimal color of three or six digits is written as three channels with the opacity, and any
other one as it is (`translucent_hex`).  `Css.stops` reads the color stops of a style sheet back from
its text: a grid in the mode `grid` has one in each of its two gradients, and there are no others
(`stops_render`). -/

namespace FloorPlan

/-! ### Hexadecimal numbers -/

/-- The hexadecimal digits in order. -/
def hexDigits : List Char :=
  ['0', '1', '2', '3', '4', '5', '6', '7', '8', '9', 'a', 'b', 'c', 'd', 'e', 'f']

/-- The value of a hexadecimal digit of either case: its place among the digits. -/
def hexValue (c : Char) : Nat := hexDigits.idxOf c.toLower

/-- What holds of the digits among the first characters holds of every digit. -/
theorem forall_isHexDigit {P : Char → Prop}
    (hall : ∀ n < 103, (Char.ofNat n).isHexDigit = true → P (Char.ofNat n)) {c : Char}
    (h : c.isHexDigit = true) : P c := by
  have hlt : c.toNat < 103 := by
    obtain hd | hc := isHexDigit_iff.mp h
    · have := isDigit_toNat hd
      omega
    · omega
  have hc := hall c.toNat hlt
  rw [Char.ofNat_toNat] at hc
  exact hc h

namespace Number

theorem hexValue?_hex {c : Char} (h : c.isHexDigit = true) : hexValue? c = some (hexValue c) := by
  apply forall_isHexDigit (P := fun c => hexValue? c = some (hexValue c)) ?_ h
  decide +kernel

/-- No letter counts as a digit of another script. -/
theorem plainDigit_of_isAlpha {c : Char} (h : c.isAlpha = true) : Text.plainDigit c = c := by
  have hc := isAlpha_iff.mp h
  have hzeros : ∀ z ∈ Text.decimalZeros, z = 48 ∨ 122 < z := by decide
  have hnone : Text.decimalValue? c = none := by
    rw [Text.decimalValue?, Option.map_eq_none_iff, List.find?_eq_none]
    intro z hz
    have := hzeros z hz
    simp only [Bool.and_eq_true, decide_eq_true_eq]
    omega
  simp only [Text.plainDigit, hnone]

/-- Reading takes hexadecimal digits as they are, and none of them is a mark. -/
theorem plain_hex {c : Char} (h : c.isHexDigit = true) :
    (isMargin c = false ∧ Text.plainDigit c = c) ∧ c ∉ ['-', '+', '_', 'x', 'X'] := by
  refine ⟨⟨?_, ?_⟩, ?_⟩
  · simp [isMargin, isBlank_of_isWordChar (isWordChar_of_isHexDigit h)]
  · by_cases hd : c.isDigit = true
    · exact plainDigit_of_isDigit hd
    · refine plainDigit_of_isAlpha (isAlpha_iff.mpr ?_)
      have := (isHexDigit_iff.mp h).resolve_left hd
      omega
  · intro hc
    have hmarks : ∀ d ∈ ['-', '+', '_', 'x', 'X'], (!d.isHexDigit) = true :=
      List.all_eq_true.mp (by decide)
    have hnot := hmarks c hc
    rw [h] at hnot
    cases hnot

theorem splitSign_of_unsigned {c : Char} {cs : List Char} (h : c ∉ ['-', '+']) :
    splitSign (c :: cs) = (false, c :: cs) := by
  unfold splitSign
  split
  · next e => exact absurd (List.cons.inj e).1 (by grind)
  · next e => exact absurd (List.cons.inj e).1 (by grind)
  · rfl

theorem dropHexMark_of_unmarked {cs : List Char} (h : ∀ c ∈ cs, c ∉ ['x', 'X']) :
    dropHexMark cs = cs := by
  unfold dropHexMark
  split
  · next x cs =>
      have hx := h x (by simp)
      rw [if_neg (by simpa using hx)]
  · rfl

theorem mapM_hexValue? {cs : List Char} (h : ∀ c ∈ cs, c.isHexDigit = true) :
    cs.mapM hexValue? = some (cs.map hexValue) := by
  induction cs with
  | nil => rfl
  | cons c cs ih =>
      rw [List.mapM_cons, hexValue?_hex (h c (by simp)), ih fun d hd => h d (by simp [hd])]
      rfl

/-- Hexadecimal digits are read in base 16. -/
theorem readHex?_hex {cs : List Char} (hne : cs ≠ []) (h : ∀ c ∈ cs, c.isHexDigit = true) :
    readHex? (String.ofList cs) =
      some (((cs.map hexValue).foldl (fun n v => 16 * n + v) 0 : Nat) : Int) := by
  obtain ⟨c, cs, rfl⟩ := List.exists_cons_of_ne_nil hne
  have hsign : c ∉ ['-', '+'] := by
    have := (plain_hex (h c (by simp))).2
    grind
  have hmark : ∀ d ∈ c :: cs, d ∉ ['x', 'X'] := by
    intro d hd
    have := (plain_hex (h d hd)).2
    grind
  have hjoin : '_' ∉ c :: cs := fun hm => (plain_hex (h '_' hm)).2 (by simp)
  simp only [readHex?, numberChars_of_plain fun d hd => (plain_hex (h d hd)).1,
    splitSign_of_unsigned hsign, dropHexMark_of_unmarked hmark, joinDigits?_of_none hjoin,
    mapM_hexValue? h]
  rfl

theorem integerText_natCast (n : Nat) : integerText n = toString n := rfl

end Number

/-! ### Colors -/

/-- A color in channels. -/
def rgba (r g b : Nat) (opacity : String) : String :=
  "rgba(" ++ toString r ++ ", " ++ toString g ++ ", " ++ toString b ++ ", " ++ opacity ++ ")"

/-- What hexadecimal digits with an opacity stand for: a channel has two digits, or one that counts
for both; digits of any other number are kept. -/
def hexStop (digits opacity : String) : String :=
  match digits.toList.map hexValue with
  | [r, g, b] => rgba (17 * r) (17 * g) (17 * b) opacity
  | [r, r', g, g', b, b'] => rgba (16 * r + r') (16 * g + g') (16 * b + b') opacity
  | _ => "#" ++ digits

theorem toList_hash (digits : String) : ("#" ++ digits).toList = '#' :: digits.toList := by
  rw [String.toList_append]
  rfl

namespace Stylesheet

/-- The channel that two digits stand for. -/
theorem channelAt_hex {ds : List Char} {c d : Char} {i : Nat} (h : (ds.drop i).take 2 = [c, d])
    (hc : c.isHexDigit = true) (hd : d.isHexDigit = true) :
    channelAt ds i = toString (16 * hexValue c + hexValue d) := by
  have hall : ∀ e ∈ [c, d], e.isHexDigit = true := by simp [hc, hd]
  rw [channelAt, h, channel, Number.readHex?_hex (by simp) hall, Option.getD_some,
    Number.integerText_natCast]
  simp

/-- A hexadecimal color with an opacity. -/
theorem translucent_hex {digits : String} (h : ∀ c ∈ digits.toList, c.isHexDigit = true)
    (alpha : Number.Amount) : translucent ("#" ++ digits) alpha = hexStop digits alpha.text := by
  unfold translucent hexStop
  rw [toList_hash]
  simp only
  generalize hds : digits.toList = ds at h
  have hkept : ds.length ≠ 3 → ds.length ≠ 6 → sixDigits? ds = none := by
    intro hthree hsix
    rw [sixDigits?, if_neg hthree, if_neg hsix]
  -- only three or six digits are channels
  match ds with
  | [r, g, b] =>
      simp only [List.forall_mem_cons] at h
      obtain ⟨hr, hg, hb, -⟩ := h
      have hsix : sixDigits? [r, g, b] = some [r, r, g, g, b, b] := rfl
      have hdouble : ∀ n : Nat, 16 * n + n = 17 * n := fun n => by omega
      rw [hsix]
      simp only
      rw [channelAt_hex rfl hr hr, channelAt_hex rfl hg hg, channelAt_hex rfl hb hb, hdouble,
        hdouble, hdouble]
      rfl
  | [r, r', g, g', b, b'] =>
      simp only [List.forall_mem_cons] at h
      obtain ⟨hr, hr', hg, hg', hb, hb', -⟩ := h
      have hsix : sixDigits? [r, r', g, g', b, b'] = some [r, r', g, g', b, b'] := rfl
      rw [hsix]
      simp only
      rw [channelAt_hex rfl hr hr', channelAt_hex rfl hg hg', channelAt_hex rfl hb hb']
      rfl
  | [] | [_] | [_, _] | [_, _, _, _] | [_, _, _, _, _] | _ :: _ :: _ :: _ :: _ :: _ :: _ :: _ =>
      rw [hkept (by simp) (by simp)]
      rfl

end Stylesheet

/-! ### Color stops of a text -/

namespace Css

/-- The stretch of a gradient that a color stop covers. -/
def stretch : List Char := " 0 1px,".toList

/-- The color on a line, if the line is a color stop. -/
def stop? (line : List Char) : Option String :=
  let text := line.dropWhile (· = ' ')
  if stretch.isSuffixOf text then some (String.ofList (text.take (text.length - stretch.length)))
  else none

/-- The color stops of a style sheet, line by line. -/
def stops (css : String) : List String := (css.toList.splitOn '\n').filterMap stop?

theorem stops_line {line : String} (h : '\n' ∉ line.toList) :
    stops line = (stop? line.toList).toList := by
  rw [stops, List.splitOn_eq_singleton h]
  cases h : stop? line.toList <;> simp [h]

theorem stops_newline (upper lower : String) :
    stops (upper ++ ("\n" ++ lower)) = stops upper ++ stops lower := by
  have htext : (upper ++ ("\n" ++ lower)).toList = upper.toList ++ '\n' :: lower.toList := by
    simp only [String.toList_append]
    rfl
  rw [stops, htext, List.splitOn_append_cons_self, List.filterMap_append]
  rfl

/-- The stops of a text in lines are those of its lines. -/
theorem stops_intercalate (lines : List String) :
    stops ("\n".intercalate lines) = lines.flatMap stops := by
  induction lines with
  | nil => decide
  | cons line lines ih =>
      cases lines with
      | nil => simp
      | cons next lines =>
          rw [String.intercalate_cons_cons, String.append_assoc, stops_newline, ih]
          rfl

/-- A text that is spelled out and has no color stops. -/
theorem stops_ofChars {cs : List Char} (h : (cs.splitOn '\n').filterMap stop? = []) :
    stops (String.ofList cs) = [] := by
  rw [stops, String.toList_ofList, h]

/-- A line that does not end with a comma is no color stop. -/
theorem stop?_eq_none {line : List Char} {c : Char} (hc : c ≠ ',') : stop? (line ++ [c]) = none := by
  have hnot : stretch.isSuffixOf ((line ++ [c]).dropWhile (· = ' ')) = false := by
    refine Bool.eq_false_iff.mpr fun h => ?_
    have hsuffix : stretch <:+ line ++ [c] :=
      (List.isSuffixOf_iff_suffix.mp h).trans (List.dropWhile_suffix _)
    obtain ⟨front, hfront⟩ := hsuffix
    have hlast := congrArg List.getLast? hfront
    rw [List.getLast?_append_of_ne_nil _ (by decide), List.getLast?_concat] at hlast
    exact hc (Option.some_inj.mp hlast).symm
  simp only [stop?, hnot]
  rfl

/-- A text that makes a color stop: it is on one line and does not start with a blank. -/
structure IsStop (text : String) : Prop where
  head : ∃ c cs, text.toList = c :: cs ∧ c ≠ ' '
  line : '\n' ∉ text.toList

theorem stop?_stop {margin : List Char} {text : String} (hmargin : ∀ c ∈ margin, c = ' ')
    (h : IsStop text) : stop? (margin ++ (text.toList ++ stretch)) = some text := by
  obtain ⟨c, cs, htext, hc⟩ := h.head
  have hdrop : (margin ++ (text.toList ++ stretch)).dropWhile (· = ' ') =
      text.toList ++ stretch := by
    rw [List.dropWhile_append_of_pos (by simpa using hmargin), htext, List.cons_append,
      List.dropWhile_cons_of_neg (by simpa using hc)]
  have hsuffix : stretch.isSuffixOf (text.toList ++ stretch) = true :=
    List.isSuffixOf_iff_suffix.mpr (List.suffix_append _ _)
  simp only [stop?, hdrop, hsuffix, if_true, List.length_append, Nat.add_sub_cancel,
    List.take_left, String.ofList_toList]

end Css

namespace Stylesheet

open Css

/-! ### The stops of a model's sheet -/

theorem newline_notMem {text : String} (h : IsInert text) : '\n' ∉ text.toList := by
  intro hc
  exact ne_of_isInert (h _ hc) (by decide) rfl

theorem isStop_rgba {opacity : String} (r g b : Nat) (h : IsInert opacity) :
    IsStop (rgba r g b opacity) := by
  have htext : (rgba r g b opacity).toList = ['r', 'g', 'b', 'a', '('] ++ ((toString r).toList ++
      ([',', ' '] ++ ((toString g).toList ++ ([',', ' '] ++ ((toString b).toList ++
        ([',', ' '] ++ (opacity.toList ++ [')']))))))) := by
    unfold rgba
    simp only [String.toList_append, List.append_assoc]
    rfl
  refine ⟨⟨'r', _, htext, by decide⟩, ?_⟩
  have hnumber : ∀ n : Nat, '\n' ∉ (toString n).toList := fun n => newline_notMem (.repr n)
  have hmarks : '\n' ∉ ['r', 'g', 'b', 'a', '('] ∧ '\n' ∉ [',', ' '] ∧ '\n' ∉ [')'] := by decide
  rw [htext]
  simp only [List.mem_append, not_or]
  exact ⟨hmarks.1, hnumber r, hmarks.2.1, hnumber g, hmarks.2.1, hnumber b, hmarks.2.1,
    newline_notMem h, hmarks.2.2⟩

theorem isStop_hexStop {digits opacity : String} (h : ∀ c ∈ digits.toList, c.isHexDigit = true)
    (hopacity : IsInert opacity) : IsStop (hexStop digits opacity) := by
  unfold hexStop
  split
  · exact isStop_rgba _ _ _ hopacity
  · exact isStop_rgba _ _ _ hopacity
  · have hdigits : '\n' ∉ digits.toList := fun hc => absurd (h _ hc) (by decide)
    refine ⟨⟨'#', digits.toList, toList_hash digits, by decide⟩, ?_⟩
    rw [toList_hash, List.mem_cons, not_or]
    exact ⟨by decide, hdigits⟩

/-- A line with a number is no color stop if it does not end with a comma. -/
theorem stops_value {front back : String} (hfront : '\n' ∉ front.toList) (cs : List Char) (c : Char)
    (hback : back.toList = cs ++ [c]) (hline : '\n' ∉ cs ++ [c]) (hc : c ≠ ',') (x : Float) :
    stops (front ++ Number.compact x ++ back) = [] := by
  have hnumber : '\n' ∉ (Number.compact x).toList := newline_notMem (.compact x)
  have htext : (front ++ Number.compact x ++ back).toList =
      front.toList ++ (Number.compact x).toList ++ cs ++ [c] := by
    simp only [String.toList_append, hback, List.append_assoc]
  have hnone : '\n' ∉ (front ++ Number.compact x ++ back).toList := by
    rw [htext]
    simp only [List.mem_append] at hline ⊢
    grind
  rw [stops_line hnone, htext, stop?_eq_none hc]
  rfl

/-- A rule has the stops of its block. -/
theorem stops_rule {selector : String} {block : List String}
    (h : stops (selector ++ " " ++ Text.leftBrace) = []) :
    (rule selector block).flatMap stops = block.flatMap stops := by
  have hend : stops Text.rightBrace = [] ∧ stops "" = [] :=
    ⟨stops_ofChars (by decide), stops_ofChars (by decide)⟩
  simp only [rule, List.cons_append, List.flatMap_cons, List.flatMap_append, List.flatMap_nil, h,
    hend.1, hend.2, List.nil_append, List.append_nil]

theorem stops_drawingRule (m : Model) : (drawingRule m).flatMap stops = [] := by
  rw [drawingRule, stops_rule (by decide +kernel), List.flatMap_eq_nil_iff]
  simp only [List.forall_mem_cons, List.not_mem_nil, IsEmpty.forall_iff, implies_true, and_true]
  refine ⟨?_, ?scale, ?cols, ?rows, ?_⟩
  case scale => exact stops_value (by decide) ['p', 'x'] ';' rfl (by decide) (by decide) m.scale
  case cols => exact stops_value (by decide) [] ';' rfl (by decide) (by decide) m.canvas.cols
  case rows => exact stops_value (by decide) [] ';' rfl (by decide) (by decide) m.canvas.rows
  all_goals and_intros
  all_goals exact stops_ofChars (by decide +kernel)

theorem stops_fixedRules : (roomRules ++ wallRule ++ doorRule).flatMap stops = [] := by
  simp only [roomRules, wallRule, doorRule, List.flatMap_append]
  rw [stops_rule (by decide +kernel), stops_rule (by decide +kernel), stops_rule (by decide +kernel),
    stops_rule (by decide +kernel), stops_rule (by decide +kernel), stops_rule (by decide +kernel)]
  simp only [List.append_eq_nil_iff, List.flatMap_eq_nil_iff, List.forall_mem_cons,
    List.not_mem_nil, IsEmpty.forall_iff, implies_true, and_true]
  and_intros
  all_goals exact stops_ofChars (by decide +kernel)

/-- One direction of a grid has one color stop. -/
theorem stops_gridLines {margin direction stop : String} (hmargin : ∀ c ∈ margin.toList, c = ' ')
    (hdirection : stops (margin ++ "  to " ++ direction ++ ",") = []) (hstop : IsStop stop)
    (x : Float) : (gridLines margin direction stop (Number.compact x)).flatMap stops = [stop] := by
  have hnewline : '\n' ∉ margin.toList := fun hn => absurd (hmargin _ hn) (by decide)
  have hcolor : stops (margin ++ "  " ++ stop ++ " 0 1px,") = [stop] := by
    have htext : (margin ++ "  " ++ stop ++ " 0 1px,").toList =
        (margin.toList ++ [' ', ' ']) ++ (stop.toList ++ stretch) := by
      simp only [String.toList_append, List.append_assoc]
      rfl
    have hmargin' : ∀ c ∈ margin.toList ++ [' ', ' '], c = ' ' := by
      simpa [or_imp, forall_and] using hmargin
    have hnone : '\n' ∉ (margin ++ "  " ++ stop ++ " 0 1px,").toList := by
      rw [htext]
      simp only [List.mem_append, hnewline, hstop.line, false_or]
      decide
    rw [stops_line hnone, htext, stop?_stop hmargin' hstop]
    rfl
  have hfront : '\n' ∉ (margin ++ "  transparent 1px calc(var(--u) * ").toList := by
    rw [String.toList_append, List.mem_append]
    simp only [hnewline, false_or]
    decide
  have hsize :
      stops (margin ++ "  transparent 1px calc(var(--u) * " ++ Number.compact x ++ ")") = [] :=
    stops_value hfront [] ')' rfl (by decide) (by decide) x
  simp only [gridLines, List.flatMap_cons, List.flatMap_nil, hdirection, hcolor, hsize]
  rfl

theorem stops_gridBlock {g : Model.Grid} (hmode : g.mode = "grid") {stop : String}
    (hstop : translucent (gridColor g) (.real (gridAlpha g)) = stop) (h : IsStop stop) :
    (gridBlock g).flatMap stops = [stop, stop] := by
  have hmargin : ∀ c ∈ "    ".toList, c = ' ' := by simp
  have hright : (gridLines "    " "right" stop (Number.compact g.sx)).flatMap stops = [stop] :=
    stops_gridLines hmargin (by decide +kernel) h g.sx
  have hbottom : (gridLines "    " "bottom" stop (Number.compact g.sy)).flatMap stops = [stop] :=
    stops_gridLines hmargin (by decide +kernel) h g.sy
  have hfixed : ∀ line ∈ ["  background-image:", "    repeating-linear-gradient(", "    ),",
      "    );"], stops line = [] := by decide +kernel
  simp only [List.forall_mem_cons] at hfixed
  obtain ⟨himage, hopen, hnext, hclose, -⟩ := hfixed
  simp only [gridBlock, hmode, hstop, String.reduceEq, if_false, List.flatMap_append, hright,
    hbottom, List.flatMap_cons, List.flatMap_nil, himage, hopen, hnext, hclose]
  rfl

/-- **The color stops of a style sheet** whose grid has the mode `grid`: there is one in each
direction, and it is the color of the grid with its opacity. -/
theorem stops_render {m : Model} {g : Model.Grid} {gs : List Model.Grid} (hgrids : m.grids = g :: gs)
    (hmode : g.mode = "grid") {stop : String}
    (hstop : translucent (gridColor g) (.real (gridAlpha g)) = stop) (h : IsStop stop) :
    stops (render m) = [stop, stop] := by
  have htitle : ["/* Generated by floorplan-compiler */", ""].flatMap stops = [] := by decide +kernel
  have hrule : (gridRule m).flatMap stops = [stop, stop] := by
    have hselector : stops (gridSelector g.mode ++ " " ++ Text.leftBrace) = [] := by
      rw [hmode]
      decide +kernel
    rw [gridRule, hgrids]
    exact (stops_rule hselector).trans (stops_gridBlock hmode hstop h)
  have hfixed := stops_fixedRules
  simp only [List.flatMap_append, List.append_eq_nil_iff] at hfixed
  obtain ⟨⟨hrooms, hwalls⟩, hdoors⟩ := hfixed
  rw [render, stops_intercalate]
  simp only [lines, List.flatMap_append, htitle, stops_drawingRule, hrule, hrooms, hwalls, hdoors]
  rfl

end Stylesheet

end FloorPlan
