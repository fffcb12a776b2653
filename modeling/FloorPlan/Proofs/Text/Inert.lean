import FloorPlan.Stylesheet
import FloorPlan.Proofs.Drawing.Grids
import FloorPlan.Proofs.Number.ReadBack

/-! # Texts without structure

Numbers and colors are written into style sheets and markup without escapes.  All their characters
are inert: letters, digits and marks that neither format gives a meaning.  Both outputs are lists of
lines, which are taken apart with `Text.below`. -/

namespace FloorPlan

/-- A character that is only itself in style sheets and in markup. -/
def isInert (c : Char) : Bool := isColorChar c || c = '+'

/-- A text of inert characters. -/
def IsInert (s : String) : Prop := ∀ c ∈ s.toList, isInert c = true

theorem ne_of_isInert {c d : Char} (hc : isInert c = true) (hd : isInert d = false) : c ≠ d := by
  rintro rfl
  rw [hc] at hd
  cases hd

theorem isInert_of_isDigit {c : Char} (h : c.isDigit = true) : isInert c = true := by
  simp [isInert, isColorChar, isWordChar, h]

namespace IsInert

theorem ofAll {s : String} (h : s.toList.all isInert = true) : IsInert s := List.all_eq_true.mp h

theorem append {s t : String} (hs : IsInert s) (ht : IsInert t) : IsInert (s ++ t) := by
  intro c hc
  rw [String.toList_append, List.mem_append] at hc
  exact hc.elim (hs c) (ht c)

theorem color {text : String} (h : ∀ c ∈ text.toList, isColorChar c = true) : IsInert text := by
  intro c hc
  simp [isInert, h c hc]

theorem repr (n : Nat) : IsInert n.repr := by
  intro c hc
  rw [Nat.repr_eq_ofList_toDigits, String.toList_ofList] at hc
  exact isInert_of_isDigit (Nat.isDigit_of_mem_toDigits (b := 10) (by decide) (by decide) hc)

theorem integerText (n : Int) : IsInert (Number.integerText n) := by
  unfold Number.integerText
  split
  · exact .append (.ofAll (by decide)) (repr _)
  · exact repr _

theorem figures {f : Number.Figures} (hf : f.Proper) (minus : Bool) :
    ∀ c ∈ Number.Figures.signed minus f.text, isInert c = true := by
  have hmarks : ∀ c ∈ ['.', 'e', '-', '+'], isInert c = true := List.all_eq_true.mp (by decide)
  have htext : ∀ c ∈ f.text, isInert c = true := by
    intro c hc
    rcases Number.Figures.mem_text hf hc with hd | hm
    · exact isInert_of_isDigit hd
    · exact hmarks c hm
  cases minus with
  | false => exact htext
  | true => exact List.forall_mem_cons.mpr ⟨by decide, htext⟩

/-- Numbers are inert, and so are the names that stand for infinity and undefined results. -/
theorem compact (x : Float) : IsInert (Number.compact x) := by
  have hnames : ∀ cs ∈ Number.plain.names, cs.all isInert = true := by decide
  unfold Number.compact
  split
  · exact integerText _
  · rcases Number.write_cases Number.plain x with hname | ⟨minus, f, hf, htext⟩
    · exact .ofAll (hnames _ hname)
    · unfold IsInert
      rw [htext]
      exact figures hf minus

theorem amount (a : Number.Amount) : IsInert a.text := by
  cases a with
  | real x => exact compact x
  | whole n => exact integerText n

end IsInert

/-- The color of a grid that the grammar allows is inert. -/
theorem IsGridStyle.inert {g : Model.Grid} (h : IsGridStyle g.mode g.color) :
    IsInert (Stylesheet.gridColor g) := by
  have hdefault : IsInert Stylesheet.defaultGridColor := .ofAll (by decide)
  unfold Stylesheet.gridColor
  cases hcolor : g.color with
  | none => exact hdefault
  | some text =>
      simp only
      split
      · exact hdefault
      · exact .color (h.color text hcolor)

theorem IsGridStyle.inert_mode {mode : String} {color : Option String}
    (h : IsGridStyle mode color) : IsInert mode := by
  have hmodes : ∀ text ∈ gridModeTexts, text.toList.all isInert = true := by decide
  exact .ofAll (hmodes mode h.mode)

/-! ### Lines -/

namespace Text

/-- Lines below a first one. -/
def below (lines : List String) : String := String.join (lines.map ("\n" ++ ·))

@[simp] theorem below_nil : below [] = "" := rfl

@[simp] theorem below_cons (line : String) (lines : List String) :
    below (line :: lines) = "\n" ++ line ++ below lines := String.join_cons

@[simp] theorem below_append (upper lower : List String) :
    below (upper ++ lower) = below upper ++ below lower := by
  induction upper with
  | nil => simp
  | cons line lines ih => simp [ih, String.append_assoc]

theorem mem_below {line : String} {lines : List String} (h : line ∈ lines) {c : Char}
    (hc : c ∈ line.toList) : c ∈ (below lines).toList := by
  obtain ⟨upper, lower, rfl⟩ := List.append_of_mem h
  simp [hc]

theorem intercalate_cons (line : String) (lines : List String) :
    "\n".intercalate (line :: lines) = line ++ below lines := by
  induction lines generalizing line with
  | nil => simp
  | cons next lines ih =>
      rw [String.intercalate_cons_cons, ih, below_cons]
      simp [String.append_assoc]

end Text

end FloorPlan
