import FloorPlan.Proofs.Drawing.RoundTrip
import FloorPlan.Proofs.Drawing.Texts

/-! # The separator of a size

A size is two numbers with a separator between them, `4m x 3m`, and the grammar takes an `X` for it
as well.  But `x` is a keyword and `X` is an identifier, and a number takes an identifier behind it
for its unit.  So the two separators mean the same where the first number has a unit of its own, and
only there: without one, the `X` becomes the unit (`outcome_separators`). -/

namespace FloorPlan

open Drawing

/-! ### Texts -/

/-- Two numbers, each of which may have a unit. -/
structure IsSize (a : String) (u : Option String) (b : String) (v : Option String) : Prop where
  width : IsNumeral a.toList
  widthUnit : ∀ n ∈ u, IsName n
  height : IsNumeral b.toList
  heightUnit : ∀ n ∈ v, IsName n

/-- At least one blank and nothing else. -/
structure IsSpace (cs : List Char) : Prop where
  ne_nil : cs ≠ []
  blank : ∀ c ∈ cs, Text.isBlank c = true

/-- A number and an optional unit, which may stand right behind it or after blanks. -/
inductive MeasureText (a : String) : Option String → List Char → Prop
  | bare : MeasureText a none a.toList
  | unit {u : String} {gap : List Char} (hgap : ∀ c ∈ gap, Text.isBlank c = true) :
      MeasureText a (some u) (a.toList ++ (gap ++ u.toList))

/-- Two numbers with optional units and a separator that has blanks on both sides, up to the end of
the statement. -/
inductive SizeText (separator : Char) (a : String) (u : Option String) (b : String)
    (v : Option String) : List Char → Prop
  | mk {lead width before behind height last : List Char} (hlead : IsSpace lead)
      (hwidth : MeasureText a u width) (hbefore : IsSpace before) (hbehind : IsSpace behind)
      (hheight : MeasureText b v height) (hlast : ∀ c ∈ last, Text.isBlank c = true) :
      SizeText separator a u b v
        (lead ++ (width ++ (before ++ separator :: (behind ++ (height ++ (last ++ [';']))))))

/-- `@canvas a u x b v;` -/
def CanvasText (separator : Char) (a : String) (u : Option String) (b : String) (v : Option String)
    (cs : List Char) : Prop :=
  ∃ size, SizeText separator a u b v size ∧ cs = "@canvas".toList ++ size

/-- `@grid size a u x b v;` -/
def SizedGridText (separator : Char) (a : String) (u : Option String) (b : String)
    (v : Option String) (cs : List Char) : Prop :=
  ∃ gap size, IsSpace gap ∧ SizeText separator a u b v size ∧
    cs = "@grid".toList ++ (gap ++ ("size".toList ++ size))

/-- The words of an optional unit. -/
def unitWords (u : Option String) : List Word := optionWords (fun n => [.name n]) u

/-- The words of two numbers with a separator between them, up to the end of the statement. -/
def sizeWords (separator : Word) (x : Float) (u : Option String) (y : Float) (v : Option String) :
    List Word :=
  .number x :: (unitWords u ++ separator :: .number y :: (unitWords v ++ [.keyword .semicolon]))

/-! ### Lexing -/

section

variable {a b : String} {u v : Option String} {x y : Float} {cs rest : List Char} {ws : List Word}

theorem IsSpace.apart (h : IsSpace cs) (rest : List Char) : Apart (cs ++ rest) := by
  obtain ⟨c, ds, rfl⟩ := List.exists_cons_of_ne_nil h.ne_nil
  rintro _ ⟨⟩
  exact h.blank c List.mem_cons_self

/-- Blanks in front of the end of a statement. -/
theorem bounded_end (h : ∀ c ∈ cs, Text.isBlank c = true) : Bounded (cs ++ [';']) := by
  cases cs with
  | nil =>
      rintro _ ⟨⟩
      decide
  | cons d ds =>
      have hspace : IsSpace (d :: ds) := ⟨List.cons_ne_nil d ds, h⟩
      exact (hspace.apart [';']).bounded

theorem SizeText.apart {separator : Char} (h : SizeText separator a u b v cs) : Apart cs := by
  cases h with
  | mk hlead _ _ _ _ _ => exact hlead.apart _

namespace LexedAs

theorem measure (h : LexedAs rest ws) (ha : IsNumeral a.toList)
    (hx : Number.readFloat? a = some x) (hu : ∀ n ∈ u, IsName n) (hcs : MeasureText a u cs)
    (hrest : Bounded rest) : LexedAs (cs ++ rest) (.number x :: (unitWords u ++ ws)) := by
  have hdigit : ∀ {ds : List Char}, Bounded ds → ∀ c ∈ ds.head?, c.isDigit = false ∧ c ≠ '.' := by
    intro ds hds c hc
    obtain ⟨hword, hpoint⟩ := hds c hc
    refine ⟨?_, hpoint⟩
    by_contra hd
    rw [isWordChar_of_isDigit (by simpa using hd)] at hword
    cases hword
  cases hcs with
  | bare => exact h.number ha hx (hdigit hrest)
  | @unit n gap hgap =>
      have hname := hu n rfl
      have hunit := (h.name hname hrest).blanks hgap
      rw [← List.append_assoc] at hunit
      rw [List.append_assoc]
      refine hunit.number ha hx ?_
      cases gap with
      | cons c gap =>
          have hspace : IsSpace (c :: gap) := ⟨List.cons_ne_nil c gap, hgap⟩
          have hbounded := (hspace.apart (n.toList ++ rest)).bounded
          rw [← List.append_assoc] at hbounded
          exact hdigit hbounded
      | nil =>
          -- no name starts with a digit or a point
          obtain ⟨d, ds, hds, hd⟩ := hname.1.head
          rw [List.nil_append, hds]
          rintro _ ⟨⟩
          obtain hstart | rfl := hd
          · refine ⟨isDigit_of_isWordStart hstart, ?_⟩
            rintro rfl
            exact absurd hstart (by decide)
          · decide

theorem size {separator : Char} {w : Word} (h : IsSize a u b v)
    (hx : Number.readFloat? a = some x) (hy : Number.readFloat? b = some y) (hw : w.Proper)
    (hsep : w.Written [separator]) (hcs : SizeText separator a u b v cs) :
    LexedAs cs (sizeWords w x u y v) := by
  cases hcs with
  | mk hlead hwidth hbefore hbehind hheight hlast =>
      have hsecond := (LexedAs.semicolon.blanks hlast).measure h.height hy h.heightUnit hheight
        (bounded_end hlast)
      have hseparated := (hsecond.blanks hbehind.blank).word hw hsep (hbehind.apart _)
      have hfirst := (hseparated.blanks hbefore.blank).measure h.width hx h.widthUnit hwidth
        (hbefore.apart _).bounded
      exact hfirst.blanks hlead.blank

end LexedAs

/-! ### Texts without comments -/

theorem slash_notMem_measure (ha : IsNumeral a.toList) (hu : ∀ n ∈ u, IsName n)
    (h : MeasureText a u cs) : '/' ∉ cs := by
  have hnumber := slash_notMem_numeral ha
  cases h with
  | bare => exact hnumber
  | @unit n gap hgap =>
      have hname : '/' ∉ n.toList := fun hs => absurd ((hu n rfl).1.mem hs) (by decide)
      simp only [List.mem_append, not_or]
      exact ⟨hnumber, slash_notMem_blanks hgap, hname⟩

theorem slash_notMem_size {separator : Char} (h : IsSize a u b v) (hsep : separator ≠ '/')
    (hcs : SizeText separator a u b v cs) : ∃ ds, cs = ds ++ [';'] ∧ '/' ∉ ds := by
  cases hcs with
  | @mk lead width before behind height last hlead hwidth hbefore hbehind hheight hlast =>
      refine ⟨lead ++ (width ++ (before ++ separator :: (behind ++ (height ++ last)))), by simp, ?_⟩
      simp only [List.mem_append, List.mem_cons, not_or]
      exact ⟨slash_notMem_blanks hlead.blank, slash_notMem_measure h.width h.widthUnit hwidth,
        slash_notMem_blanks hbefore.blank, hsep.symm, slash_notMem_blanks hbehind.blank,
        slash_notMem_measure h.height h.heightUnit hheight, slash_notMem_blanks hlast⟩

end

/-! ### Outcomes -/

namespace Parser

/-- What a production gives: its result and the problems that it reports. -/
def outcome {α : Type} (s : Parser) (p : Parse α) : Option (α × Diagnostics) :=
  match p s with
  | .ok a s' => some (a, s'.messages.drop s.messages.length)
  | .error _ _ => none

theorem outcome_move {α : Type} {s : Parser} {p : Parse α} {a : α} {n : Nat}
    (h : p s = .ok a (s.move n)) : s.outcome p = some (a, []) := by
  simp [outcome, h]

theorem outcome_report {α : Type} {s : Parser} {p : Parse α} {a : α} {n : Nat} {d : Diagnostic}
    (h : p s = .ok a ((s.move n).report d)) : s.outcome p = some (a, [d]) := by
  simp [outcome, h, report]

/-- A production that reads the words ahead reports nothing. -/
theorem BeforeWords.outcome {α : Type} {s : Parser} {ws : List Word} {p : Parse α} {a : α}
    (h : s.BeforeWords ws) (hp : Reads p ws anyKind (· = a)) : s.outcome p = some (a, []) := by
  obtain ⟨hs, ts, rest, hr, hts⟩ := h
  obtain ⟨_, hrun, rfl⟩ := hp s ts rest hs hr hts trivial
  exact outcome_move hrun

end Parser

/-! ### Statements in words -/

section

variable {a b : String} {u v : Option String} {x y : Float} {separator : Char} {w : Word}
variable {s t : Parser}

theorem getLast?_sizeWords (front : List Word) :
    (front ++ sizeWords w x u y v).getLast? = some (.keyword .semicolon) := by
  have hsplit : front ++ sizeWords w x u y v =
      (front ++ .number x :: (unitWords u ++ w :: .number y :: unitWords v)) ++
        [.keyword .semicolon] := by
    simp [sizeWords]
  rw [hsplit, List.getLast?_concat]

theorem Parser.Before.canvas (h : s.Before (CanvasText separator a u b v)) (hsize : IsSize a u b v)
    (hx : Number.readFloat? a = some x) (hy : Number.readFloat? b = some y) (hw : w.Proper)
    (hsep : w.Written [separator]) (hslash : separator ≠ '/') :
    s.BeforeWords (.keyword .atCanvas :: sizeWords w x u y v) := by
  refine h.words (getLast?_sizeWords [.keyword .atCanvas]) ?_
  rintro _ ⟨size, hcs, rfl⟩
  have hlexed := (LexedAs.size hsize hx hy hw hsep hcs).keyword (k := .atCanvas) (by decide) hcs.apart
  obtain ⟨ds, rfl, hds⟩ := slash_notMem_size hsize hslash hcs
  refine ⟨hlexed, "@canvas".toList ++ ds, by rw [List.append_assoc], ?_⟩
  rw [List.mem_append, not_or]
  exact ⟨by decide, hds⟩

theorem Parser.Before.sizedGrid (h : s.Before (SizedGridText separator a u b v))
    (hsize : IsSize a u b v) (hx : Number.readFloat? a = some x) (hy : Number.readFloat? b = some y)
    (hw : w.Proper) (hsep : w.Written [separator]) (hslash : separator ≠ '/') :
    s.BeforeWords (.keyword .atGrid :: .keyword .sizeWord :: sizeWords w x u y v) := by
  refine h.words (getLast?_sizeWords [.keyword .atGrid, .keyword .sizeWord]) ?_
  rintro _ ⟨gap, size, hgap, hcs, rfl⟩
  have hword := (LexedAs.size hsize hx hy hw hsep hcs).keyword (k := .sizeWord) (by decide) hcs.apart
  have hlexed := (hword.blanks hgap.blank).keyword (k := .atGrid) (by decide) (hgap.apart _)
  obtain ⟨ds, rfl, hds⟩ := slash_notMem_size hsize hslash hcs
  refine ⟨hlexed, "@grid".toList ++ (gap ++ ("size".toList ++ ds)), by simp, ?_⟩
  simp only [List.mem_append, not_or]
  exact ⟨by decide, slash_notMem_blanks hgap.blank, by decide, hds⟩

end

/-! ### Reading -/

/-- A grid without its place. -/
def Parse.bareGrid : Parse Grid := do return (← grid).eraseSpan

theorem reads_largeTimes : Reads Parse.times [.name "X"] anyKind fun _ => True := by
  refine reads_name fun s _ hv => ?_
  have htimes : s.current.kind = .xWord ∨ Parse.isTimes s.current = true := by
    simp [Parse.isTimes, hv]
  refine Reads.after (Parse.get_run s) ⟨(), ?_, trivial⟩
  rw [if_pos (by simpa using htimes)]
  exact Parse.discard_ok (Parse.take_run s)

/-- The separator is missing where a number comes next. -/
theorem reads_noTimes : Reads Parse.times [] (· = .number) fun _ => True := by
  intro s ts rest hs hr hts hF
  rw [WordTokens.nil_iff.mp hts] at hr ⊢
  have hnumber : nextKind s.rest = .number := by rw [hr, List.nil_append, hF]
  have hkind : s.current.kind ≠ .xWord := by
    rw [Parser.current_kind, hnumber]
    decide
  have htimes : Parse.isTimes s.current = false := by
    rw [Bool.eq_false_iff, Ne, hs.isTimes_iff]
    exact not_nextTimes hs.regular (by rw [hnumber]; decide)
  refine Reads.after (Parse.get_run s) ⟨(), ?_, trivial⟩
  rw [if_neg (by simpa using ⟨hkind, htimes⟩)]
  rfl

section

variable {x y : Float} {unit : String} {v : Option String} {ws ws' : List Word} {F : Kind → Prop}

/-- A canvas, by what its first number and its separator read. -/
theorem reads_sizedCanvas (hwidth : Reads Parse.measure ws F (· = ⟨x, unit⟩))
    (htimes : Reads Parse.times ws' (· = .number) fun _ => True)
    (hF : Leads (ws' ++ .number y :: (unitWords v ++ [.keyword .semicolon])) anyKind F) :
    Reads Parse.canvas (.keyword .atCanvas :: (ws ++
        (ws' ++ .number y :: (unitWords v ++ [.keyword .semicolon])))) anyKind (· = ⟨x, y, unit⟩) := by
  refine reads_take.discard.andThen fun _ _ => hwidth.bind hF ?_
  rintro _ rfl
  have hheight : Reads Parse.measure (.number y :: unitWords v) (· ≠ .identifier)
      (· = ⟨y, v.getD baseUnit⟩) := reads_looseMeasure
  refine htimes.bind (opens_number (F := (· = .number)) rfl).leads fun _ _ => ?_
  refine hheight.bind (opens_keyword (by decide)).leads ?_
  rintro _ rfl
  exact reads_skip.before fun _ _ _ _ => ⟨_, rfl, rfl⟩

/-- A grid with two sizes, by what its first number and its separator read. -/
theorem reads_sizedGrid {w : Word} (hw : w.IsTimes)
    (hwidth : Reads Parse.measure ws F (· = ⟨x, unit⟩)) (hF : Opens [w] F) :
    Reads Parse.bareGrid (.keyword .atGrid :: .keyword .sizeWord :: (ws ++
        w :: .number y :: (unitWords v ++ [.keyword .semicolon])))
      anyKind (· = ⟨"grid", x, y, unit, none, none, none⟩) := by
  have hheight : Reads Parse.measure (.number y :: unitWords v) (· ≠ .identifier) (·.value = y) :=
    reads_looseMeasure.mono fun m hm => by rw [hm]
  have hgrid : Reads Parse.grid (.keyword .atGrid :: .keyword .sizeWord :: (ws ++
        w :: .number y :: (unitWords v ++ [.keyword .semicolon])))
      anyKind (·.eraseSpan = ⟨"grid", x, y, unit, none, none, none⟩) := by
    have hsize := reads_doubleSize hw hwidth (hF.append (.number y :: unitWords v)).leads hheight
    have hend : ∀ {F : Kind → Prop}, F .semicolon → Leads [.keyword .semicolon] anyKind F :=
      fun hk => (opens_keyword hk).leads
    have hmode : Leads (.keyword .sizeWord :: (ws ++ w :: .number y :: unitWords v) ++
        [.keyword .semicolon]) anyKind (· ∉ Parse.modeWords) := (opens_keyword (by decide)).leads
    have hparts : Reads Parse.grid (.keyword .atGrid :: (.keyword .sizeWord ::
        (ws ++ w :: .number y :: unitWords v) ++ [.keyword .semicolon]))
        anyKind (·.eraseSpan = ⟨"grid", x, y, unit, none, none, none⟩) := by
      refine reads_take.andThen fun _ _ => reads_noMode.bind hmode ?_
      rintro _ rfl
      refine hsize.bind (hend (by decide)) ?_
      rintro _ rfl
      refine (reads_gridColor (c := none)).bind (hend (by decide)) ?_
      rintro _ rfl
      refine (reads_gridAlpha (x := none)).bind (hend (by decide)) ?_
      rintro _ rfl
      exact reads_skip.before fun _ _ s hs => span_ok hs _ fun _ => rfl
    simpa using hparts
  exact hgrid.before fun g hg s _ => ⟨_, rfl, hg⟩

end

/-- The keyword, the number and the unit are one token each. -/
theorem length_size {x : Float} {unit : String} {ts : List Token}
    (h : WordTokens (.keyword .sizeWord :: measureWords x unit) ts) : ts.length = 3 := by
  obtain ⟨us, vs, rfl, hsize, hmeasure⟩ := WordTokens.cons_iff.mp h
  obtain ⟨us', vs', rfl, ⟨_, hnumber, -⟩, hname⟩ := WordTokens.cons_iff.mp hmeasure
  obtain ⟨_, rfl, -, -⟩ := eq_singleton_of_pair hsize
  obtain ⟨_, rfl, -, -⟩ := eq_singleton_of_pair hnumber
  obtain ⟨_, rfl, -, -⟩ := eq_singleton_of_pair hname.single
  rfl

/-- A size whose unit is the separator: the grid ends before its second number. -/
theorem bareGrid_swallowed {s : Parser} {x y : Float} {v : Option String}
    (h : s.BeforeWords (.keyword .atGrid :: .keyword .sizeWord :: sizeWords (.name "X") x none y v)) :
    ∃ token, s.rest[4]? = some token ∧ token.kind = .number ∧
      Parse.bareGrid s = .ok ⟨"grid", x, x, "X", none, none, none⟩
        ((s.move 4).report (.missing .semicolon token)) := by
  obtain ⟨hs, ts, rest, hr, hts⟩ := h
  have hwords : WordTokens ([.keyword .atGrid] ++ ((.keyword .sizeWord :: measureWords x "X") ++
      (.number y :: (unitWords v ++ [.keyword .semicolon])))) ts := hts
  obtain ⟨us, vs, rfl, hus, hvs⟩ := WordTokens.append_iff.mp hwords
  obtain ⟨us', vs', rfl, hus', hvs'⟩ := WordTokens.append_iff.mp hvs
  obtain ⟨t₀, rfl, -, -⟩ := eq_singleton_of_pair hus.single
  obtain ⟨token, ws, rfl, hk⟩ := opens_number (F := (· = .number)) rfl vs' hvs'
  have hlen := length_size hus'
  have hrest₁ : (s.move 1).rest = us' ++ (token :: ws ++ rest) := by
    rw [Parser.move_rest, hr]
    simp
  have hrest₄ : (s.move 4).rest = token :: ws ++ rest := by
    rw [show s.move 4 = (s.move 1).move 3 from (Parser.move_move s 1 3).symm, Parser.move_rest, hrest₁,
      ← hlen, List.drop_left]
  have htoken : s.rest[4]? = some token := by
    rw [← Nat.add_zero 4, ← List.getElem?_drop, ← Parser.move_rest, hrest₄]
    rfl
  have hcurrent : (s.move 4).current = token := Parser.current_of_rest hrest₄
  have hnumber : nextKind (s.move 4).rest = .number := by
    rw [hrest₄]
    exact hk
  refine ⟨token, htoken, hk, ?_⟩
  have hmissing : Parse.skip .semicolon (s.move 4) =
      .ok () ((s.move 4).report (.missing .semicolon token)) := by
    rw [← hcurrent]
    exact Parse.discard_ok (Parse.expect_missing (by rw [hnumber]; decide))
  obtain ⟨g, hgrid, hg⟩ : ∃ g, Parse.grid s =
      .ok g ((s.move 4).report (.missing .semicolon token)) ∧
        g.eraseSpan = ⟨"grid", x, x, "X", none, none, none⟩ := by
    have hrest : s.rest = [t₀] ++ (us' ++ (token :: ws ++ rest)) := by
      rw [hr]
      simp
    have hmode : nextKind (s.move 1).rest ∉ Parse.modeWords := by
      rw [hrest₁, nextKind_of_keyword hus']
      decide
    have hother : nextKind (token :: ws ++ rest) ∉ [Kind.xWord, .identifier, .string] := by
      rw [← hrest₄, hnumber]
      decide
    have hcolor : Parse.gridColor (s.move 4) = .ok none (s.move 4) := by
      unfold Parse.gridColor
      rw [Parse.bind_ok (Parse.accepts_false (by rw [hnumber]; decide))]
      rfl
    have halpha : Parse.gridAlpha (s.move 4) = .ok none (s.move 4) := by
      unfold Parse.gridAlpha
      rw [Parse.bind_ok (Parse.accepts_false (by rw [hnumber]; decide))]
      rfl
    refine reads_take.run hs hrest hus trivial fun first _ => ?_
    refine Reads.after (Parse.accept?_none hmode) ?_
    refine reads_singleSize.run (hs.move 1) hrest₁ hus' hother ?_
    rintro _ rfl
    rw [hlen, Parser.move_move]
    refine Reads.after hcolor (Reads.after halpha ?_)
    obtain ⟨g, hend, hg⟩ := span_ok (s := (s.move 4).report (.missing .semicolon token)) hs.shift
      first.start (f := fun span => (⟨"grid", x, x, "X", none, none, some span⟩ : Grid))
      (Q := (·.eraseSpan = ⟨"grid", x, x, "X", none, none, none⟩)) fun _ => rfl
    exact ⟨g, (Parse.bind_ok hmissing).trans hend, hg⟩
  unfold Parse.bareGrid
  rw [Parse.bind_ok hgrid, ← hg]
  rfl

/-! ### Both separators -/

section

variable {x y : Float} {u v : Option String} {s : Parser}

theorem small_written : (Word.keyword .xWord).Proper ∧ (Word.keyword .xWord).Written ['x'] :=
  ⟨show Kind.xWord ∈ Word.fixedKinds by decide, rfl⟩

theorem large_written : (Word.name "X").Proper ∧ (Word.name "X").Written ['X'] :=
  ⟨show IsName "X" by decide, rfl⟩

theorem opens_xWord : Opens [.keyword .xWord] (· ≠ .identifier) := opens_keyword (by decide)

theorem canvas_small (h : s.BeforeWords (.keyword .atCanvas :: sizeWords (.keyword .xWord) x u y v)) :
    s.outcome Parse.canvas = some (⟨x, y, u.getD baseUnit⟩, []) :=
  h.outcome (reads_sizedCanvas reads_looseMeasure reads_times.anywhere (opens_xWord.append _).leads)

/-- A large separator is the unit of a number without one. -/
theorem canvas_large (h : s.BeforeWords (.keyword .atCanvas :: sizeWords (.name "X") x u y v)) :
    s.outcome Parse.canvas = some (⟨x, y, u.getD "X"⟩, []) := by
  cases u with
  | none => exact h.outcome (reads_sizedCanvas reads_measure reads_noTimes leads_any)
  | some n => exact h.outcome (reads_sizedCanvas reads_measure reads_largeTimes.anywhere leads_any)

theorem grid_small
    (h : s.BeforeWords (.keyword .atGrid :: .keyword .sizeWord ::
      sizeWords (.keyword .xWord) x u y v)) :
    s.outcome Parse.bareGrid = some (⟨"grid", x, y, u.getD baseUnit, none, none, none⟩, []) := by
  exact h.outcome (reads_sizedGrid Word.isTimes_xWord reads_looseMeasure opens_xWord)

theorem grid_large {n : String}
    (h : s.BeforeWords (.keyword .atGrid :: .keyword .sizeWord ::
      sizeWords (.name "X") x (some n) y v)) :
    s.outcome Parse.bareGrid = some (⟨"grid", x, y, n, none, none, none⟩, []) := by
  have htimes : (Word.name "X").IsTimes := fun _ hus => ⟨.identifier, .inr hus⟩
  exact h.outcome (reads_sizedGrid htimes reads_measure (opens_name trivial))

end

/-- **The separator of a size**: a canvas and a grid mean the same with `X` as with `x` if and only
if their first number has a unit of its own.  Without one, `X` is the unit of a canvas, and a grid
takes one number for both directions and misses its semicolon before the other one. -/
theorem outcome_separators {a b : String} {u v : Option String} (h : IsSize a u b v) :
    ∃ x y, Number.readFloat? a = some x ∧ Number.readFloat? b = some y ∧
      (∀ s t : Parser, s.Before (CanvasText 'x' a u b v) → t.Before (CanvasText 'X' a u b v) →
        s.outcome Parse.canvas = some (⟨x, y, u.getD baseUnit⟩, []) ∧
        t.outcome Parse.canvas = some (⟨x, y, u.getD "X"⟩, []) ∧
        (t.outcome Parse.canvas = s.outcome Parse.canvas ↔ u.isSome = true)) ∧
      ∀ s t : Parser, s.Before (SizedGridText 'x' a u b v) → t.Before (SizedGridText 'X' a u b v) →
        s.outcome Parse.bareGrid =
          some (⟨"grid", x, y, u.getD baseUnit, none, none, none⟩, []) ∧
        (u = none → ∃ token, t.rest[4]? = some token ∧ token.kind = .number ∧
          t.outcome Parse.bareGrid =
            some (⟨"grid", x, x, "X", none, none, none⟩, [.missing .semicolon token])) ∧
        (t.outcome Parse.bareGrid = s.outcome Parse.bareGrid ↔ u.isSome = true) := by
  obtain ⟨x, hx⟩ := Option.isSome_iff_exists.mp (Number.readFloat?_isSome h.width)
  obtain ⟨y, hy⟩ := Option.isSome_iff_exists.mp (Number.readFloat?_isSome h.height)
  have hunits : baseUnit ≠ "X" := by decide
  refine ⟨x, y, hx, hy, fun s t hs ht => ?canvas, fun s t hs ht => ?grid⟩
  case canvas =>
    have hs' := canvas_small (hs.canvas h hx hy small_written.1 small_written.2 (by decide))
    have ht' := canvas_large (ht.canvas h hx hy large_written.1 large_written.2 (by decide))
    refine ⟨hs', ht', ?_⟩
    rw [hs', ht']
    cases u with
    | none => simpa using hunits.symm
    | some n => simp
  case grid =>
    have hs' := grid_small (hs.sizedGrid h hx hy small_written.1 small_written.2 (by decide))
    have htwords := ht.sizedGrid h hx hy large_written.1 large_written.2 (by decide)
    rw [hs']
    cases u with
    | none =>
        obtain ⟨token, htoken, hk, hrun⟩ := bareGrid_swallowed htwords
        have ht' := Parser.outcome_report hrun
        refine ⟨rfl, fun _ => ⟨token, htoken, hk, ht'⟩, ?_⟩
        rw [ht']
        simp
    | some n =>
        refine ⟨rfl, (fun hnone => nomatch hnone), ?_⟩
        rw [grid_large htwords]
        simp

/-- The place `n` tokens into a source. -/
theorem exists_before (before w after : String) {text : List Char → Prop} (hw : text w.toList)
    (n : Nat) (hplace : (tokenize (before ++ w ++ after)).toOption.map (fun ts =>
      ((Parser.ofTokens ts).move n).rest.head?.map (·.start.offset)) = some (some before.length)) :
    ∃ s : Parser, s.Before text := by
  obtain ⟨tokens, htokens, hhead⟩ := Option.map_eq_some_iff.mp hplace
  obtain ⟨t, ht, hoffset⟩ := Option.map_eq_some_iff.mp hhead
  exact ⟨_, before, w, after, tokens, t, hw, tokenize_of_toOption htokens, .move _ n, ht, hoffset⟩

theorem isSpace_blank : IsSpace [' '] := ⟨by decide, List.all_eq_true.mp (by decide)⟩

theorem isSize_sketch {u : Option String} (hu : ∀ n ∈ u, IsName n) : IsSize "4" u "3" none :=
  ⟨.whole (by decide) (List.all_eq_true.mp (by decide)), hu,
    .whole (by decide) (List.all_eq_true.mp (by decide)), nofun⟩

/-- `4 X 3;` with or without a unit right behind the first number. -/
theorem sizeText_sketch (separator : Char) {u : Option String} {width : List Char}
    (h : MeasureText "4" u width) : SizeText separator "4" u "3" none
      ([' '] ++ (width ++ ([' '] ++ separator :: ([' '] ++ (['3'] ++ ([] ++ [';'])))))) :=
  .mk isSpace_blank h isSpace_blank isSpace_blank .bare nofun

theorem outcome_separators_sketch :
    IsSize "4" (some "m") "3" none ∧ IsSize "4" none "3" none ∧
      (∃ s t : Parser, s.Before (CanvasText 'x' "4" (some "m") "3" none) ∧
        t.Before (CanvasText 'X' "4" (some "m") "3" none) ∧
        t.outcome Parse.canvas = s.outcome Parse.canvas) ∧
      ∃ (s t : Parser) (x : Float) (token : Token),
        s.Before (SizedGridText 'x' "4" none "3" none) ∧
        t.Before (SizedGridText 'X' "4" none "3" none) ∧ token.kind = .number ∧
        t.outcome Parse.bareGrid =
          some (⟨"grid", x, x, "X", none, none, none⟩, [.missing .semicolon token]) := by
  have hmetres : IsSize "4" (some "m") "3" none := isSize_sketch (by simp; decide)
  have hbare : IsSize "4" none "3" none := isSize_sketch nofun
  have hunit : MeasureText "4" (some "m") ['4', 'm'] := @MeasureText.unit "4" "m" [] nofun
  have hblank : ∀ separator, SizedGridText separator "4" none "3" none
      ("@grid".toList ++ ([' '] ++ ("size".toList ++ ([' '] ++ ("4".toList ++ ([' '] ++
        separator :: ([' '] ++ (['3'] ++ ([] ++ [';']))))))))) := fun separator =>
    ⟨_, _, isSpace_blank, sizeText_sketch separator .bare, rfl⟩
  obtain ⟨s, hs⟩ : ∃ s : Parser, s.Before (CanvasText 'x' "4" (some "m") "3" none) :=
    exists_before ("@draw T" ++ Text.leftBrace) "@canvas 4m x 3;" Text.rightBrace
      ⟨_, sizeText_sketch 'x' hunit, by decide⟩ 3 (by decide +kernel)
  obtain ⟨t, ht⟩ : ∃ t : Parser, t.Before (CanvasText 'X' "4" (some "m") "3" none) :=
    exists_before ("@draw T" ++ Text.leftBrace) "@canvas 4m X 3;" Text.rightBrace
      ⟨_, sizeText_sketch 'X' hunit, by decide⟩ 3 (by decide +kernel)
  obtain ⟨s', hs'⟩ : ∃ s : Parser, s.Before (SizedGridText 'x' "4" none "3" none) :=
    exists_before ("@draw T" ++ Text.leftBrace ++ "@canvas 1 x 1;")
      "@grid size 4 x 3;" Text.rightBrace (hblank 'x') 8 (by decide +kernel)
  obtain ⟨t', ht'⟩ : ∃ t : Parser, t.Before (SizedGridText 'X' "4" none "3" none) :=
    exists_before ("@draw T" ++ Text.leftBrace ++ "@canvas 1 x 1;")
      "@grid size 4 X 3;" Text.rightBrace (hblank 'X') 8 (by decide +kernel)
  obtain ⟨_, _, -, -, hcanvas, -⟩ := outcome_separators hmetres
  obtain ⟨x, _, -, -, -, hgrid⟩ := outcome_separators hbare
  obtain ⟨token, -, hk, hreported⟩ := (hgrid s' t' hs' ht').2.1 rfl
  exact ⟨hmetres, hbare, ⟨s, t, hs, ht, (hcanvas s t hs ht).2.2.mpr rfl⟩, s', t', x, token, hs', ht',
    hk, hreported⟩

/-- The case of the separator matters where the first number has no unit. -/
theorem not_outcome_separators :
    ¬ ∀ (a b : String) (u v : Option String), IsSize a u b v →
      (∀ s t : Parser, s.Before (CanvasText 'x' a u b v) → t.Before (CanvasText 'X' a u b v) →
        t.outcome Parse.canvas = s.outcome Parse.canvas) ∧
      ∀ s t : Parser, s.Before (SizedGridText 'x' a u b v) → t.Before (SizedGridText 'X' a u b v) →
        t.outcome Parse.bareGrid = s.outcome Parse.bareGrid := by
  intro hall
  have hsize : IsSize "4" none "3" none := isSize_sketch nofun
  obtain ⟨x, hx⟩ := Option.isSome_iff_exists.mp (Number.readFloat?_isSome hsize.width)
  obtain ⟨y, hy⟩ := Option.isSome_iff_exists.mp (Number.readFloat?_isSome hsize.height)
  obtain ⟨s, hs⟩ : ∃ s : Parser, s.Before (CanvasText 'x' "4" none "3" none) :=
    exists_before ("@draw T" ++ Text.leftBrace) "@canvas 4 x 3;" Text.rightBrace
      ⟨_, sizeText_sketch 'x' .bare, by decide⟩ 3 (by decide +kernel)
  obtain ⟨t, ht⟩ : ∃ t : Parser, t.Before (CanvasText 'X' "4" none "3" none) :=
    exists_before ("@draw T" ++ Text.leftBrace) "@canvas 4 X 3;" Text.rightBrace
      ⟨_, sizeText_sketch 'X' .bare, by decide⟩ 3 (by decide +kernel)
  have hsame := (hall _ _ _ _ hsize).1 s t hs ht
  rw [canvas_small (hs.canvas hsize hx hy small_written.1 small_written.2 (by decide)),
    canvas_large (ht.canvas hsize hx hy large_written.1 large_written.2 (by decide))] at hsame
  have hunits : baseUnit ≠ "X" := by decide
  exact hunits (by simpa using hsame.symm)

end FloorPlan
