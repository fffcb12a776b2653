import FloorPlan.Proofs.Grammar.Recognition

/-! # The drawings that are accepted

`Grammar.drawing` is the grammar of drawings without reserved statements.  The parser goes on
after every error, and yet it accepts exactly this grammar: it reports no error if and only if the
tokens start with a word of `Grammar.drawing` (`errors_eq_nil_iff`).

Each production of the parser recognises its phrase.  Two phrases are not what the parser goes by:
a property without a semicolon may stand anywhere for the parser, but a closing brace has to
follow, so it is the last one (`many_propertyItem_iff`); and a name is taken for that of a unit
only before an equals sign (`recogniser_unitName`). -/

namespace FloorPlan

/-! ### The grammar -/

namespace Grammar

open Phrase

/-- `NUMBER IDENTIFIER?`, where an identifier after the number is always its unit. -/
def measure : Phrase := all [kind .number, alt (kind .identifier) (absent .identifier)]

/-- Any token with the text `x` or `X`. -/
def times : Phrase := token fun t => t.value = "x" || t.value = "X"

/-- `( measure , measure )` -/
def coordinate : Phrase :=
  all [kind .leftParen, measure, kind .comma, measure, kind .rightParen]

/-- `@module IDENTIFIER ;` -/
def moduleDecl : Phrase := all [kind .atModule, kind .identifier, kind .semicolon]

/-- `@unit IDENTIFIER? = measure ;` -/
def unitDecl : Phrase :=
  all [kind .atUnit, opt (kind .identifier), kind .equals, measure, kind .semicolon]

/-- `HIERARCHY ;?` -/
def sectionMark : Phrase := all [kind .hierarchy, opt (kinds [.semicolon])]

/-- `@canvas measure x? measure ;` -/
def canvas : Phrase := all [kind .atCanvas, measure, opt times, measure, kind .semicolon]

/-- `label : STRING ;` -/
def label : Phrase := all [kind .labelWord, kind .colon, kind .string, kind .semicolon]

/-- The tokens of a style value: all but a semicolon and a closing brace. -/
def styleValue : Phrase := many (token fun t => t.kind ≠ .semicolon && t.kind ≠ .rightBrace)

/-- `IDENTIFIER : value ;` -/
def style : Phrase := all [kind .identifier, kind .colon, styleValue, kind .semicolon]

/-- `IDENTIFIER : value` -/
def openStyle : Phrase := all [kind .identifier, kind .colon, styleValue]

/-- Labels and style properties, the last of which may lack its semicolon. -/
def properties : Phrase := all [many (alt label style), opt openStyle]

/-- `{ properties }` -/
def braces : Phrase := all [kind .leftBrace, properties, kind .rightBrace]

/-- `room IDENTIFIER at coordinate size coordinate`, then braces, a semicolon or nothing. -/
def room : Phrase :=
  all [kind .roomWord, kind .identifier, kind .atWord, coordinate, kind .sizeWord, coordinate,
    opt (alt braces (kind .semicolon))]

/-- `from coordinate to coordinate` -/
def segment : Phrase := all [kind .fromWord, coordinate, kind .toWord, coordinate]

/-- `wall segment ;` -/
def wall : Phrase := all [kind .wallWord, segment, kind .semicolon]

/-- `door segment width measure ;` -/
def door : Phrase := all [kind .doorWord, segment, kind .widthWord, measure, kind .semicolon]

/-- `repeat IDENTIFIER segment space measure ;` -/
def copies : Phrase :=
  all [kind .repeatWord, kind .identifier, segment, kind .spaceWord, measure, kind .semicolon]

/-- One of the five words for a mode. -/
def mode : Phrase := kinds [.gridWord, .linesWord, .vlinesWord, .hlinesWord, .dottedWord]

/-- `size measure (x measure)?` -/
def gridSize : Phrase := all [kind .sizeWord, measure, opt (all [times, measure])]

/-- `color`, then a hash with the parts of a number, an identifier or nothing. -/
def gridColor : Phrase :=
  all [kind .colorWord,
    opt (alt (all [kind .hash, many (kinds [.number, .identifier])]) (kind .identifier))]

/-- `alpha measure` -/
def gridAlpha : Phrase := all [kind .alphaWord, measure]

/-- `@grid mode? size? color? alpha? ;` -/
def grid : Phrase :=
  all [kind .atGrid, opt mode, opt gridSize, opt gridColor, opt gridAlpha, kind .semicolon]

/-- A statement of the draw block. -/
def item : Phrase := any room [wall, door, copies, grid]

/-- A whole drawing. -/
def drawing : Phrase :=
  all [opt moduleDecl, many (alt unitDecl sectionMark), kind .atDraw, kind .identifier,
    kind .leftBrace, canvas, many item, kind .rightBrace]

/-- The words of a drawing stay words whatever comes after them. -/
theorem drawing_closed : drawing.Closed :=
  .cons (.cons (.cons (.cons (.cons (.cons (.cons (.last (.kind .rightBrace))))))))

end Grammar

/-! ### Shared productions -/

theorem recogniser_number : Recogniser Parse.number (.kind .number) anywhere := by
  intro s hs
  refine (recogniser_expect (by decide) s hs).before fun a s' hp => ?_
  by_cases h : nextKind s.rest = .number
  · obtain ⟨t, ts, hr, ht⟩ := eq_cons_of_nextKind h (by decide)
    rw [Parse.expect_some h, Parser.current_of_rest hr] at hp
    cases hp
    have hnum := (hs.regular t (by simp [hr])).numeral ht
    obtain ⟨x, hx⟩ := Option.isSome_iff_exists.mp (Number.readFloat?_isSome hnum)
    have hx : Number.readFloat? t.value = some x := hx
    exact ⟨x, by simp [Parse.numberValue, hx, Parse.pure_run]⟩
  · obtain ⟨d, -, hp'⟩ := Parse.expect_none h
    rw [hp'] at hp
    cases hp
    exact ⟨0, rfl⟩

theorem recogniser_identifier? :
    Recogniser Parse.identifier? (.alt (.kind .identifier) (.absent .identifier)) anywhere := by
  intro s _
  by_cases h : nextKind s.rest = .identifier
  · obtain ⟨t, ts, hr, ht⟩ := eq_cons_of_nextKind h (by decide)
    refine .left (.taken (Parse.identifier?_some h) hr (by simp [ht])) fun rest hd => ?_
    exact (Derives.absent_iff.mp hd).2 h
  · refine .right (.silent (Parse.identifier?_none h) (by simp [h]) (by simp)) fun rest hd => ?_
    obtain ⟨t, hr, ht⟩ := Derives.kind_iff.mp hd
    exact h (by simp [hr, ht])

theorem recogniser_measure : Recogniser Parse.measure Grammar.measure anywhere :=
  .bind recogniser_number fun _ => .bind recogniser_identifier? fun _ => recogniser_pure _

theorem recogniser_coordinate : Recogniser Parse.coordinate Grammar.coordinate anywhere :=
  (recogniser_skip (by decide)).bind fun _ => .bind recogniser_measure fun _ =>
    (recogniser_skip (by decide)).bind fun _ => .bind recogniser_measure fun _ =>
      (recogniser_skip (by decide)).bind fun _ => recogniser_pure _

theorem recogniser_segment : Recogniser Parse.segment Grammar.segment anywhere :=
  (recogniser_skip (by decide)).bind fun _ => .bind recogniser_coordinate fun _ =>
    (recogniser_skip (by decide)).bind fun _ => .bind recogniser_coordinate fun _ =>
      recogniser_pure _

/-! ### Before the draw block -/

theorem unitName_run (s : Parser) :
    Parse.unitName s =
      if s.sees [.identifier] && s.next.kind = .equals then .ok s.current.value (s.move 1)
      else .ok baseUnit s := by
  unfold Parse.unitName
  rw [Parse.bind_ok (Parse.get_run s), Parse.bind_ok (Parse.get_run s)]
  split <;> rfl

/-- The name of a unit is taken if an equals sign follows it. -/
theorem recogniser_unitName :
    Recogniser Parse.unitName (.opt (.kind .identifier)) (nextKind · = .equals) := by
  intro s _
  by_cases h : nextKind s.rest = .identifier
  · obtain ⟨t, ts, hr, ht⟩ := eq_cons_of_nextKind h (by decide)
    have hsees : s.sees [.identifier] = true := Parser.sees_iff.mpr (by simp [h])
    have hnext : s.next.kind = nextKind ts := by
      cases ts with
      | nil => simpa [Parser.next, hr] using s.ending_kind
      | cons u us => simp [Parser.next, hr]
    by_cases heq : nextKind ts = .equals
    · have hrun : Parse.unitName s = .ok s.current.value (s.move 1) := by
        simp [unitName_run, hsees, hnext, heq]
      have htaken : Recognises Parse.unitName (.kind .identifier) anywhere s :=
        .taken hrun hr (by simp [ht])
      refine (htaken.mono fun _ _ => trivial).present fun he => ?_
      rw [h] at he
      cases he
    · have hrun : Parse.unitName s = .ok baseUnit s := by
        simp [unitName_run, hsees, hnext, heq]
      refine .silent hrun (by simp) fun rest hd hF => ?_
      rcases Derives.opt_iff.mp hd with hd | he
      · obtain ⟨t', he, -⟩ := Derives.kind_iff.mp hd
        rw [hr] at he
        obtain ⟨-, rfl⟩ := List.cons.inj he
        exact absurd hF heq
      · exact he
  · have hsees : s.sees [.identifier] = false :=
      Bool.eq_false_iff.mpr fun he => h (by simpa using Parser.sees_iff.mp he)
    have hrun : Parse.unitName s = .ok baseUnit s := by
      simp [unitName_run, hsees]
    refine .absent hrun fun rest hd => ?_
    obtain ⟨t, hr, ht⟩ := Derives.kind_iff.mp hd
    exact h (by simp [hr, ht])

section

variable {s : Parser}

theorem recognises_unitDecl (hs : s.Ready) (h : nextKind s.rest = .atUnit) :
    Recognises Parse.unitDecl Grammar.unitDecl anywhere s := by
  refine (recognises_take h (by decide)).bind hs fun _ =>
    .bindBefore recogniser_unitName (fun _ => ?_) fun us rest _ hd _ => hd.all_kind.1
  exact (recogniser_skip (by decide)).bind fun _ => .bind recogniser_measure fun _ =>
    (recogniser_skip (by decide)).bind fun _ => recogniser_spanFrom _ _

theorem recognises_moduleDecl (hs : s.Ready) (h : nextKind s.rest = .atModule) :
    Recognises Parse.moduleDecl Grammar.moduleDecl anywhere s :=
  (recognises_take h (by decide)).bind hs fun _ =>
    (recogniser_expectValue (by decide)).bind fun _ =>
      (recogniser_skip (by decide)).bind fun _ => recogniser_spanFrom _ _

theorem recogniser_moduleDecl? :
    Recogniser Parse.moduleDecl? (.opt Grammar.moduleDecl) (nextKind · ≠ .atModule) := by
  intro s hs
  by_cases h : nextKind s.rest = .atModule
  · have hmodule : Recognises Parse.moduleDecl? Grammar.moduleDecl anywhere s := by
      refine .after (Parse.sees_run _ s) ?_
      rw [Parser.sees_iff.mpr (by simp [h]), if_pos rfl]
      exact (recognises_moduleDecl hs h).before fun _ _ _ => ⟨_, rfl⟩
    exact (hmodule.mono fun _ _ => trivial).present fun hF => hF h
  · have hrun : Parse.moduleDecl? s = .ok none s := by
      unfold Parse.moduleDecl?
      rw [Parse.bind_ok (Parse.sees_run _ s), if_neg]
      · rfl
      · exact fun he => h (by simpa using Parser.sees_iff.mp he)
    exact .absent hrun fun rest hd => h hd.all_kind.1

/-- A token that starts no statement is an error and is dropped. -/
theorem recognises_dropped {α : Type} {text : String} {hint : Option String} {G : Phrase}
    {F : List Token → Prop} (a : α) (hG : ∀ rest, ¬ Derives G s.rest rest) :
    Recognises (Parse.complain text hint >>= fun _ => discard Parse.take >>= fun _ => pure a)
      G F s := by
  have hrun : (Parse.complain text hint >>= fun _ => discard Parse.take >>= fun _ => pure a) s =
      .ok a ((s.report (.error .grammar text s.current.span hint)).move 1) := by
    rw [Parse.bind_ok (Parse.complain_run text hint s),
      Parse.bind_ok (Parse.discard_ok (Parse.take_run _))]
    rfl
  refine .failed hrun ((Parser.Onward.report s _).trans (.move _ 1)) ?_ hG
  rw [Parser.faults_move, Parser.faults_report rfl]
  omega

theorem recognises_sectionMark (hs : s.Ready) (h : nextKind s.rest = .hierarchy) :
    Recognises Parse.topItem Grammar.sectionMark (nextKind · ≠ .semicolon) s := by
  refine recognises_accepts h (by decide) hs ?_
  rw [if_pos rfl]
  refine Recogniser.bindBefore (fun s hs => (recogniser_accept? (by decide) s hs).discard)
    (fun _ => recogniser_pure _) fun us rest _ hd hF => ?_
  rw [Derives.all_nil_iff.mp hd]
  simpa using hF

/-- A statement before the draw block; a semicolon after a section mark belongs to it. -/
theorem recogniser_topItem :
    Recogniser Parse.topItem (.alt Grammar.unitDecl Grammar.sectionMark)
      (nextKind · ≠ .semicolon) := by
  intro s hs
  by_cases h : nextKind s.rest = .hierarchy
  · refine (recognises_sectionMark hs h).right fun rest hd => ?_
    exact absurd (hd.all_kind.1.symm.trans h) (by decide)
  · have hmark : ∀ rest, ¬ Derives Grammar.sectionMark s.rest rest :=
      fun rest hd => h hd.all_kind.1
    refine .after (Parse.accepts_false (by simpa using h)) (.after (Parse.get_run s) ?_)
    rw [Parser.current_kind]
    have hres := hs.nextKind_notMem
    split
    · next hu =>
        have hunit : Recognises Parse.unitDecl Grammar.unitDecl (nextKind · ≠ .semicolon) s :=
          (recognises_unitDecl hs hu).mono fun _ _ => trivial
        exact (hunit.before fun _ _ _ => ⟨_, rfl⟩).left hmark
    · next hu => exact absurd (by simp [hu, reservedKinds]) hres
    · next hu => exact absurd (by simp [hu, reservedKinds]) hres
    · next hu _ _ =>
        refine recognises_dropped none fun rest hd => ?_
        rcases Derives.alt_iff.mp hd with hd | hd
        · exact hu hd.all_kind.1
        · exact hmark rest hd

/-! ### Sizes -/

theorem derives_times {ts rest : List Token} (h : Derives Grammar.times ts rest) : NextTimes ts := by
  obtain ⟨t, rfl, ht⟩ := Derives.token_iff.mp h
  exact ⟨t, rest, rfl, ht⟩

theorem recogniser_times : Recogniser Parse.times (.opt Grammar.times) (¬ NextTimes ·) := by
  intro s hs
  -- the word between two sizes has the text of the mark
  have hword : s.current.kind = .xWord → Parse.isTimes s.current = true := by
    intro hk
    rw [Parser.current_kind] at hk
    obtain ⟨t, ts, hr, ht⟩ := eq_cons_of_nextKind hk (by decide)
    have hx : t.value = "x" := (hs.regular t (by simp [hr])).times ht
    simp [Parser.current_of_rest hr, Parse.isTimes, hx]
  have hrun : Parse.times s =
      if Parse.isTimes s.current = true then discard Parse.take s else .ok () s := by
    unfold Parse.times
    rw [Parse.bind_ok (Parse.get_run s)]
    by_cases ht : Parse.isTimes s.current = true
    · rw [if_pos (by simp [ht]), if_pos ht]
    · have hk : s.current.kind ≠ .xWord := fun hk => ht (hword hk)
      rw [if_neg (by simp [ht, hk]), if_neg ht]
      rfl
  by_cases ht : NextTimes s.rest
  · have hp : Parse.times s = .ok () (s.move 1) := by
      rw [hrun, if_pos (hs.isTimes_iff.mpr ht)]
      exact Parse.discard_ok (Parse.take_run s)
    obtain ⟨t, ts, hr, hmark⟩ := ht
    have htaken : Recognises Parse.times Grammar.times anywhere s := .taken hp hr hmark
    exact (htaken.mono fun _ _ => trivial).present fun hF => hF ⟨t, ts, hr, hmark⟩
  · have hp : Parse.times s = .ok () s := by
      rw [hrun, if_neg fun h => ht (hs.isTimes_iff.mp h)]
    exact .absent hp fun rest hd => ht (derives_times hd)

theorem recognises_canvas (hs : s.Ready) (h : nextKind s.rest = .atCanvas) :
    Recognises Parse.canvas Grammar.canvas anywhere s := by
  refine (recognises_take h (by decide)).discard.bind hs fun _ => .bind recogniser_measure fun _ =>
    .bindBefore recogniser_times (fun _ => ?_) fun us rest hus hd _ => ?_
  · exact .bind recogniser_measure fun _ => (recogniser_skip (by decide)).bind fun _ =>
      recogniser_pure _
  · obtain ⟨vs, hm, -⟩ := Derives.all_cons_iff.mp hd
    exact not_nextTimes hus (by rw [hm.all_kind.1]; decide)

theorem recogniser_requiredCanvas : Recogniser Parse.requiredCanvas Grammar.canvas anywhere := by
  intro s hs
  refine .after (Parse.sees_run _ s) ?_
  by_cases h : nextKind s.rest = .atCanvas
  · rw [Parser.sees_iff.mpr (by simp [h]), if_pos rfl]
    exact recognises_canvas hs h
  · rw [if_neg fun he => h (by simpa using Parser.sees_iff.mp he)]
    refine .failed (Parse.bind_ok (Parse.complain_run _ _ s)) (.report s _) ?_ ?_
    · rw [Parser.faults_report rfl]
      omega
    · exact fun rest hd => h hd.all_kind.1

/-! ### Rooms -/

/-- What ends a style value: a semicolon, or a closing brace or the end, which it leaves. -/
def styleEnd : Phrase := .alt (.kind .semicolon) (.ahead ([Kind.rightBrace, .endOfInput].contains ·))

/-- A style property as the parser reads it. -/
def styleItem : Phrase := .all [.kind .identifier, .kind .colon, Grammar.styleValue, styleEnd]

/-- A statement in a room's braces as the parser reads it. -/
def propertyItem : Phrase := .alt Grammar.label styleItem

theorem derives_styleEnd {ts rest : List Token} (h : Derives styleEnd ts rest) :
    nextKind ts ∈ [Kind.semicolon, .rightBrace, .endOfInput] := by
  rcases Derives.alt_iff.mp h with h | h
  · obtain ⟨t, rfl, ht⟩ := Derives.kind_iff.mp h
    simp [ht]
  · obtain ⟨-, h⟩ := Derives.ahead_iff.mp h
    exact List.mem_cons_of_mem _ (by simpa using h)

theorem derives_propertyItem {ts rest : List Token} (h : Derives propertyItem ts rest) :
    nextKind ts ∈ [Kind.labelWord, .identifier] ∧ rest.length < ts.length := by
  rcases Derives.alt_iff.mp h with h | h
  · exact ⟨by simp [h.all_kind.1], h.all_kind.2⟩
  · exact ⟨by simp [h.all_kind.1], h.all_kind.2⟩

/-- Before a closing brace the parser reads labels and style properties, of which only the last
one lacks its semicolon. -/
theorem many_propertyItem_iff {ts rest : List Token} (hr : nextKind rest = .rightBrace) :
    Derives (.many propertyItem) ts rest ↔ Derives Grammar.properties ts rest := by
  have hprops : ∀ ts, Derives Grammar.properties ts rest ↔
      ∃ mid, Derives (.many (.alt Grammar.label Grammar.style)) ts mid ∧
        (Derives Grammar.openStyle mid rest ∨ mid = rest) := by
    simp [Grammar.properties]
  constructor
  · intro h
    refine h.many_induction (P := (Derives Grammar.properties · rest))
      ((hprops rest).mpr ⟨rest, .stop, .inr rfl⟩) ?_
    intro ts us h₁ h₂ ih
    obtain ⟨mid, hm, hopt⟩ := (hprops us).mp ih
    refine (hprops ts).mpr ?_
    rcases Derives.alt_iff.mp h₁ with h₁ | h₁
    · exact ⟨mid, .more (.left h₁) hm, hopt⟩
    · simp only [styleItem, styleEnd, Derives.all_cons_iff, Derives.all_nil_iff] at h₁
      obtain ⟨us₁, hi, us₂, hc, us₃, hv, _, hend, rfl⟩ := h₁
      rcases Derives.alt_iff.mp hend with hend | hend
      · refine ⟨mid, .more (.right ?_) hm, hopt⟩
        simp only [Grammar.style, Derives.all_cons_iff, Derives.all_nil_iff]
        exact ⟨us₁, hi, us₂, hc, us₃, hv, _, hend, rfl⟩
      · -- a property that ends at a brace is the last one
        obtain ⟨rfl, hnext⟩ := Derives.ahead_iff.mp hend
        rcases Derives.many_iff.mp h₂ with rfl | ⟨vs, h₃, -⟩
        · refine ⟨ts, .stop, .inl ?_⟩
          simp only [Grammar.openStyle, Derives.all_cons_iff, Derives.all_nil_iff]
          exact ⟨us₁, hi, us₂, hc, _, hv, rfl⟩
        · have hstart := (derives_propertyItem h₃).1
          simp only [List.contains_iff_mem, List.mem_cons, List.not_mem_nil, or_false] at hstart hnext
          rcases hstart with he | he <;> simp [he] at hnext
  · intro h
    obtain ⟨mid, hm, hopt⟩ := (hprops ts).mp h
    refine hm.many_induction (P := (Derives (.many propertyItem) · rest)) ?_ ?_
    · rcases hopt with hopt | rfl
      · refine .more (.right ?_) .stop
        simp only [Grammar.openStyle, Derives.all_cons_iff, Derives.all_nil_iff] at hopt
        obtain ⟨us₁, hi, us₂, hc, _, hv, rfl⟩ := hopt
        simp only [styleItem, Derives.all_cons_iff, Derives.all_nil_iff]
        exact ⟨us₁, hi, us₂, hc, _, hv, _, .right (.ahead (by simp [hr])), rfl⟩
      · exact .stop
    · intro ts us h₁ _ ih
      refine .more ?_ ih
      rcases Derives.alt_iff.mp h₁ with h₁ | h₁
      · exact .left h₁
      · simp only [Grammar.style, Derives.all_cons_iff, Derives.all_nil_iff] at h₁
        obtain ⟨us₁, hi, us₂, hc, us₃, hv, _, hend, rfl⟩ := h₁
        refine .right ?_
        simp only [styleItem, Derives.all_cons_iff, Derives.all_nil_iff]
        exact ⟨us₁, hi, us₂, hc, us₃, hv, _, .left hend, rfl⟩

/-- A token is outside a style value if it is a semicolon or a closing brace. -/
theorem styleValue_ends {ts : List Token} (hts : ∀ t ∈ ts, Regular t.pair) :
    (∀ t ∈ ts.head?, (t.kind ≠ .semicolon && t.kind ≠ .rightBrace) = false) ↔
      nextKind ts ∈ [Kind.semicolon, .rightBrace, .endOfInput] := by
  cases ts with
  | nil => simp
  | cons t ts =>
      have hp := (hts t (by simp)).proper
      simp only [Token.pair, List.mem_cons, not_or] at hp
      by_cases hsemi : t.kind = .semicolon
      · simp [hsemi]
      · simp [hsemi, hp.2.2.1]

/-- A style value is read up to a semicolon, which is taken, or a closing brace. -/
theorem recogniser_styleValue {β : Type} (f : List Token → β) :
    Recogniser (Parse.takeWhile (fun t => !(Parse.valueEnds.contains t.kind)) >>= fun parts =>
        discard (Parse.accept? [.semicolon]) >>= fun _ => pure (f parts))
      (.all [Grammar.styleValue, styleEnd]) anywhere := by
  intro s hs
  have hclass : ∀ t : Token, Regular t.pair → (!(Parse.valueEnds.contains t.kind)) =
      (t.kind ≠ .semicolon && t.kind ≠ .rightBrace) := by
    intro t ht
    have hp := ht.proper
    simp only [Token.pair, List.mem_cons, not_or] at hp
    simp [Parse.valueEnds, hp.2.2.1]
  obtain ⟨parts, s', hp, h⟩ := recogniser_takeWhile hclass s hs
  have hs' := h.onward.ready hs
  have hend : nextKind s'.rest ∈ [Kind.semicolon, .rightBrace, .endOfInput] := by
    refine (styleValue_ends hs'.regular).mp ?_
    rw [Parse.takeWhile_run] at hp
    cases hp
    rw [Parser.move_rest, Derives.drop_takeWhile fun t ht => hclass t (hs.regular t ht)]
    intro t ht
    have hnot := List.head?_dropWhile_not
      (fun t : Token => t.kind ≠ .semicolon && t.kind ≠ .rightBrace) s.rest
    rw [ht] at hnot
    exact hnot
  refine .chain hp h ?_ fun us rest hus hd _ => ?_
  · by_cases hsemi : nextKind s'.rest = .semicolon
    · obtain ⟨t, ts, hr, ht⟩ := eq_cons_of_nextKind hsemi (by decide)
      have htaken : Recognises (discard (Parse.accept? [.semicolon])) (.kind .semicolon) anywhere s' :=
        .discard (.taken (Parse.accept?_some (by simp [hsemi])) hr (by simp [ht]))
      refine Recognises.bind (htaken.left fun rest hd => ?_) hs' fun _ => recogniser_pure _
      have hahead := (Derives.ahead_iff.mp hd).2
      rw [hsemi] at hahead
      cases hahead
    · have hahead : [Kind.rightBrace, .endOfInput].contains (nextKind s'.rest) = true := by
        simpa [hsemi] using hend
      have hnone : Parse.accept? [.semicolon] s' = .ok none s' :=
        Parse.accept?_none (by simpa using hsemi)
      have hsilent : Recognises (discard (Parse.accept? [.semicolon]))
          (.ahead ([Kind.rightBrace, .endOfInput].contains ·)) anywhere s' :=
        .silent (Parse.discard_ok hnone) (.ahead hahead) fun rest hd _ => (Derives.ahead_iff.mp hd).1
      refine Recognises.bind (hsilent.right fun rest hd => ?_) hs' fun _ => recogniser_pure _
      obtain ⟨t, hr, ht⟩ := Derives.kind_iff.mp hd
      exact hsemi (by simp [hr, ht])
  · obtain ⟨vs, hd, -⟩ := Derives.all_cons_iff.mp hd
    exact (styleValue_ends fun t ht => hs.regular t (hus.subset ht)).mpr (derives_styleEnd hd)

theorem recogniser_property : Recogniser Parse.property propertyItem anywhere := by
  intro s hs
  by_cases hl : nextKind s.rest = .labelWord
  · refine .left (recognises_accepts hl (by decide) hs ?_) fun rest hd => ?_
    · rw [if_pos rfl]
      exact (recogniser_skip (by decide)).bind fun _ => (recogniser_expect (by decide)).bind fun _ =>
        (recogniser_skip (by decide)).bind fun _ => recogniser_pure _
    · exact absurd (hd.all_kind.1.symm.trans hl) (by decide)
  · refine .right (.after (Parse.accepts_false (by simpa using hl)) ?_) fun rest hd => ?_
    · rw [if_neg (by decide)]
      by_cases hi : nextKind s.rest = .identifier
      · obtain ⟨t, ts, hr, ht⟩ := eq_cons_of_nextKind hi (by decide)
        have hp := Parse.identifier?_some hi
        obtain ⟨a, s', hp', h⟩ : Recognises Parse.identifier? (.kind .identifier) anywhere s :=
          .taken hp hr (by simp [ht])
        rw [hp] at hp'
        cases hp'
        refine .chain hp h ?_ fun _ _ _ _ _ => trivial
        exact ((recogniser_skip (by decide)).bind fun _ => recogniser_styleValue _) _
          (h.onward.ready hs)
      · refine .after (Parse.identifier?_none hi) (.after (Parse.get_run s) ?_)
        exact recognises_dropped none fun rest hd => hi hd.all_kind.1
    · exact hl hd.all_kind.1

/-- The braces of a room are read if they are there; only a closing brace ends them. -/
theorem recognises_braces (hs : s.Ready) (h : nextKind s.rest = .leftBrace) :
    Recognises Parse.roomBody Grammar.braces anywhere s := by
  have hmany : Recogniser (Parse.many [.rightBrace, .endOfInput] Parse.property)
      (.many propertyItem) (nextKind · ∈ [Kind.rightBrace, .endOfInput]) := by
    refine recogniser_many (fun s hs _ => recogniser_property s hs) (fun ts rest hd => ?_)
      fun _ _ => trivial
    obtain ⟨hstart, hlt⟩ := derives_propertyItem hd
    refine ⟨fun hstop => ?_, hlt⟩
    simp only [List.mem_cons, List.not_mem_nil, or_false] at hstart hstop
    rcases hstart with he | he <;> simp [he] at hstop
  have hloop : Recognises Parse.roomBody
      (.all [.kind .leftBrace, .many propertyItem, .kind .rightBrace]) anywhere s := by
    refine recognises_accepts h (by decide) hs ?_
    rw [if_pos rfl]
    refine hmany.bindBefore (fun _ => (recogniser_skip (by decide)).bind fun _ => recogniser_pure _)
      fun us rest _ hd _ => ?_
    simp [hd.all_kind.1]
  have hiff : ∀ rest, Derives (.all [.kind .leftBrace, .many propertyItem, .kind .rightBrace])
      s.rest rest ↔ Derives Grammar.braces s.rest rest := by
    intro rest
    simp only [Grammar.braces, Derives.all_cons_iff]
    refine exists_congr fun us => and_congr_right fun _ => exists_congr fun vs => ?_
    refine and_congr_left fun hbrace => many_propertyItem_iff ?_
    obtain ⟨ws, hb, -⟩ := hbrace
    obtain ⟨t, rfl, ht⟩ := Derives.kind_iff.mp hb
    exact ht
  exact hloop.congr (fun rest => (hiff rest).mp) fun rest hd _ => (hiff rest).mpr hd

theorem recogniser_roomBody :
    Recogniser Parse.roomBody (.opt (.alt Grammar.braces (.kind .semicolon)))
      (nextKind · ∉ [Kind.leftBrace, .semicolon]) := by
  intro s hs
  by_cases hb : nextKind s.rest = .leftBrace
  · have hbraces : Recognises Parse.roomBody (.alt Grammar.braces (.kind .semicolon)) anywhere s := by
      refine (recognises_braces hs hb).left fun rest hd => ?_
      obtain ⟨t, hr, ht⟩ := Derives.kind_iff.mp hd
      rw [hr, nextKind_cons, ht] at hb
      cases hb
    exact (hbraces.mono fun _ _ => trivial).present fun hF => hF (by simp [hb])
  · have hnone : ∀ rest, ¬ Derives Grammar.braces s.rest rest := fun rest hd => hb hd.all_kind.1
    have hrun : ∀ {a s'}, Parse.accept? [.semicolon] s = .ok a s' →
        Parse.roomBody s = .ok [] s' := by
      intro a s' hp
      unfold Parse.roomBody
      rw [Parse.bind_ok (Parse.accepts_false (by simpa using hb)), if_neg (by decide),
        Parse.bind_ok (Parse.discard_ok hp)]
      rfl
    by_cases hsemi : nextKind s.rest = .semicolon
    · obtain ⟨t, ts, hr, ht⟩ := eq_cons_of_nextKind hsemi (by decide)
      have htaken : Recognises Parse.roomBody (.kind .semicolon) anywhere s :=
        .taken (hrun (Parse.accept?_some (by simp [hsemi]))) hr (by simp [ht])
      exact ((htaken.right hnone).mono fun _ _ => trivial).present fun hF => hF (by simp [hsemi])
    · refine .absent (hrun (Parse.accept?_none (by simpa using hsemi))) fun rest hd => ?_
      rcases Derives.alt_iff.mp hd with hd | hd
      · exact hnone rest hd
      · obtain ⟨t, hr, ht⟩ := Derives.kind_iff.mp hd
        exact hsemi (by simp [hr, ht])

theorem recognises_room (hs : s.Ready) (h : nextKind s.rest = .roomWord) :
    Recognises Parse.room Grammar.room (nextKind · ∉ [Kind.leftBrace, .semicolon]) s := by
  refine (recognises_take h (by decide)).bind hs fun _ =>
    (recogniser_expectValue (by decide)).bind fun _ => (recogniser_skip (by decide)).bind fun _ =>
      .bind recogniser_coordinate fun _ => (recogniser_skip (by decide)).bind fun _ =>
        .bind recogniser_coordinate fun _ => .bindBefore recogniser_roomBody
          (fun _ => recogniser_spanFrom _ _) fun us rest _ hd hF => ?_
  rwa [Derives.all_nil_iff.mp hd]

/-! ### Walls, doors and repeats -/

theorem recognises_wall (hs : s.Ready) (h : nextKind s.rest = .wallWord) :
    Recognises Parse.wall Grammar.wall anywhere s :=
  (recognises_take h (by decide)).bind hs fun _ => .bind recogniser_segment fun _ =>
    (recogniser_skip (by decide)).bind fun _ => recogniser_spanFrom _ _

theorem recognises_door (hs : s.Ready) (h : nextKind s.rest = .doorWord) :
    Recognises Parse.door Grammar.door anywhere s :=
  (recognises_take h (by decide)).bind hs fun _ => .bind recogniser_segment fun _ =>
    (recogniser_skip (by decide)).bind fun _ => .bind recogniser_measure fun _ =>
      (recogniser_skip (by decide)).bind fun _ => recogniser_spanFrom _ _

theorem recognises_copies (hs : s.Ready) (h : nextKind s.rest = .repeatWord) :
    Recognises Parse.copies Grammar.copies anywhere s :=
  (recognises_take h (by decide)).bind hs fun _ =>
    (recogniser_expectValue (by decide)).bind fun _ => .bind recogniser_segment fun _ =>
      (recogniser_skip (by decide)).bind fun _ => .bind recogniser_measure fun _ =>
        (recogniser_skip (by decide)).bind fun _ => recogniser_spanFrom _ _

/-! ### Grids -/

theorem recogniser_gridAlpha :
    Recogniser Parse.gridAlpha (.opt Grammar.gridAlpha) (nextKind · ≠ .alphaWord) := by
  refine recogniser_optional (by decide) ?_ (fun s => ⟨none, rfl⟩) fun ts h hF => hF h
  rw [if_pos rfl]
  exact Recogniser.bind recogniser_measure fun _ => recogniser_pure _

/-- The second number of a size. -/
theorem recogniser_secondSize {β : Type} (f : Measure → β) (b : β) :
    Recogniser (get >>= fun st : Parser => if Parse.isTimes st.current = true then
        discard Parse.take >>= fun _ => Parse.measure >>= fun m => pure (f m) else pure b)
      (.opt (.all [Grammar.times, Grammar.measure])) (¬ NextTimes ·) := by
  intro s hs
  refine .after (Parse.get_run s) ?_
  by_cases ht : NextTimes s.rest
  · rw [if_pos (hs.isTimes_iff.mpr ht)]
    obtain ⟨t, ts, hr, hmark⟩ := ht
    have htaken : Recognises (discard Parse.take) Grammar.times anywhere s :=
      .discard (.taken (Parse.take_run s) hr hmark)
    exact .present (htaken.bind hs fun _ => .bind recogniser_measure fun m => recogniser_pure (f m))
      fun hF => hF ⟨t, ts, hr, hmark⟩
  · rw [if_neg fun h => ht (hs.isTimes_iff.mp h)]
    refine .absent (Parse.pure_run b s) fun rest hd => ?_
    obtain ⟨us, hd, -⟩ := Derives.all_cons_iff.mp hd
    exact ht (derives_times hd)

theorem recogniser_gridSize :
    Recogniser Parse.gridSize (.opt Grammar.gridSize)
      (fun ts => nextKind ts ≠ .sizeWord ∧ ¬ NextTimes ts) := by
  refine recogniser_optional (by decide) ?_ (fun s => ⟨_, rfl⟩) fun ts h hF => hF.1 h
  rw [if_pos rfl]
  refine .bind recogniser_measure fun _ => (Recogniser.single ?_)
  exact fun s hs => (recogniser_secondSize _ _ s hs).mono fun _ hF => hF.2

/-- The digits of a color are read as long as numbers and identifiers follow. -/
theorem recogniser_gridColor :
    Recogniser Parse.gridColor (.opt Grammar.gridColor)
      (nextKind · ∉ [Kind.colorWord, .hash, .identifier, .number]) := by
  refine recogniser_optional (by decide) ?_ (fun s => ⟨_, rfl⟩) fun ts h hF => hF (by simp [h])
  rw [if_pos rfl]
  refine Recogniser.single fun s hs => ?_
  by_cases hh : nextKind s.rest = .hash
  · have hnone : ∀ rest, ¬ Derives (.kind .identifier) s.rest rest := by
      intro rest hd
      obtain ⟨t, hr, ht⟩ := Derives.kind_iff.mp hd
      rw [hr, nextKind_cons, ht] at hh
      cases hh
    have hp : Parse.accept? [.hash] s = .ok (some s.current) (s.move 1) :=
      Parse.accept?_some (by simp [hh])
    obtain ⟨t, ts, hr, ht⟩ := eq_cons_of_nextKind hh (by decide)
    obtain ⟨a, s', hp', h⟩ : Recognises (Parse.accept? [.hash]) (.kind .hash) anywhere s :=
      .taken hp hr (by simp [ht])
    rw [hp] at hp'
    cases hp'
    refine ((Recognises.chain hp h ?_ fun _ _ _ _ _ => trivial).left hnone).present
      fun hF => hF (by simp [hh])
    refine Recogniser.bindBefore (recogniser_takeWhile fun _ _ => rfl)
      (fun _ => recogniser_pure _) (fun us rest _ hd hF t ht => ?_) _ (h.onward.ready hs)
    rw [Derives.all_nil_iff.mp hd] at ht
    cases rest with
    | nil => cases ht
    | cons u rest =>
        cases ht
        simp only [nextKind_cons, List.mem_cons, List.not_mem_nil, not_or] at hF
        simp [hF]
  · refine .after (Parse.accept?_none (by simpa using hh)) ?_
    have hnone : ∀ rest, ¬ Derives (.all [.kind .hash, .many (.kinds [.number, .identifier])])
        s.rest rest := fun rest hd => hh hd.all_kind.1
    by_cases hi : nextKind s.rest = .identifier
    · obtain ⟨t, ts, hr, ht⟩ := eq_cons_of_nextKind hi (by decide)
      have htaken : Recognises Parse.identifier? (.kind .identifier) anywhere s :=
        .taken (Parse.identifier?_some hi) hr (by simp [ht])
      exact ((htaken.right hnone).mono fun _ _ => trivial).present fun hF => hF (by simp [hi])
    · refine .absent (Parse.identifier?_none hi) fun rest hd => ?_
      rcases Derives.alt_iff.mp hd with hd | hd
      · exact hnone rest hd
      · obtain ⟨t, hr, ht⟩ := Derives.kind_iff.mp hd
        exact hi (by simp [hr, ht])

theorem recognises_grid (hs : s.Ready) (h : nextKind s.rest = .atGrid) :
    Recognises Parse.grid Grammar.grid anywhere s := by
  refine (recognises_take h (by decide)).bind hs fun _ => ?_
  -- each optional part is followed by a later one or by the semicolon
  have hend : ∀ {us rest}, Derives (.all [.kind .semicolon]) us rest → nextKind us = .semicolon :=
    fun hd => hd.all_kind.1
  have halpha : ∀ {us rest}, Derives (.all [.opt Grammar.gridAlpha, .kind .semicolon]) us rest →
      nextKind us = .alphaWord ∨ nextKind us = .semicolon :=
    fun hd => hd.opt_kind.imp_right hend
  have hcolor : ∀ {us rest}, Derives (.all [.opt Grammar.gridColor, .opt Grammar.gridAlpha,
      .kind .semicolon]) us rest →
      nextKind us = .colorWord ∨ nextKind us = .alphaWord ∨ nextKind us = .semicolon :=
    fun hd => hd.opt_kind.imp_right halpha
  have hsize : ∀ {us rest}, Derives (.all [.opt Grammar.gridSize, .opt Grammar.gridColor,
      .opt Grammar.gridAlpha, .kind .semicolon]) us rest → nextKind us = .sizeWord ∨
      nextKind us = .colorWord ∨ nextKind us = .alphaWord ∨ nextKind us = .semicolon :=
    fun hd => hd.opt_kind.imp_right hcolor
  refine (recogniser_accept? (by decide)).bindBefore (fun _ => ?_) fun us rest _ hd _ => ?_
  · refine .bindBefore recogniser_gridSize (fun _ => ?_) fun us rest hus hd _ => ?_
    · refine .bindBefore recogniser_gridColor (fun _ => ?_) fun us rest _ hd _ => ?_
      · refine .bindBefore recogniser_gridAlpha (fun _ => ?_) fun us rest _ hd _ => ?_
        · exact (recogniser_skip (by decide)).bind fun _ => recogniser_spanFrom _ _
        · simp [hend hd]
      · rcases halpha hd with he | he <;> simp [he]
    · have hk := hcolor hd
      refine ⟨?_, not_nextTimes hus ?_⟩
      · rcases hk with he | he | he <;> simp [he]
      · rcases hk with he | he | he <;> simp [he]
  · rcases hsize hd with he | he | he | he <;> simp [he, Parse.modeWords]

/-! ### The draw block -/

/-- The statement that a word of the draw block starts. -/
def itemOf? : Kind → Option Phrase
  | .roomWord => some Grammar.room
  | .wallWord => some Grammar.wall
  | .doorWord => some Grammar.door
  | .repeatWord => some Grammar.copies
  | .atGrid => some Grammar.grid
  | _ => none

/-- The first word of a statement tells which one it is. -/
theorem derives_item_iff {ts rest : List Token} :
    Derives Grammar.item ts rest ↔ ∃ G, itemOf? (nextKind ts) = some G ∧ Derives G ts rest := by
  simp only [Grammar.item, Derives.any_cons_iff, Derives.any_nil_iff]
  constructor
  · rintro (h | h | h | h | h) <;> exact ⟨_, by rw [h.all_kind.1]; rfl, h⟩
  · rintro ⟨G, hG, h⟩
    unfold itemOf? at hG
    split at hG <;> cases hG
    · exact .inl h
    · exact .inr (.inl h)
    · exact .inr (.inr (.inl h))
    · exact .inr (.inr (.inr (.inl h)))
    · exact .inr (.inr (.inr (.inr h)))

theorem derives_item {ts rest : List Token} (h : Derives Grammar.item ts rest) :
    nextKind ts ∉ [Kind.rightBrace, .endOfInput, .leftBrace, .semicolon] ∧
      rest.length < ts.length := by
  simp only [Grammar.item, Derives.any_cons_iff, Derives.any_nil_iff] at h
  rcases h with h | h | h | h | h <;> exact ⟨by simp [h.all_kind.1], h.all_kind.2⟩

theorem recognises_item {α : Type} {p : Parse α} {f : α → BodyItem} {G : Phrase} {k : Kind}
    {F : List Token → Prop} (hk : nextKind s.rest = k) (hG : itemOf? k = some G)
    (h : Recognises p G F s) : Recognises (p >>= fun a => pure (some (f a))) Grammar.item F s := by
  have hiff : ∀ rest, Derives Grammar.item s.rest rest ↔ Derives G s.rest rest := by
    simp [derives_item_iff, hk, hG]
  exact (h.before fun _ _ _ => ⟨_, rfl⟩).congr (fun rest => (hiff rest).mpr)
    fun rest hd _ => (hiff rest).mp hd

/-- A statement of the draw block; braces and a semicolon after a room belong to it. -/
theorem recogniser_bodyItem :
    Recogniser Parse.bodyItem Grammar.item (nextKind · ∉ [Kind.leftBrace, .semicolon]) := by
  intro s hs
  refine .after (Parse.get_run s) ?_
  rw [Parser.current_kind]
  have hres := hs.nextKind_notMem
  split
  · next hk => exact recognises_item hk rfl (recognises_room hs hk)
  · next hk => exact (recognises_item hk rfl (recognises_wall hs hk)).mono fun _ _ => trivial
  · next hk => exact (recognises_item hk rfl (recognises_door hs hk)).mono fun _ _ => trivial
  · next hk => exact (recognises_item hk rfl (recognises_grid hs hk)).mono fun _ _ => trivial
  · next hk => exact absurd (by simp [hk, reservedKinds]) hres
  · next hk => exact (recognises_item hk rfl (recognises_copies hs hk)).mono fun _ _ => trivial
  · refine recognises_dropped none fun rest hd => ?_
    obtain ⟨G, hG, -⟩ := derives_item_iff.mp hd
    unfold itemOf? at hG
    split at hG <;> simp_all

/-! ### The drawing -/

theorem recogniser_top :
    Recogniser (Parse.many [.atDraw, .endOfInput] Parse.topItem)
      (.many (.alt Grammar.unitDecl Grammar.sectionMark))
      (nextKind · ∈ [Kind.atDraw, .endOfInput]) := by
  have hstart : ∀ ts rest, Derives (.alt Grammar.unitDecl Grammar.sectionMark) ts rest →
      nextKind ts ∈ [Kind.atUnit, .hierarchy] ∧ rest.length < ts.length := by
    intro ts rest hd
    rcases Derives.alt_iff.mp hd with hd | hd
    · exact ⟨by simp [hd.all_kind.1], hd.all_kind.2⟩
    · exact ⟨by simp [hd.all_kind.1], hd.all_kind.2⟩
  refine recogniser_many (fun s hs _ => recogniser_topItem s hs) (fun ts rest hd => ?_) ?_
  · obtain ⟨hk, hlt⟩ := hstart ts rest hd
    refine ⟨fun hstop => ?_, hlt⟩
    simp only [List.mem_cons, List.not_mem_nil, or_false] at hk hstop
    rcases hk with he | he <;> simp [he] at hstop
  · rintro ts (hstop | ⟨rest, hd⟩) he
    · simp [he] at hstop
    · have hk := (hstart ts rest hd).1
      simp [he] at hk

theorem recogniser_body :
    Recogniser (Parse.many [.rightBrace, .endOfInput] Parse.bodyItem) (.many Grammar.item)
      (nextKind · ∈ [Kind.rightBrace, .endOfInput]) := by
  refine recogniser_many (fun s hs _ => recogniser_bodyItem s hs) (fun ts rest hd => ?_) ?_
  · obtain ⟨hk, hlt⟩ := derives_item hd
    simp only [List.mem_cons, List.not_mem_nil, or_false, not_or] at hk ⊢
    exact ⟨⟨hk.1, hk.2.1⟩, hlt⟩
  · rintro ts (hstop | ⟨rest, hd⟩)
    · simp only [List.mem_cons, List.not_mem_nil, or_false] at hstop
      rcases hstop with he | he <;> simp [he]
    · have hk := (derives_item hd).1
      simp only [List.mem_cons, List.not_mem_nil, or_false, not_or] at hk ⊢
      exact hk.2.2

/-- What is done after the closing brace reports no error. -/
theorem recogniser_close {β : Type} (start : Position) (f : Span → β) :
    Recogniser (Parse.spanFrom start >>= fun span =>
      Parse.warnTrailing >>= fun _ => pure (f span)) (.all []) anywhere := by
  intro s hs
  obtain ⟨span, hp⟩ := Parse.spanFrom_ok hs.shift start
  refine .after hp ?_
  by_cases h : nextKind s.rest = .endOfInput
  · have hw : Parse.warnTrailing s = .ok () s := by
      unfold Parse.warnTrailing
      rw [Parse.bind_ok (Parse.sees_run _ s), if_pos (Parser.sees_iff.mpr (by simp [h]))]
      rfl
    exact .after hw (recogniser_pure _ s hs)
  · obtain ⟨d, hd, hw⟩ : ∃ d : Diagnostic, d.isError = false ∧
        Parse.warnTrailing s = .ok () (s.report d) := by
      unfold Parse.warnTrailing
      rw [Parse.bind_ok (Parse.sees_run _ s),
        if_neg fun he => h (by simpa using Parser.sees_iff.mp he)]
      exact ⟨_, rfl, rfl⟩
    refine ⟨f span, s.report d, Parse.bind_ok hw, .report s d, ?_, fun _ => ?_, ?_⟩
    · exact Nat.le_of_eq (Parser.faults_warn hd s).symm
    · rw [Parser.report_rest, Derives.all_nil_iff]
    · intro rest hrest _
      exact ⟨Parser.faults_warn hd s, Derives.all_nil_iff.mp hrest⟩

/-- The parser recognises drawings. -/
theorem recogniser_drawing : Recogniser Parse.drawing Grammar.drawing anywhere := by
  intro s hs
  refine .after (Parse.get_run s) ?_
  refine Recogniser.bindBefore recogniser_moduleDecl? (fun _ => ?_) (fun us rest _ hd _ => ?_) s hs
  · refine .bindBefore recogniser_top (fun _ => ?_) fun us rest _ hd _ => ?_
    · refine (recogniser_skip (by decide)).bind fun _ => (recogniser_expectValue (by decide)).bind
        fun _ => (recogniser_skip (by decide)).bind fun _ => .bind recogniser_requiredCanvas
        fun _ => .bindBefore recogniser_body (fun _ => ?_) fun us rest _ hd _ => ?_
      · exact (recogniser_skip (by decide)).bind fun _ => recogniser_close _ _
      · simp [hd.all_kind.1]
    · simp [hd.all_kind.1]
  · obtain ⟨vs, htop, hd⟩ := Derives.all_cons_iff.mp hd
    rcases Derives.many_iff.mp htop with rfl | ⟨ws, hitem, -⟩
    · simp [hd.all_kind.1]
    · rcases Derives.alt_iff.mp hitem with h | h <;> simp [h.all_kind.1]

end

/-! ### Sources -/

/-- A source without reserved statements is parsed without an error if and only if its tokens
start with a word of the grammar. -/
theorem errors_eq_nil_iff {source : String} {tokens : List Token}
    (h : tokenize source = .ok tokens) (hres : ∀ t ∈ tokens, t.kind ∉ reservedKinds) :
    ∃ parsed, parse tokens = .ok parsed ∧
      (parsed.messages.errors = [] ↔
        ∃ word after, tokens.dropLast = word ++ after ∧ Derives Grammar.drawing word []) := by
  obtain ⟨body, p, rfl, hreg⟩ := tokenize_regular h
  have hs : Parser.Ready ⟨[], body, Token.ending p, 0, [], rfl⟩ :=
    ⟨⟨rfl, rfl, hreg⟩, fun t ht => hres t (List.mem_append_left _ ht)⟩
  obtain ⟨drawing, s', hp, hdone⟩ := recogniser_drawing _ hs
  refine ⟨⟨drawing, s'.messages⟩, ?_, ?_⟩
  · unfold parse
    rw [Parser.ofTokens_regular hreg, hp]
  · rw [List.dropLast_concat, ← Grammar.drawing_closed.word]
    have hclean : s'.messages.errors = [] ↔ s'.faults = 0 := List.length_eq_zero_iff.symm
    rw [hclean]
    constructor
    · exact fun he => ⟨s'.rest, hdone.sound he⟩
    · rintro ⟨rest, hd⟩
      exact (hdone.complete rest hd trivial).1

/-- A source with a unit, a section mark, a room whose last property is open and a tail. -/
def hut : String :=
  "@unit m = 2cm; @1; @draw Hut " ++ Text.braced (" @canvas 4m x 3m;\n" ++
    "  room k at (0, 0) size (1, 1) " ++ Text.braced " label: \"x\"; fill: red " ++ " ") ++ " tail"

theorem errors_eq_nil_iff_hut : ∃ tokens,
    tokenize hut = .ok tokens ∧
    (∀ t ∈ tokens, t.kind ∉ reservedKinds) ∧
    ∃ parsed, parse tokens = .ok parsed ∧
      (parsed.messages.errors = [] ↔
        ∃ word after, tokens.dropLast = word ++ after ∧ Derives Grammar.drawing word []) := by
  have hok : (tokenize hut).toOption.any
      (·.all fun t => !(reservedKinds.contains t.kind)) = true := by
    decide +kernel
  generalize hsource : tokenize _ = result at hok
  cases result with
  | error e => cases hok
  | ok tokens =>
      have hres : ∀ t ∈ tokens, t.kind ∉ reservedKinds := by
        simpa [Except.toOption] using hok
      exact ⟨tokens, rfl, hres, errors_eq_nil_iff hsource hres⟩

end FloorPlan
