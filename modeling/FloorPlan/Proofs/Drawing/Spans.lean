import FloorPlan.Proofs.Grammar.Forward
import FloorPlan.Proofs.Token.Order
import FloorPlan.Proofs.Drawing.Printing
import Mathlib.Data.List.Nodup

/-! # Where the statements of a drawing stand

A statement goes from the token that opens it to the last token that it takes (`Statement`).  A
loop takes at least one token for each statement, so the places where its statements start are
among those where the tokens ahead start, in the same order (`many_starts`).  Tokens of a source
start at different places, and so do the statements of the draw block and the drawing itself
(`parse_starts`). -/

namespace FloorPlan

open Drawing

/-! ### Statements -/

/-- The result covers the stretch. -/
def Covers {α : Type} (span : α → Option Span) (sp : Span) (a : α) : Prop := span a = some sp

/-- The result, if there is one, covers the stretch. -/
def CoversItem {α : Type} (span : α → Option Span) (sp : Span) (o : Option α) : Prop :=
  ∀ a ∈ o, span a = some sp

/-- The step `p` only goes forward, and `Q` holds of its result and the stretch from `start` to the
last token taken. -/
structure Closes {α : Type} (start : Position) (Q : Span → α → Prop) (p : Parse α) : Prop
    extends Forward p where
  stretch : ∀ {s a s'}, s.shift = 0 → p s = .ok a s' → Q (s'.stretch start) a

/-- The step `p` takes the token ahead, and `Q` holds of its result and the stretch from that token
to the last one taken. -/
structure Statement {α : Type} (Q : Span → α → Prop) (p : Parse α) : Prop extends Forward p where
  opens : ∀ {s a s'}, s.shift = 0 → p s = .ok a s' → (s.move 1).Advance s'
  stretch : ∀ {s a s'}, s.shift = 0 → p s = .ok a s' → Q (s'.stretch s.current.start) a

section

variable {α β : Type} {p : Parse α} {q : α → Parse β} {start : Position} {Q : Span → β → Prop}

theorem Closes.bind (hp : Forward p) (hq : ∀ a, Closes start Q (q a)) :
    Closes start Q (p >>= q) := by
  refine ⟨hp.bind fun a => (hq a).toForward, fun hs h => ?_⟩
  obtain ⟨a, t, hpa, hqa⟩ := Parse.bind_eq_ok.mp h
  exact (hq a).stretch ((hp.ok hs hpa).shift hs) hqa

/-- A statement ends by looking back to where it started. -/
theorem closes_spanFrom {f : Span → β} (hf : ∀ sp, Q sp (f sp)) :
    Closes start Q (Parse.spanFrom start >>= fun sp => pure (f sp)) := by
  refine ⟨(forward_spanFrom start).bind fun _ => .pure _, fun hs h => ?_⟩
  rw [Parse.bind_ok (Parse.spanFrom_run hs start), Parse.pure_run] at h
  cases h
  exact hf _

theorem statement_take {q : Token → Parse β} (hq : ∀ t, Closes t.start Q (q t)) :
    Statement Q (Parse.take >>= q) := by
  refine ⟨.bind forward_take fun t => (hq t).toForward, fun {s b s'} hs h => ?_,
    fun {s b s'} hs h => ?_⟩
  · rw [Parse.bind_ok (Parse.take_run s)] at h
    exact (hq _).ok (s := s.move 1) hs h
  · rw [Parse.bind_ok (Parse.take_run s)] at h
    exact (hq _).stretch (s := s.move 1) hs h

theorem statement_unitDecl : Statement (Covers UnitDecl.span) Parse.unitDecl :=
  statement_take fun _ => .bind forward_unitName fun _ => .bind forward_skip fun _ =>
    .bind forward_measure fun _ => .bind forward_skip fun _ => closes_spanFrom fun _ => rfl

theorem statement_importDecl : Statement (Covers Import.span) Parse.importDecl :=
  statement_take fun _ => .bind forward_identifier? fun _ => .bind forward_valueAfter fun _ =>
    .bind forward_valueAfter fun _ => .bind forward_skipStatement fun _ =>
      closes_spanFrom fun _ => rfl

theorem statement_exportDecl : Statement (Covers Export.span) Parse.exportDecl :=
  statement_take fun _ => .bind forward_accepts fun _ => .bind forward_identifier? fun _ =>
    .bind forward_skipStatement fun _ => closes_spanFrom fun _ => rfl

theorem statement_moduleDecl : Statement (Covers Module.span) Parse.moduleDecl :=
  statement_take fun _ => .bind forward_expectValue fun _ => .bind forward_skip fun _ =>
    closes_spanFrom fun _ => rfl

theorem statement_room : Statement (Covers Room.span) Parse.room :=
  statement_take fun _ => .bind forward_expectValue fun _ => .bind forward_skip fun _ =>
    .bind forward_coordinate fun _ => .bind forward_skip fun _ => .bind forward_coordinate fun _ =>
      .bind forward_roomBody fun _ => closes_spanFrom fun _ => rfl

theorem statement_wall : Statement (Covers Wall.span) Parse.wall :=
  statement_take fun _ => .bind forward_segment fun _ => .bind forward_skip fun _ =>
    closes_spanFrom fun _ => rfl

theorem statement_door : Statement (Covers Door.span) Parse.door :=
  statement_take fun _ => .bind forward_segment fun _ => .bind forward_skip fun _ =>
    .bind forward_measure fun _ => .bind forward_skip fun _ => closes_spanFrom fun _ => rfl

theorem statement_copies : Statement (Covers Repeat.span) Parse.copies :=
  statement_take fun _ => .bind forward_expectValue fun _ => .bind forward_segment fun _ =>
    .bind forward_skip fun _ => .bind forward_measure fun _ => .bind forward_skip fun _ =>
      closes_spanFrom fun _ => rfl

theorem statement_grid : Statement (Covers Grid.span) Parse.grid :=
  statement_take fun _ => .bind forward_accept? fun _ => .bind forward_gridSize fun _ =>
    .bind forward_gridColor fun _ => .bind forward_gridAlpha fun _ => .bind forward_skip fun _ =>
      closes_spanFrom fun _ => rfl

theorem statement_placement : Statement (Covers Placement.span) Parse.placement :=
  statement_take fun _ => .bind forward_identifier? fun _ => .bind forward_valueAfter fun _ =>
    .bind (Forward.many _ forward_placementOption) fun _ => .bind (.discard forward_accept?) fun _ =>
      closes_spanFrom fun _ => rfl

end

/-! ### Items of a loop -/

/-- The stretch of a statement before the draw block. -/
def TopItem.span : TopItem → Option Span
  | unit u => u.span
  | imported i => i.span
  | exported e => e.span

/-- The stretch of a statement in the draw block. -/
def BodyItem.span : BodyItem → Option Span
  | room r => r.span
  | wall w => w.span
  | door d => d.span
  | grid g => g.span
  | copies r => r.span
  | placement p => p.span

section

variable {α β : Type} {p : Parse α} {span : β → Option Span}

/-- A statement as an item of a loop. -/
theorem Statement.item {span' : α → Option Span} (h : Statement (Covers span') p) {f : α → β}
    (hf : ∀ a, span (f a) = span' a) :
    Statement (CoversItem span) (p >>= fun a => pure (some (f a))) := by
  refine ⟨h.toForward.bind fun _ => .pure _, fun hs hp => ?_, fun hs hp => ?_⟩
  · obtain ⟨a, t, hpa, hq⟩ := Parse.bind_eq_ok.mp hp
    cases hq
    exact h.opens hs hpa
  · obtain ⟨a, t, hpa, hq⟩ := Parse.bind_eq_ok.mp hp
    cases hq
    intro b hb
    cases hb
    rw [hf]
    exact h.stretch hs hpa

/-- A token that starts no statement is dropped. -/
theorem statement_dropped (text : String) (hint : Option String) :
    Statement (CoversItem span) (do Parse.complain text hint; discard Parse.take; return none) := by
  have hrun : ∀ s : Parser, ∃ d, (do Parse.complain text hint; discard Parse.take; return none :
      Parse (Option β)) s = .ok none ((s.move 1).report d) := fun s => ⟨_, rfl⟩
  refine ⟨.bind forward_complain fun _ => .bind (.discard forward_take) fun _ => .pure _,
    fun {s o s'} _ hp => ?_, fun {s o s'} _ hp => ?_⟩
  · obtain ⟨d, hd⟩ := hrun s
    rw [hp] at hd
    cases hd
    exact .report (s.move 1) d
  · obtain ⟨d, hd⟩ := hrun s
    rw [hp] at hd
    cases hd
    exact fun a ha => nomatch ha

theorem statement_get {Q : Span → α → Prop} {q : Parser → Parse α} (hq : ∀ s, Statement Q (q s)) :
    Statement Q (get >>= q) := by
  refine ⟨.bind .get fun s => (hq s).toForward, fun {s a s'} hs h => ?_,
    fun {s a s'} hs h => ?_⟩
  · rw [Parse.bind_ok (Parse.get_run s)] at h
    exact (hq s).opens hs h
  · rw [Parse.bind_ok (Parse.get_run s)] at h
    exact (hq s).stretch hs h

/-- A mark gives no statement. -/
theorem statement_mark {ks : List Kind} {q : Bool → Parse (Option β)} (hmark : Forward (q true))
    (hnone : ∀ {s o s'}, q true s = .ok o s' → o = none)
    (hq : Statement (CoversItem span) (q false)) :
    Statement (CoversItem span) (Parse.accepts ks >>= q) := by
  have hforward : Forward (Parse.accepts ks >>= q) := by
    refine .bind forward_accepts fun b => ?_
    cases b with
    | true => exact hmark
    | false => exact hq.toForward
  refine ⟨hforward, fun {s o s'} hs h => ?_, fun {s o s'} hs h => ?_⟩
  · by_cases hk : nextKind s.rest ∈ ks
    · rw [Parse.bind_ok (Parse.accepts_true hk)] at h
      exact hmark.ok (s := s.move 1) hs h
    · rw [Parse.bind_ok (Parse.accepts_false hk)] at h
      exact hq.opens hs h
  · by_cases hk : nextKind s.rest ∈ ks
    · rw [Parse.bind_ok (Parse.accepts_true hk)] at h
      rw [hnone h]
      exact fun a ha => nomatch ha
    · rw [Parse.bind_ok (Parse.accepts_false hk)] at h
      exact hq.stretch hs h

end

theorem statement_topItem : Statement (CoversItem TopItem.span) Parse.topItem := by
  refine statement_mark ?_ ?_ (statement_get fun s => ?_)
  · rw [if_pos rfl]
    exact .bind (.discard forward_accept?) fun _ => .pure _
  · intro s o s' h
    rw [if_pos rfl] at h
    obtain ⟨_, _, -, hq⟩ := Parse.bind_eq_ok.mp h
    cases hq
    rfl
  · split
    · exact .item statement_unitDecl fun _ => rfl
    · exact .item statement_importDecl fun _ => rfl
    · exact .item statement_exportDecl fun _ => rfl
    · exact statement_dropped _ _

theorem statement_bodyItem : Statement (CoversItem BodyItem.span) Parse.bodyItem := by
  refine statement_get fun s => ?_
  split
  · exact .item statement_room fun _ => rfl
  · exact .item statement_wall fun _ => rfl
  · exact .item statement_door fun _ => rfl
  · exact .item statement_grid fun _ => rfl
  · exact .item statement_placement fun _ => rfl
  · exact .item statement_copies fun _ => rfl
  · exact statement_dropped _ _

/-- The statements of one sort stand among the others in their order. -/
theorem filterMap_map_sublist {α β : Type} {select : β → Option α} {item : α → β}
    (h : ∀ i a, select i = some a → i = item a) (items : List β) :
    ((items.filterMap select).map item).Sublist items := by
  induction items with
  | nil => exact List.Sublist.slnil
  | cons i items ih =>
      cases hi : select i with
      | none =>
          rw [List.filterMap_cons_none hi]
          exact ih.cons i
      | some a =>
          rw [List.filterMap_cons_some hi, List.map_cons, ← h i a hi]
          exact ih.cons_cons i

/-! ### Loops -/

/-- The place where a stretch starts. -/
def startOf (span : Option Span) : Option Position := span.map (·.start)

/-- The places where tokens start. -/
def tokenStarts (ts : List Token) : List (Option Position) := ts.map fun t => some t.start

theorem tokenStarts_sublist {ts us : List Token} (h : ts <:+ us) :
    (tokenStarts ts).Sublist (tokenStarts us) :=
  h.sublist.map _

section

variable {α : Type} {item : Parse (Option α)} {stops : List Kind} {s s' : Parser} {as : List α}
variable {Q : Span → Option α → Prop}

/-- After the token ahead there are fewer tokens. -/
theorem Parser.Advance.length_lt (h : (s.move 1).Advance s') (hr : s.rest ≠ []) :
    s'.rest.length < s.rest.length := by
  have hle := h.onward.suffix.length_le
  have hpos := List.length_pos_iff.mpr hr
  rw [Parser.move_rest, List.length_drop] at hle
  omega

/-- One round of a loop: it stops, or an item is read and the loop goes on. -/
theorem Parse.many_cases (hitem : Statement Q item) (hend : .endOfInput ∈ stops) (hs : s.shift = 0)
    (h : Parse.many stops item s = .ok as s') :
    (s.sees stops = true ∧ as = [] ∧ s' = s) ∨
    ∃ t ts o s₁ as', s.rest = t :: ts ∧ item s = .ok o s₁ ∧ (s.move 1).Advance s₁ ∧
      Parse.many stops item s₁ = .ok as' s' ∧ as = o.toList ++ as' := by
  rw [Parse.many] at h
  split at h
  · next hsees =>
      cases h
      exact .inl ⟨hsees, rfl, rfl⟩
  · next hsees =>
      have hr : s.rest ≠ [] := by
        intro hr
        refine hsees (Parser.sees_iff.mpr ?_)
        rw [hr]
        exact hend
      obtain ⟨t, ts, hcons⟩ := List.exists_cons_of_ne_nil hr
      cases hp : item s with
      | error f s₁ => rw [hp] at h; cases h
      | ok o s₁ =>
          have hadv := hitem.opens hs hp
          simp only [hp, if_pos (hadv.length_lt hr)] at h
          cases hm : Parse.many stops item s₁ with
          | error f s₂ => rw [hm] at h; cases h
          | ok as' s₂ =>
              rw [hm] at h
              cases h
              exact .inr ⟨t, ts, o, s₁, as', hcons, rfl, hadv, hm, rfl⟩

/-- A loop ends before one of its stops. -/
theorem many_stops (hitem : Statement Q item) (hend : .endOfInput ∈ stops) (hs : s.shift = 0)
    (h : Parse.many stops item s = .ok as s') : s'.sees stops = true := by
  generalize hm : s.rest.length = m
  induction m using Nat.strongRecOn generalizing s as with
  | ind m ih =>
      rcases Parse.many_cases hitem hend hs h with
        ⟨hsees, -, rfl⟩ | ⟨t, ts, o, s₁, as', hr, hp, hadv, hmany, rfl⟩
      · exact hsees
      · have hlt := hadv.length_lt (by simp [hr])
        exact ih _ (by omega) ((hitem.ok hs hp).shift hs) hmany rfl

/-- The items of a loop start with tokens ahead, in their order. -/
theorem many_starts {span : α → Option Span} (hitem : Statement (CoversItem span) item)
    (hend : .endOfInput ∈ stops) (hs : s.shift = 0) (h : Parse.many stops item s = .ok as s') :
    (as.map fun a => startOf (span a)).Sublist (tokenStarts s.rest) := by
  generalize hm : s.rest.length = m
  induction m using Nat.strongRecOn generalizing s as with
  | ind m ih =>
      rcases Parse.many_cases hitem hend hs h with
        ⟨-, rfl, -⟩ | ⟨t, ts, o, s₁, as', hr, hp, hadv, hmany, rfl⟩
      · exact List.nil_sublist _
      · have hlt := hadv.length_lt (by simp [hr])
        have hothers := ih _ (by omega) ((hitem.ok hs hp).shift hs) hmany rfl
        have hsuffix : s₁.rest <:+ ts := by
          have hle := hadv.onward.suffix
          rwa [Parser.move_rest, hr, List.drop_one, List.tail_cons] at hle
        have htail := hothers.trans (tokenStarts_sublist hsuffix)
        rw [hr]
        cases o with
        | none => exact htail.cons _
        | some a =>
            have hstart := hitem.stretch hs hp a rfl
            rw [Parser.current_of_rest hr] at hstart
            rw [Option.toList_some, List.singleton_append, List.map_cons, hstart]
            exact htail.cons_cons _

end

/-! ### Drawings -/

theorem forward_moduleDecl? : Forward Parse.moduleDecl? :=
  .bind forward_sees fun _ => .ite (.bind (Statement.toForward statement_moduleDecl) fun _ => .pure _) (.pure _)

/-- Parsing only goes forward, and it faults only at a number that cannot be read. -/
theorem forward_drawing : Forward Parse.drawing :=
  .bind .get fun _ => .bind forward_moduleDecl? fun _ =>
    .bind (.many _ (Statement.toForward statement_topItem)) fun _ => .bind forward_skip fun _ =>
      .bind forward_expectValue fun _ => .bind forward_skip fun _ =>
        .bind forward_requiredCanvas fun _ =>
          .bind (.many _ (Statement.toForward statement_bodyItem)) fun _ =>
            .bind forward_skip fun _ => .bind (forward_spanFrom _) fun _ =>
              .bind forward_warnTrailing fun _ => .pure _

/-- A source that can be lexed can be parsed. -/
theorem parse_lexed {source : String} {tokens : List Token} (h : tokenize source = .ok tokens) :
    ∃ parsed, parse tokens = .ok parsed := by
  obtain ⟨ts, p, rfl, hreg⟩ := tokenize_regular h
  have hs : Parser.Steady ⟨[], ts, Token.ending p, 0, [], rfl⟩ := ⟨rfl, rfl, hreg⟩
  unfold parse
  rw [Parser.ofTokens_regular hreg]
  cases hrun : Parse.drawing ⟨[], ts, Token.ending p, 0, [], rfl⟩ with
  | ok d s' => exact ⟨_, rfl⟩
  | error f s' => exact absurd (Forward.error forward_drawing hs.shift hrun).2 (hs.not_misread f)

/-- Only the end of a source ends the input. -/
theorem Parser.Steady.rest_eq_nil {s : Parser} (hs : s.Steady) (h : nextKind s.rest = .endOfInput) :
    s.rest = [] := by
  cases hr : s.rest with
  | nil => rfl
  | cons t ts =>
      have hk : t.kind = .endOfInput := by rwa [hr] at h
      have hproper := (hs.regular t (by simp [hr])).proper
      exact absurd (by simp [Token.pair, hk]) hproper

/-- After the draw keyword, or what stands for it, the first token of the source has been taken. -/
theorem skip_atDraw_suffix {s s₁ s₂ : Parser} (hs : s.Steady) (hadv : s.Advance s₁)
    (hstop : s₁.sees [.atDraw, .endOfInput] = true) (h : Parse.skip .atDraw s₁ = .ok () s₂) :
    s₂.rest <:+ s.rest.drop 1 := by
  have hkind := Parser.sees_iff.mp hstop
  simp only [List.mem_cons, List.not_mem_nil, or_false] at hkind
  rcases hkind with hk | hk
  · rw [Parse.skip, Parse.discard_ok (Parse.expect_some hk)] at h
    cases h
    obtain ⟨n, ds, rfl⟩ := hadv
    show (s.rest.drop n).drop 1 <:+ s.rest.drop 1
    rw [List.drop_drop, Nat.add_comm, ← List.drop_drop]
    exact List.drop_suffix _ _
  · have hnil := (hadv.onward.steady hs).rest_eq_nil hk
    have hsuffix := (Forward.ok forward_skip (hadv.shift hs.shift) h).onward.suffix
    rw [hnil, List.suffix_nil] at hsuffix
    rw [hsuffix]
    exact List.nil_suffix

/-- Statements start with different tokens. Those of the draw block come after the first token of
the source, where the drawing starts. -/
theorem drawing_starts {s s' : Parser} {d : Drawing} (hs : s.Steady)
    (h : Parse.drawing s = .ok d s') : ∃ top body, d.Statements top body ∧
      (top.map fun item => startOf item.span).Sublist (tokenStarts s.rest) ∧
      (body.map fun item => startOf item.span).Sublist (tokenStarts (s.rest.drop 1)) ∧
      startOf d.span = some s.current.start := by
  obtain ⟨_, _, hget, h⟩ := Parse.bind_eq_ok.mp h
  cases hget
  obtain ⟨module, s₁, hmodule, h⟩ := Parse.bind_eq_ok.mp h
  obtain ⟨top, s₂, htop, h⟩ := Parse.bind_eq_ok.mp h
  obtain ⟨_, s₃, hat, h⟩ := Parse.bind_eq_ok.mp h
  obtain ⟨name, s₄, hname, h⟩ := Parse.bind_eq_ok.mp h
  obtain ⟨_, s₅, hbrace, h⟩ := Parse.bind_eq_ok.mp h
  obtain ⟨canvas, s₆, hcanvas, h⟩ := Parse.bind_eq_ok.mp h
  obtain ⟨body, s₇, hbody, h⟩ := Parse.bind_eq_ok.mp h
  obtain ⟨_, s₈, hclose, h⟩ := Parse.bind_eq_ok.mp h
  obtain ⟨span, s₉, hspan, h⟩ := Parse.bind_eq_ok.mp h
  obtain ⟨_, s₁₀, -, h⟩ := Parse.bind_eq_ok.mp h
  cases h
  have h₁ := Forward.ok forward_moduleDecl? hs.shift hmodule
  have h₂ := h₁.trans ((Forward.many _ (Statement.toForward statement_topItem)).ok (h₁.shift hs.shift) htop)
  have hfirst := skip_atDraw_suffix hs h₂
    (many_stops statement_topItem (by simp) (h₁.shift hs.shift) htop) hat
  have h₃ := h₂.trans (Forward.ok forward_skip (h₂.shift hs.shift) hat)
  -- from the draw keyword to the first statement of the block
  have h₄ := Forward.ok forward_expectValue (h₃.shift hs.shift) hname
  have h₅ := h₄.trans (Forward.ok forward_skip (h₄.shift (h₃.shift hs.shift)) hbrace)
  have h₆ := h₅.trans (Forward.ok forward_requiredCanvas (h₅.shift (h₃.shift hs.shift)) hcanvas)
  have hshift₆ := h₆.shift (h₃.shift hs.shift)
  have h₇ := (Forward.many _ (Statement.toForward statement_bodyItem)).ok hshift₆ hbody
  have h₈ := h₇.trans (Forward.ok forward_skip (h₇.shift hshift₆) hclose)
  rw [Parse.spanFrom_run (h₈.shift hshift₆)] at hspan
  cases hspan
  have hstarts := many_starts statement_bodyItem (by simp) hshift₆ hbody
  have htops := many_starts statement_topItem (by simp) (h₁.shift hs.shift) htop
  exact ⟨top, body, ⟨rfl, rfl, rfl, rfl, rfl, rfl, rfl, rfl, rfl⟩,
    htops.trans (tokenStarts_sublist h₁.onward.suffix),
    hstarts.trans (tokenStarts_sublist (h₆.onward.suffix.trans hfirst)), rfl⟩

/-- The drawing and the statements of its draw block start at different places of the source, and
every statement has a place. -/
theorem parse_starts {source : String} {tokens : List Token} {parsed : Parsed}
    (h : tokenize source = .ok tokens) (hp : parse tokens = .ok parsed) :
    ∃ top body, parsed.drawing.Statements top body ∧
      (startOf parsed.drawing.span :: body.map fun item => startOf item.span).Nodup ∧
      parsed.drawing.span.isSome = true ∧ (∀ item ∈ top, item.span.isSome = true) ∧
      ∀ item ∈ body, item.span.isSome = true := by
  obtain ⟨ts, p, rfl, hreg⟩ := tokenize_regular h
  have hnodup := nodup_starts (tokenize_ordered h)
  unfold parse at hp
  rw [Parser.ofTokens_regular hreg] at hp
  cases hrun : Parse.drawing ⟨[], ts, Token.ending p, 0, [], rfl⟩ with
  | error f s' => rw [hrun] at hp; cases hp
  | ok d s' =>
      rw [hrun] at hp
      cases hp
      obtain ⟨top, body, hstatements, htop, hbody, hstart⟩ := drawing_starts ⟨rfl, rfl, hreg⟩ hrun
      -- a place among those of the tokens is a place
      have hplace : ∀ {us : List Token} {span : Option Span}, startOf span ∈ tokenStarts us →
          span.isSome = true := by
        intro us span hmem
        obtain ⟨u, -, hu⟩ := List.mem_map.mp hmem
        cases span with
        | none => cases hu
        | some sp => rfl
      have hfirst : (startOf d.span :: body.map fun item => startOf item.span).Sublist
          (tokenStarts (ts ++ [Token.ending p])) := by
        rw [hstart]
        cases ts with
        | nil => exact (hbody : List.Sublist _ []).cons_cons _
        | cons t ts =>
            refine List.Sublist.cons_cons _ (hbody.trans ?_)
            exact (List.sublist_append_left ts _).map _
      refine ⟨top, body, hstatements, ?_, ?_, fun item hi => ?_, fun item hi => ?_⟩
      · refine List.Nodup.sublist hfirst ?_
        unfold tokenStarts
        rw [← Function.comp_def, ← List.map_map]
        exact hnodup.map fun _ _ he => Option.some_inj.mp he
      · cases hspan : d.span with
        | none => rw [hspan] at hstart; cases hstart
        | some sp => rfl
      · exact hplace (htop.subset (List.mem_map_of_mem hi))
      · exact hplace (hbody.subset (List.mem_map_of_mem hi))

end FloorPlan
