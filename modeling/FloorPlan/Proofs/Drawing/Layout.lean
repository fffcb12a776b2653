import FloorPlan.Proofs.Drawing.RoundTrip
import FloorPlan.Proofs.Grammar.Forward

/-! # Parsing does not look at places

Two sources may differ in layout: blanks, comments, quotes and escapes.  Their tokens then have the
same kinds and values at other places.  `Parser.Alike` relates two states of the parser before such
tokens, and `Agree R p q` says that `p` and `q`, run from such states, both give results, which `R`
relates, and again end in such states.  Every production agrees with itself but for the places in
its result, so both sources are parsed to the same drawing with the same problems, but for their
places (`parse_agree`). -/

namespace FloorPlan

open Drawing

/-- The problem without its place. -/
def Diagnostic.eraseSpan (d : Diagnostic) : Diagnostic := { d with span := none }

/-! ### States before the same tokens -/

namespace Parser

/-- The states are before tokens of the same kinds and values, and have found the same problems but
for their places. -/
structure Alike (s s' : Parser) : Prop where
  left : s.Steady
  right : s'.Steady
  rest : s.rest.map Token.pair = s'.rest.map Token.pair
  messages : s.messages.map Diagnostic.eraseSpan = s'.messages.map Diagnostic.eraseSpan

namespace Alike

variable {s s' : Parser}

theorem current (h : s.Alike s') : s.current.pair = s'.current.pair := by
  have hrest := h.rest
  unfold Parser.current
  cases hr : s.rest with
  | nil =>
      rw [hr, List.map_nil, eq_comm, List.map_eq_nil_iff] at hrest
      simp [hrest, Token.pair, s.ending_kind, s'.ending_kind, h.left.ending, h.right.ending]
  | cons t ts =>
      rw [hr, List.map_cons] at hrest
      obtain ⟨u, us, hr', hu, -⟩ := List.map_eq_cons_iff.mp hrest.symm
      simp [hr', hu]

theorem kind (h : s.Alike s') : s.current.kind = s'.current.kind := congrArg Prod.fst h.current

theorem value (h : s.Alike s') : s.current.value = s'.current.value := congrArg Prod.snd h.current

theorem nextKind (h : s.Alike s') : nextKind s.rest = FloorPlan.nextKind s'.rest := by
  rw [← current_kind, ← current_kind, h.kind]

theorem sees (h : s.Alike s') (ks : List Kind) : s.sees ks = s'.sees ks := by
  unfold Parser.sees
  rw [h.kind]

theorem length (h : s.Alike s') : s.rest.length = s'.rest.length := by
  have hlength := congrArg List.length h.rest
  rwa [List.length_map, List.length_map] at hlength

theorem move (h : s.Alike s') (n : Nat) : (s.move n).Alike (s'.move n) := by
  refine ⟨h.left.move n, h.right.move n, ?_, h.messages⟩
  rw [move_rest, move_rest, List.map_drop, List.map_drop, h.rest]

theorem next (h : s.Alike s') : s.next.kind = s'.next.kind := (h.move 1).kind

theorem report (h : s.Alike s') {d d' : Diagnostic} (hd : d.eraseSpan = d'.eraseSpan) :
    (s.report d).Alike (s'.report d') := by
  refine ⟨(Onward.report s d).steady h.left, (Onward.report s' d').steady h.right, h.rest, ?_⟩
  show (s.messages ++ [d]).map _ = (s'.messages ++ [d']).map _
  rw [List.map_append, List.map_append, h.messages, List.map_singleton, List.map_singleton, hd]

end Alike

end Parser

/-! ### Agreement -/

/-- From states before the same tokens, both steps give results, which `R` relates. -/
def Agree {α β : Type} (R : α → β → Prop) (p : Parse α) (q : Parse β) : Prop :=
  ∀ s s' : Parser, s.Alike s' →
    ∃ a b t t', p s = .ok a t ∧ q s' = .ok b t' ∧ R a b ∧ t.Alike t'

/-- The results are the same but for what `e` erases. -/
def SameBut {α γ : Type} (e : α → γ) (a b : α) : Prop := e a = e b

namespace Agree

variable {α β α' β' : Type} {R : α → β → Prop} {S : α' → β' → Prop} {c : Prop} [Decidable c]
variable {p p₁ : Parse α} {q q₁ : Parse β} {f : α → Parse α'} {g : β → Parse β'}

theorem bind (hp : Agree R p q) (hf : ∀ a b, R a b → Agree S (f a) (g b)) :
    Agree S (p >>= f) (q >>= g) := by
  intro s s' h
  obtain ⟨a, b, t, t', hpa, hqb, hR, ht⟩ := hp s s' h
  obtain ⟨a', b', u, u', hfa, hgb, hS, hu⟩ := hf a b hR t t' ht
  exact ⟨a', b', u, u', by rw [Parse.bind_ok hpa, hfa], by rw [Parse.bind_ok hqb, hgb], hS, hu⟩

theorem pure {a : α} {b : β} (h : R a b) : Agree R (Pure.pure a) (Pure.pure b) :=
  fun s s' hs => ⟨a, b, s, s', Parse.pure_run a s, Parse.pure_run b s', h, hs⟩

theorem get : Agree Parser.Alike MonadState.get MonadState.get :=
  fun s s' hs => ⟨s, s', s, s', Parse.get_run s, Parse.get_run s', hs, hs⟩

theorem ite (hp : Agree R p q) (hp₁ : Agree R p₁ q₁) :
    Agree R (if c then p else p₁) (if c then q else q₁) := by
  split
  · exact hp
  · exact hp₁

theorem discard (hp : Agree R p q) : Agree Eq (Functor.discard p) (Functor.discard q) :=
  hp.bind fun _ _ _ => .pure rfl

/-- One step after another, where the first gives equal results. -/
theorem andThen {p q : Parse α} {f : α → Parse α'} {g : α → Parse β'} (hp : Agree Eq p q)
    (hf : ∀ a, Agree S (f a) (g a)) : Agree S (p >>= f) (q >>= g) := by
  refine hp.bind ?_
  rintro a _ rfl
  exact hf a

/-- Loops agree if their items do. -/
theorem many {γ : Type} {item : Parse (Option α)} {e : α → γ} (stops : List Kind)
    (hitem : Agree (SameBut (Option.map e)) item item) :
    Agree (SameBut (List.map e)) (Parse.many stops item) (Parse.many stops item) := by
  intro s s' h
  generalize hm : s.rest.length = m
  induction m using Nat.strongRecOn generalizing s s' with
  | ind m ih =>
      by_cases hsees : s.sees stops = true
      · refine ⟨[], [], s, s', ?_, ?_, rfl, h⟩
        · rw [Parse.many, if_pos hsees]
        · rw [Parse.many, if_pos (h.sees stops ▸ hsees)]
      · have hsees' : ¬ s'.sees stops = true := h.sees stops ▸ hsees
        obtain ⟨o, o', t, t', hp, hq, ho, ht⟩ := hitem s s' h
        have hlist : o.toList.map e = o'.toList.map e := by
          rw [← Option.toList_map, ← Option.toList_map, show o.map e = o'.map e from ho]
        by_cases hlt : t.rest.length < s.rest.length
        · have hlt' : t'.rest.length < s'.rest.length := by rwa [← ht.length, ← h.length]
          obtain ⟨as, bs, u, u', has, hbs, hR, hu⟩ := ih _ (by omega) t t' ht rfl
          refine ⟨o.toList ++ as, o'.toList ++ bs, u, u', ?_, ?_, ?_, hu⟩
          · rw [Parse.many, if_neg hsees, hp]
            simp only [if_pos hlt, has]
          · rw [Parse.many, if_neg hsees', hq]
            simp only [if_pos hlt', hbs]
          · show List.map e _ = List.map e _
            rw [List.map_append, List.map_append, hlist, show as.map e = bs.map e from hR]
        · have hlt' : ¬ t'.rest.length < s'.rest.length := by rwa [← ht.length, ← h.length]
          refine ⟨o.toList, o'.toList, t, t', ?_, ?_, hlist, ht⟩
          · rw [Parse.many, if_neg hsees, hp]
            simp only [if_neg hlt]
          · rw [Parse.many, if_neg hsees', hq]
            simp only [if_neg hlt']

end Agree

/-! ### Elementary steps -/

section

variable {α β : Type} {k l : Kind} {ks : List Kind}

theorem agree_take : Agree (SameBut Token.pair) Parse.take Parse.take :=
  fun s s' h => ⟨_, _, _, _, Parse.take_run s, Parse.take_run s', h.current, h.move 1⟩

theorem agree_sees : Agree Eq (Parse.sees ks) (Parse.sees ks) :=
  fun s s' h => ⟨_, _, s, s', Parse.sees_run ks s, Parse.sees_run ks s', h.sees ks, h⟩

theorem agree_complain {text : String} {hint : Option String} :
    Agree Eq (Parse.complain text hint) (Parse.complain text hint) :=
  fun s s' h => ⟨(), (), _, _, Parse.complain_run text hint s, Parse.complain_run text hint s', rfl,
    h.report rfl⟩

/-- Tokens are taken by their kinds and values. -/
theorem agree_takeWhile (f : Kind × String → Bool) :
    Agree (SameBut (List.map Token.pair)) (Parse.takeWhile fun t => f t.pair)
      (Parse.takeWhile fun t => f t.pair) := by
  intro s s' h
  have htaken : ∀ ts : List Token, (ts.takeWhile fun t => f t.pair).map Token.pair =
      (ts.map Token.pair).takeWhile f := fun ts => List.takeWhile_map.symm
  have hpairs : (s.rest.takeWhile fun t => f t.pair).map Token.pair =
      (s'.rest.takeWhile fun t => f t.pair).map Token.pair := by
    rw [htaken, htaken, h.rest]
  have hlength := congrArg List.length hpairs
  rw [List.length_map, List.length_map] at hlength
  refine ⟨_, _, _, _, Parse.takeWhile_run _ s, Parse.takeWhile_run _ s', hpairs, ?_⟩
  rw [hlength]
  exact h.move _

theorem agree_accept? :
    Agree (SameBut (Option.map Token.pair)) (Parse.accept? ks) (Parse.accept? ks) := by
  refine .andThen agree_sees fun b => .ite (.bind agree_take fun t u htu => .pure ?_) (.pure rfl)
  exact congrArg some htu

theorem SameBut.isSome {o o' : Option Token} (h : SameBut (Option.map Token.pair) o o') :
    o.isSome = o'.isSome := by
  rw [← Option.isSome_map (f := Token.pair), show o.map _ = o'.map _ from h, Option.isSome_map]

theorem SameBut.value {o o' : Option Token} (h : SameBut (Option.map Token.pair) o o') :
    o.map (·.value) = o'.map (·.value) := by
  have hsnd := congrArg (Option.map Prod.snd) h
  rwa [Option.map_map, Option.map_map] at hsnd

theorem SameBut.values {ts us : List Token} (h : SameBut (List.map Token.pair) ts us) :
    ts.map (·.value) = us.map (·.value) := by
  have hsnd := congrArg (List.map Prod.snd) h
  rwa [List.map_map, List.map_map] at hsnd

theorem agree_accepts : Agree Eq (Parse.accepts ks) (Parse.accepts ks) :=
  .bind agree_accept? fun _ _ h => .pure h.isSome

theorem agree_acceptsBefore : Agree Eq (Parse.acceptsBefore k l) (Parse.acceptsBefore k l) :=
  .andThen agree_accepts fun _ => .ite agree_sees (.pure rfl)

theorem agree_identifier? : Agree Eq Parse.identifier? Parse.identifier? :=
  .bind agree_accept? fun _ _ h => .pure h.value

theorem agree_expect :
    Agree (SameBut (Option.map Token.pair)) (Parse.expect k) (Parse.expect k) := by
  refine .bind agree_accept? fun o o' ho => ?_
  cases o with
  | some t =>
      cases o' with
      | some u => exact .pure ho
      | none => cases ho
  | none =>
      cases o' with
      | some u => cases ho
      | none =>
          refine .bind .get fun s s' h => ?_
          rw [h.kind]
          exact .andThen agree_complain fun _ => .pure rfl

theorem agree_expectValue : Agree Eq (Parse.expectValue k) (Parse.expectValue k) :=
  .bind agree_expect fun _ _ h => .pure (by rw [h.value])

theorem agree_skip : Agree Eq (Parse.skip k) (Parse.skip k) := (.discard agree_expect)

theorem agree_stretch {a b : Position} :
    Agree (fun _ _ => True) (Parse.spanFrom a) (Parse.spanFrom b) :=
  fun s s' hs => ⟨_, _, s, s', Parse.spanFrom_run hs.left.shift a,
    Parse.spanFrom_run hs.right.shift b, trivial, hs⟩

/-- The end of a statement: only the stretch is different. -/
theorem agree_spanFrom {R : α → β → Prop} {f : Span → α} {g : Span → β} {a b : Position}
    (h : ∀ sp sp', R (f sp) (g sp')) :
    Agree R (Parse.spanFrom a >>= fun sp => pure (f sp))
      (Parse.spanFrom b >>= fun sp => pure (g sp)) :=
  .bind agree_stretch fun sp sp' _ => .pure (h sp sp')

/-- A number of a source can be read, and tokens with the same text are the same number. -/
theorem agree_number : Agree Eq Parse.number Parse.number := by
  intro s s' h
  by_cases hk : nextKind s.rest = .number
  · have hk' : nextKind s'.rest = .number := h.nextKind ▸ hk
    obtain ⟨t, ts, hr, ht⟩ := eq_cons_of_nextKind hk (by decide)
    have hcurrent := Parser.current_of_rest hr
    obtain ⟨x, hx⟩ := Option.isSome_iff_exists.mp
      (Number.readFloat?_isSome ((h.left.regular t (by simp [hr])).numeral ht))
    have hread : Number.readFloat? s.current.value = some x := by
      rw [hcurrent]
      exact hx
    have hread' : Number.readFloat? s'.current.value = some x := h.value ▸ hread
    refine ⟨x, x, _, _, ?_, ?_, rfl, h.move 1⟩
    · unfold Parse.number
      rw [Parse.bind_ok (Parse.expect_some hk)]
      simp [Parse.numberValue, hread, Parse.pure_run]
    · unfold Parse.number
      rw [Parse.bind_ok (Parse.expect_some hk')]
      simp [Parse.numberValue, hread', Parse.pure_run]
  · obtain ⟨o, o', t, t', hp, hq, -, ht⟩ := agree_expect (k := .number) s s' h
    obtain ⟨d, -, hnone⟩ := Parse.expect_none hk
    obtain ⟨d', -, hnone'⟩ := Parse.expect_none (h.nextKind ▸ hk)
    rw [hnone] at hp
    rw [hnone'] at hq
    cases hp
    cases hq
    refine ⟨0, 0, _, _, ?_, ?_, rfl, ht⟩
    · exact Parse.bind_ok hnone
    · exact Parse.bind_ok hnone'

/-! ### Shared productions -/

theorem agree_measure : Agree Eq Parse.measure Parse.measure :=
  .andThen agree_number fun _ => .andThen agree_identifier? fun _ => .pure rfl

theorem agree_coordinate : Agree Eq Parse.coordinate Parse.coordinate :=
  .andThen agree_skip fun _ => .andThen agree_measure fun _ => .andThen agree_skip fun _ =>
    .andThen agree_measure fun _ => .andThen agree_skip fun _ => .pure rfl

theorem statementWidth_congr {ts us : List Token} (h : ts.map Token.pair = us.map Token.pair) :
    ∀ depth, Parse.statementWidth depth ts = Parse.statementWidth depth us := by
  induction ts generalizing us with
  | nil =>
      rw [List.map_nil, eq_comm, List.map_eq_nil_iff] at h
      rw [h]
      exact fun _ => rfl
  | cons t ts ih =>
      intro depth
      obtain ⟨u, us, rfl, hu, hus⟩ := List.map_eq_cons_iff.mp (h.symm.trans (List.map_cons ..))
      have hkind : u.kind = t.kind := congrArg Prod.fst hu
      unfold Parse.statementWidth
      rw [hkind]
      simp only [ih hus.symm]

theorem agree_skipStatement : Agree Eq Parse.skipStatement Parse.skipStatement := by
  refine Agree.andThen (fun s s' h => ⟨(), (), _, _, rfl, rfl, rfl, ?_⟩) fun _ =>
    (.discard agree_accept?)
  show (s.move _).Alike (s'.move _)
  rw [statementWidth_congr h.rest]
  exact h.move _

theorem agree_valueAfter : Agree Eq (Parse.valueAfter k l) (Parse.valueAfter k l) :=
  .andThen agree_acceptsBefore fun _ =>
    .ite (.bind agree_take fun _ _ h => .pure (congrArg (fun p => some p.2) h)) (.pure rfl)

end

/-! ### Before the draw block -/

theorem agree_unitName : Agree Eq Parse.unitName Parse.unitName := by
  refine .bind .get fun s s' h => .bind .get fun t t' ht => ?_
  rw [h.sees, ht.next]
  exact .ite (.bind agree_take fun _ _ hp => .pure (congrArg Prod.snd hp)) (.pure rfl)

theorem agree_unitDecl : Agree (SameBut UnitDecl.eraseSpan) Parse.unitDecl Parse.unitDecl :=
  .bind agree_take fun _ _ _ => .andThen agree_unitName fun _ => .andThen agree_skip fun _ =>
    .andThen agree_measure fun _ => .andThen agree_skip fun _ => agree_spanFrom fun _ _ => rfl

theorem agree_importDecl : Agree (SameBut Import.eraseSpan) Parse.importDecl Parse.importDecl :=
  .bind agree_take fun _ _ _ => .andThen agree_identifier? fun _ => .andThen agree_valueAfter fun _ =>
    .andThen agree_valueAfter fun _ => .andThen agree_skipStatement fun _ =>
      agree_spanFrom fun _ _ => rfl

theorem agree_exportDecl : Agree (SameBut Export.eraseSpan) Parse.exportDecl Parse.exportDecl :=
  .bind agree_take fun _ _ _ => .andThen agree_accepts fun _ => .andThen agree_identifier? fun _ =>
    .andThen agree_skipStatement fun _ => agree_spanFrom fun _ _ => rfl

theorem agree_moduleDecl : Agree (SameBut Module.eraseSpan) Parse.moduleDecl Parse.moduleDecl :=
  .bind agree_take fun _ _ _ => .andThen agree_expectValue fun _ => .andThen agree_skip fun _ =>
    agree_spanFrom fun _ _ => rfl

theorem agree_moduleDecl? :
    Agree (SameBut (Option.map Module.eraseSpan)) Parse.moduleDecl? Parse.moduleDecl? :=
  .andThen agree_sees fun _ =>
    .ite (.bind agree_moduleDecl fun _ _ h => .pure (congrArg some h)) (.pure rfl)

section

variable {α β γ : Type} {p : Parse α} {e : α → γ} {e' : β → β}

/-- A statement as an item of a loop. -/
theorem Agree.item (hp : Agree (SameBut e) p p) {f : α → β}
    (hf : ∀ a b, e a = e b → e' (f a) = e' (f b)) :
    Agree (SameBut (Option.map e')) (p >>= fun a => Pure.pure (some (f a)))
      (p >>= fun a => Pure.pure (some (f a))) :=
  hp.bind fun a b h => .pure (congrArg some (hf a b h))

theorem agree_dropped (text : String) (hint : Option String) :
    Agree (SameBut (Option.map e')) (do Parse.complain text hint; discard Parse.take; return none)
      (do Parse.complain text hint; discard Parse.take; return none) :=
  .andThen agree_complain fun _ => .andThen (.discard agree_take) fun _ => .pure rfl

end

theorem agree_topItem :
    Agree (SameBut (Option.map TopItem.eraseSpan)) Parse.topItem Parse.topItem := by
  refine .andThen agree_accepts fun _ => .ite ?_ (.bind .get fun s s' h => ?_)
  · exact .andThen (.discard agree_accept?) fun _ => .pure rfl
  · rw [h.kind]
    split
    · exact .item agree_unitDecl fun _ _ he => congrArg TopItem.unit he
    · exact .item agree_importDecl fun _ _ he => congrArg TopItem.imported he
    · exact .item agree_exportDecl fun _ _ he => congrArg TopItem.exported he
    · exact agree_dropped _ _

/-! ### The draw block -/

theorem agree_times : Agree Eq Parse.times Parse.times := by
  refine .bind .get fun s s' h => ?_
  simp only [Parse.isTimes, h.kind, h.value]
  exact .ite (.discard agree_take) (.pure rfl)

theorem agree_canvas : Agree Eq Parse.canvas Parse.canvas :=
  .andThen (.discard agree_take) fun _ => .andThen agree_measure fun _ => .andThen agree_times fun _ =>
    .andThen agree_measure fun _ => .andThen agree_skip fun _ => .pure rfl

theorem agree_requiredCanvas : Agree Eq Parse.requiredCanvas Parse.requiredCanvas :=
  .andThen agree_sees fun _ => .ite agree_canvas (.andThen agree_complain fun _ => .pure rfl)

theorem agree_property : Agree Eq Parse.property Parse.property := by
  refine .andThen agree_accepts fun _ => .ite ?_ (.andThen agree_identifier? fun o => ?_)
  · refine .andThen agree_skip fun _ => .bind agree_expect fun _ _ h => .andThen agree_skip fun _ => ?_
    exact .pure (by rw [h.value])
  · cases o with
    | some name =>
        refine .andThen agree_skip fun _ =>
          (agree_takeWhile fun p => !(Parse.valueEnds.contains p.1)).bind fun _ _ h =>
            .andThen (.discard agree_accept?) fun _ => ?_
        exact .pure (by rw [h.values])
    | none =>
        refine .bind .get fun s s' h => ?_
        rw [h.value]
        exact .andThen agree_complain fun _ => .andThen (.discard agree_take) fun _ => .pure rfl

theorem Agree.sameBut_id {α : Type} {p q : Parse (Option α)} (h : Agree Eq p q) :
    Agree (SameBut (Option.map id)) p q := by
  intro s s' hs
  obtain ⟨a, b, t, t', hp, hq, rfl, ht⟩ := h s s' hs
  exact ⟨a, a, t, t', hp, hq, rfl, ht⟩

/-- Loops over items that have no place agree. -/
theorem Agree.manyEq {α : Type} {item : Parse (Option α)} (stops : List Kind)
    (h : Agree Eq item item) : Agree Eq (Parse.many stops item) (Parse.many stops item) := by
  intro s s' hs
  obtain ⟨as, bs, t, t', hp, hq, hab, ht⟩ := Agree.many stops h.sameBut_id s s' hs
  have he : as.map id = bs.map id := hab
  rw [List.map_id, List.map_id] at he
  exact ⟨as, bs, t, t', hp, hq, he, ht⟩

theorem agree_roomBody : Agree Eq Parse.roomBody Parse.roomBody :=
  .andThen agree_accepts fun _ => .ite
    ((Agree.manyEq _ agree_property).andThen fun _ => .andThen agree_skip fun _ => .pure rfl)
    (.andThen (.discard agree_accept?) fun _ => .pure rfl)

theorem agree_room : Agree (SameBut Room.eraseSpan) Parse.room Parse.room :=
  .bind agree_take fun _ _ _ => .andThen agree_expectValue fun _ => .andThen agree_skip fun _ =>
    .andThen agree_coordinate fun _ => .andThen agree_skip fun _ => .andThen agree_coordinate fun _ =>
      .andThen agree_roomBody fun _ => agree_spanFrom fun _ _ => rfl

theorem agree_segment : Agree Eq Parse.segment Parse.segment :=
  .andThen agree_skip fun _ => .andThen agree_coordinate fun _ => .andThen agree_skip fun _ =>
    .andThen agree_coordinate fun _ => .pure rfl

theorem agree_wall : Agree (SameBut Wall.eraseSpan) Parse.wall Parse.wall :=
  .bind agree_take fun _ _ _ => .andThen agree_segment fun _ => .andThen agree_skip fun _ =>
    agree_spanFrom fun _ _ => rfl

theorem agree_door : Agree (SameBut Door.eraseSpan) Parse.door Parse.door :=
  .bind agree_take fun _ _ _ => .andThen agree_segment fun _ => .andThen agree_skip fun _ =>
    .andThen agree_measure fun _ => .andThen agree_skip fun _ => agree_spanFrom fun _ _ => rfl

theorem agree_copies : Agree (SameBut Repeat.eraseSpan) Parse.copies Parse.copies :=
  .bind agree_take fun _ _ _ => .andThen agree_expectValue fun _ => .andThen agree_segment fun _ =>
    .andThen agree_skip fun _ => .andThen agree_measure fun _ => .andThen agree_skip fun _ =>
      agree_spanFrom fun _ _ => rfl

theorem agree_gridSize : Agree Eq Parse.gridSize Parse.gridSize := by
  refine .andThen agree_accepts fun _ => .ite (.andThen agree_measure fun m =>
    .bind .get fun s s' h => ?_) (.pure rfl)
  simp only [Parse.isTimes, h.value]
  exact .ite (.andThen (.discard agree_take) fun _ => .andThen agree_measure fun _ => .pure rfl)
    (.pure rfl)

theorem agree_gridColor : Agree Eq Parse.gridColor Parse.gridColor := by
  refine .andThen agree_accepts fun _ => .ite (.bind agree_accept? fun o o' ho => ?_) (.pure rfl)
  cases o with
  | some t =>
      cases o' with
      | some u =>
          have hvalue : t.value = u.value := Option.some_inj.mp ho.value
          refine (agree_takeWhile fun p => [Kind.number, .identifier].contains p.1).bind
            fun _ _ h => ?_
          exact .pure (by rw [hvalue, h.values])
      | none => cases ho
  | none =>
      cases o' with
      | some u => cases ho
      | none => exact agree_identifier?

theorem agree_gridAlpha : Agree Eq Parse.gridAlpha Parse.gridAlpha :=
  .andThen agree_accepts fun _ => .ite (.andThen agree_measure fun _ => .pure rfl) (.pure rfl)

theorem agree_grid : Agree (SameBut Grid.eraseSpan) Parse.grid Parse.grid := by
  refine .bind agree_take fun _ _ _ => .bind agree_accept? fun _ _ hmode =>
    .andThen agree_gridSize fun _ => .andThen agree_gridColor fun _ => .andThen agree_gridAlpha fun _ =>
      .andThen agree_skip fun _ => agree_spanFrom fun _ _ => ?_
  unfold SameBut Grid.eraseSpan
  rw [hmode.value]

theorem agree_placementOption : Agree Eq Parse.placementOption Parse.placementOption :=
  .andThen agree_acceptsBefore fun _ => .ite (.andThen agree_coordinate fun _ => .pure rfl)
    (.andThen agree_acceptsBefore fun _ => .ite (.andThen agree_measure fun _ => .pure rfl)
      (.andThen agree_acceptsBefore fun _ => .ite (.andThen agree_measure fun _ => .pure rfl)
        (.andThen (.discard agree_take) fun _ => .pure rfl)))

theorem agree_placement : Agree (SameBut Placement.eraseSpan) Parse.placement Parse.placement :=
  .bind agree_take fun _ _ _ => .andThen agree_identifier? fun _ => .andThen agree_valueAfter fun _ =>
    (Agree.manyEq _ agree_placementOption).andThen fun _ => .andThen (.discard agree_accept?) fun _ =>
      agree_spanFrom fun _ _ => rfl

theorem agree_bodyItem :
    Agree (SameBut (Option.map BodyItem.eraseSpan)) Parse.bodyItem Parse.bodyItem := by
  refine .bind .get fun s s' h => ?_
  rw [h.kind]
  split
  · exact .item agree_room fun _ _ he => congrArg BodyItem.room he
  · exact .item agree_wall fun _ _ he => congrArg BodyItem.wall he
  · exact .item agree_door fun _ _ he => congrArg BodyItem.door he
  · exact .item agree_grid fun _ _ he => congrArg BodyItem.grid he
  · exact .item agree_placement fun _ _ he => congrArg BodyItem.placement he
  · exact .item agree_copies fun _ _ he => congrArg BodyItem.copies he
  · exact agree_dropped _ _

/-! ### The drawing -/

theorem agree_warnTrailing : Agree Eq Parse.warnTrailing Parse.warnTrailing :=
  .andThen agree_sees fun _ =>
    .ite (.pure rfl) fun _ _ h => ⟨(), (), _, _, rfl, rfl, rfl, h.report rfl⟩

theorem agree_drawing : Agree (SameBut Drawing.eraseSpans) Parse.drawing Parse.drawing := by
  refine .bind .get fun _ _ _ => .bind agree_moduleDecl? fun m m' hm => ?_
  refine .bind (.many _ agree_topItem) fun top top' htop => ?_
  refine .andThen agree_skip fun _ => .andThen agree_expectValue fun _ =>
    .andThen agree_skip fun _ => .andThen agree_requiredCanvas fun _ => ?_
  refine .bind (.many _ agree_bodyItem) fun body body' hbody => .andThen agree_skip fun _ => ?_
  refine .bind agree_stretch fun _ _ _ => .andThen agree_warnTrailing fun _ => .pure ?_
  exact Statements.eraseSpans_congr ⟨rfl, rfl, rfl, rfl, rfl, rfl, rfl, rfl, rfl⟩
    ⟨rfl, rfl, rfl, rfl, rfl, rfl, rfl, rfl, rfl⟩ htop hbody rfl rfl hm

/-- Regular tokens of the same kinds and values are parsed to the same drawing with the same
problems, but for their places. -/
theorem parse_agree_regular {ts ts' : List Token} (hreg : ∀ t ∈ ts, Regular t.pair)
    (hpairs : ts.map Token.pair = ts'.map Token.pair) (p p' : Position) :
    ∃ parsed parsed', parse (ts ++ [Token.ending p]) = .ok parsed ∧
      parse (ts' ++ [Token.ending p']) = .ok parsed' ∧
      parsed.drawing.eraseSpans = parsed'.drawing.eraseSpans ∧
      parsed.messages.map Diagnostic.eraseSpan = parsed'.messages.map Diagnostic.eraseSpan := by
  have hreg' : ∀ t ∈ ts', Regular t.pair := by
    intro t ht
    have hmem := List.mem_map_of_mem (f := Token.pair) ht
    rw [← hpairs] at hmem
    obtain ⟨u, hu, he⟩ := List.mem_map.mp hmem
    exact he ▸ hreg u hu
  have halike : Parser.Alike ⟨[], ts, Token.ending p, 0, [], rfl⟩
      ⟨[], ts', Token.ending p', 0, [], rfl⟩ :=
    ⟨⟨rfl, rfl, hreg⟩, ⟨rfl, rfl, hreg'⟩, hpairs, rfl⟩
  obtain ⟨d, d', s, s', hrun, hrun', hd, hs⟩ := agree_drawing _ _ halike
  refine ⟨⟨d, s.messages⟩, ⟨d', s'.messages⟩, ?_, ?_, hd, hs.messages⟩
  · unfold parse
    rw [Parser.ofTokens_regular hreg, hrun]
  · unfold parse
    rw [Parser.ofTokens_regular hreg', hrun']

/-- Sources with tokens of the same kinds and values are parsed to the same drawing with the same
problems, but for their places. -/
theorem parse_agree {source source' : String} {tokens tokens' : List Token}
    (h : tokenize source = .ok tokens) (h' : tokenize source' = .ok tokens')
    (hpairs : tokens.map Token.pair = tokens'.map Token.pair) :
    ∃ parsed parsed', parse tokens = .ok parsed ∧ parse tokens' = .ok parsed' ∧
      parsed.drawing.eraseSpans = parsed'.drawing.eraseSpans ∧
      parsed.messages.map Diagnostic.eraseSpan = parsed'.messages.map Diagnostic.eraseSpan := by
  obtain ⟨ts, p, rfl, hreg⟩ := tokenize_regular h
  obtain ⟨ts', p', rfl, -⟩ := tokenize_regular h'
  rw [List.map_append, List.map_append] at hpairs
  exact parse_agree_regular hreg (List.append_inj' hpairs rfl).1 p p'

end FloorPlan
