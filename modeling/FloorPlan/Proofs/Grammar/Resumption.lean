import FloorPlan.Proofs.Grammar.Lookahead

/-! # Parsing goes on from the tokens ahead

What a production does depends on the tokens ahead only, not on those taken before it and the
problems found so far.  `Parser.Abreast s s'` relates states with the same tokens ahead, and
`Parallel R p q s s'` says that `p` from `s` and `q` from `s'` take as many tokens and report the
same problems, with results that `R` relates, or that both end with the same fault.

The stretch of a statement looks back at the latest token taken.  A front that opens a statement
takes a token, so this token, too, is among those that were ahead (`parallel_closed`). -/

namespace FloorPlan

namespace Parser

/-- The states have the same tokens ahead. -/
structure Abreast (s s' : Parser) : Prop where
  shift : s.shift = 0
  shift' : s'.shift = 0
  rest : s'.rest = s.rest
  ending : s'.ending = s.ending

/-- The states `t` and `t'` come from `s` and `s'` by taking as many tokens and reporting the same
problems. -/
def Along (s s' t t' : Parser) : Prop :=
  ∃ n ds, t = (s.move n).extend ds ∧ t' = (s'.move n).extend ds

variable {s s' t t' u u' : Parser}

namespace Along

theorem refl (s s' : Parser) : s.Along s' s s' := ⟨0, [], by simp, by simp⟩

theorem move (s s' : Parser) (n : Nat) : s.Along s' (s.move n) (s'.move n) :=
  ⟨n, [], by simp, by simp⟩

theorem report (s s' : Parser) (d : Diagnostic) : s.Along s' (s.report d) (s'.report d) :=
  ⟨0, [d], rfl, rfl⟩

theorem trans (h : s.Along s' t t') (h' : t.Along t' u u') : s.Along s' u u' := by
  obtain ⟨n, ds, rfl, rfl⟩ := h
  obtain ⟨m, es, rfl, rfl⟩ := h'
  refine ⟨n + m, ds ++ es, ?_, ?_⟩ <;> rw [← move_move] <;> simp [Parser.move, extend]

end Along

namespace Abreast

theorem current (h : s.Abreast s') : s.current = s'.current := by
  unfold Parser.current
  rw [h.rest, h.ending]

theorem next (h : s.Abreast s') : s.next = s'.next := by
  unfold Parser.next
  rw [h.rest, h.ending]

theorem sees (h : s.Abreast s') (ks : List Kind) : s.sees ks = s'.sees ks := sees_congr h.current

theorem along (h : s.Abreast s') (halong : s.Along s' t t') : t.Abreast t' := by
  obtain ⟨n, ds, rfl, rfl⟩ := halong
  exact ⟨h.shift, h.shift', congrArg (·.drop n) h.rest, h.ending⟩

/-- Where tokens were taken, the latest one is the same. -/
theorem head (h : s.Abreast s') (halong : s.Along s' t t') (hlt : t.rest.length < s.rest.length) :
    t'.past.head? = t.past.head? := by
  obtain ⟨n, ds, rfl, rfl⟩ := halong
  have hne : (s.rest.take n).reverse ≠ [] := by
    intro hnil
    rw [List.reverse_eq_nil_iff, List.take_eq_nil_iff] at hnil
    rcases hnil with rfl | hnil
    · exact Nat.lt_irrefl _ hlt
    · rw [hnil] at hlt
      simp at hlt
  show ((s'.rest.take n).reverse ++ s'.past).head? = ((s.rest.take n).reverse ++ s.past).head?
  rw [h.rest, List.head?_append_of_ne_nil _ hne, List.head?_append_of_ne_nil _ hne]

end Abreast

end Parser

/-! ### Parallel runs -/

/-- Both steps take as many tokens and report the same problems, and `R` relates their results; or
both end with the same fault. -/
def Parallel {α β : Type} (R : α → β → Prop) (p : Parse α) (q : Parse β) (s s' : Parser) : Prop :=
  (∃ a b t t', p s = .ok a t ∧ q s' = .ok b t' ∧ R a b ∧ s.Along s' t t') ∨
  ∃ f t t', p s = .error f t ∧ q s' = .error f t'

namespace Parallel

variable {α β α' β' : Type} {R : α → β → Prop} {S : α' → β' → Prop} {p : Parse α} {q : Parse β}
variable {f : α → Parse α'} {g : β → Parse β'} {s s' t t' : Parser}

theorem ok {a : α} {b : β} (hp : p s = .ok a t) (hq : q s' = .ok b t') (hR : R a b)
    (h : s.Along s' t t') : Parallel R p q s s' :=
  .inl ⟨a, b, t, t', hp, hq, hR, h⟩

theorem pure {a : α} {b : β} (hR : R a b) : Parallel R (Pure.pure a) (Pure.pure b) s s' :=
  .ok (Parse.pure_run a s) (Parse.pure_run b s') hR (.refl s s')

theorem mono {R' : α → β → Prop} (h : Parallel R p q s s') (hR : ∀ a b, R a b → R' a b) :
    Parallel R' p q s s' := by
  rcases h with ⟨a, b, t, t', hp, hq, hab, halong⟩ | hfault
  · exact .ok hp hq (hR a b hab) halong
  · exact .inr hfault

theorem bind (hp : Parallel R p q s s')
    (hf : ∀ a b t t', R a b → p s = .ok a t → s.Along s' t t' → Parallel S (f a) (g b) t t') :
    Parallel S (p >>= f) (q >>= g) s s' := by
  rcases hp with ⟨a, b, t, t', hpa, hqb, hR, halong⟩ | ⟨x, t, t', hpx, hqx⟩
  · rcases hf a b t t' hR hpa halong with ⟨a', b', u, u', hfa, hgb, hS, hu⟩ | ⟨x, u, u', hfx, hgx⟩
    · exact .inl ⟨a', b', u, u', by rw [Parse.bind_ok hpa, hfa], by rw [Parse.bind_ok hqb, hgb], hS,
        halong.trans hu⟩
    · exact .inr ⟨x, u, u', by rw [Parse.bind_ok hpa, hfx], by rw [Parse.bind_ok hqb, hgx]⟩
  · exact .inr ⟨x, t, t', Parse.bind_eq_error.mpr (.inl hpx), Parse.bind_eq_error.mpr (.inl hqx)⟩

/-- A loop runs in parallel if its rounds do. -/
theorem many {item : Parse (Option α)} (stops : List Kind)
    (hitem : ∀ {s s'}, s.Abreast s' → s.sees stops = false → Parallel Eq item item s s')
    (h : s.Abreast s') : Parallel Eq (Parse.many stops item) (Parse.many stops item) s s' := by
  generalize hm : s.rest.length = m
  induction m using Nat.strongRecOn generalizing s s' with
  | ind m ih =>
      cases hsees : s.sees stops with
      | true =>
          exact .ok (Parse.many_stop hsees) (Parse.many_stop (h.sees stops ▸ hsees)) rfl (.refl s s')
      | false =>
          have hsees' : s'.sees stops = false := h.sees stops ▸ hsees
          rcases hitem h hsees with ⟨o, _, t, t', hp, hq, rfl, halong⟩ | ⟨x, t, t', hpx, hqx⟩
          · have ht := h.along halong
            by_cases hlt : t.rest.length < s.rest.length
            · have hlt' : t'.rest.length < s'.rest.length := by rwa [ht.rest, h.rest]
              unfold Parallel
              rw [Parse.many_next hsees hp hlt, Parse.many_next hsees' hq hlt']
              rcases ih _ (by omega) ht rfl with ⟨as, _, u, u', has, has', rfl, hu⟩ | ⟨x, u, u', hx, hx'⟩
              · rw [has, has']
                exact .inl ⟨_, _, u, u', rfl, rfl, rfl, halong.trans hu⟩
              · rw [hx, hx']
                exact .inr ⟨x, u, u', rfl, rfl⟩
            · have hlt' : ¬ t'.rest.length < s'.rest.length := by rwa [ht.rest, h.rest]
              exact .ok (Parse.many_last hsees hp hlt) (Parse.many_last hsees' hq hlt') rfl halong
          · exact .inr ⟨x, t, t', Parse.many_fault hsees hpx, Parse.many_fault hsees' hqx⟩

end Parallel

/-- Productions go on from the tokens ahead. -/
theorem Made.parallel {α : Type} {p : Parse α} (hp : Made p) {s s' : Parser} (h : s.Abreast s') :
    Parallel Eq p p s s' := by
  induction hp generalizing s s' with
  | pure a => exact .pure rfl
  | bind _ _ ihp ihq =>
      refine (ihp h).bind ?_
      rintro a _ t t' rfl - halong
      exact ihq a (h.along halong)
  | look _ hcurrent ih =>
      refine Parallel.bind (R := fun a b => a = s ∧ b = s') (.ok (Parse.get_run s)
        (Parse.get_run s') ⟨rfl, rfl⟩ (.refl s s')) ?_
      rintro _ _ t t' ⟨rfl, rfl⟩ - halong
      rw [← hcurrent _ _ h.current]
      exact ih _ (h.along halong)
  | take => exact .ok (Parse.take_run s) (Parse.take_run s') h.current (.move s s' 1)
  | takeWhile c =>
      refine .ok (Parse.takeWhile_run c s) (Parse.takeWhile_run c s') (by rw [h.rest]) ?_
      rw [h.rest]
      exact .move s s' _
  | report d hd =>
      refine .inl ⟨(), (), s.report (d s.current), s'.report (d s'.current), rfl, rfl, rfl, ?_⟩
      rw [h.current]
      exact .report s s' _
  | statement =>
      refine .inl ⟨(), (), s.move _, s'.move _, rfl, rfl, rfl, ?_⟩
      rw [h.rest]
      exact .move s s' _
  | unitName =>
      unfold Parallel
      rw [Parse.unitName_run, Parse.unitName_run, h.sees, h.next, h.current]
      split
      · exact .inl ⟨_, _, _, _, rfl, rfl, rfl, .move s s' 1⟩
      · exact .inl ⟨_, _, _, _, rfl, rfl, rfl, .refl s s'⟩
  | number =>
      have hkind : nextKind s'.rest = nextKind s.rest := by rw [h.rest]
      by_cases hk : nextKind s.rest = .number
      · cases hx : Number.readFloat? s.current.value with
        | none =>
            have hfault := Parse.number_fault (hkind.trans hk) (h.current ▸ hx)
            rw [← h.current] at hfault
            exact .inr ⟨_, _, _, Parse.number_fault hk hx, hfault⟩
        | some x =>
            exact .ok (Parse.number_some hk hx)
              (Parse.number_some (hkind.trans hk) (h.current ▸ hx)) rfl (.move s s' 1)
      · refine .ok (Parse.number_missing hk) (Parse.number_missing (hkind ▸ hk)) rfl ?_
        rw [h.current]
        exact .report s s' _
  | many stops _ ih => exact .many stops (fun h _ => ih h) h

/-! ### Statements -/

section

variable {α : Type} {front : Parse (Option (Unclosed α))} {s s' : Parser}

theorem parallel_spanFrom (h : s.Abreast s') (hhead : s'.past.head? = s.past.head?)
    (start : Position) : Parallel Eq (Parse.spanFrom start) (Parse.spanFrom start) s s' := by
  refine .ok (Parse.spanFrom_run h.shift start) (Parse.spanFrom_run h.shift' start) ?_ (.refl s s')
  rw [Parser.stretch, Parser.stretch, hhead]

/-- A statement goes on from the tokens ahead. -/
theorem parallel_closed (hfront : Front front) (h : s.Abreast s') :
    Parallel Eq (Parse.closed front) (Parse.closed front) s s' := by
  refine (hfront.made.parallel h).bind ?_
  rintro o _ t t' rfl hrun halong
  cases o with
  | none => exact .pure rfl
  | some u =>
      refine ((Parse.made_closer _ _).parallel (h.along halong)).bind ?_
      rintro ⟨⟩ _ t₁ t₁' - hcloser halong₁
      have hall := halong.trans halong₁
      have hlt : t₁.rest.length < s.rest.length := by
        have hle := ((Parse.made_closer _ _).forward.ok (h.along halong).shift
          hcloser).onward.suffix.length_le
        have hlt := hfront.takes h.shift hrun
        omega
      refine (parallel_spanFrom (h.along hall) (h.head hall hlt) _).bind ?_
      rintro span _ _ _ rfl - -
      exact .pure rfl

end

/-- The rounds of a loop are the same, whatever stands before them. -/
theorem Turns.parallel {α : Type} {stops : List Kind} {item : Parse (Option α)} {as : List α}
    {s s' t : Parser} (hitem : ∀ {s s' : Parser}, s.Abreast s' → Parallel Eq item item s s')
    (h : Turns stops item s as t) (hs : s.Abreast s') :
    ∃ t', Turns stops item s' as t' ∧ s.Along s' t t' := by
  induction h generalizing s' with
  | refl s => exact ⟨s', .refl s', .refl s s'⟩
  | @step s t u o as hsees hrun hlt _ ih =>
      rcases hitem hs with ⟨a, b, t₁, t', hrun₁, hrun', rfl, halong⟩ | ⟨f, t₁, t', hfault, -⟩
      · cases hrun.symm.trans hrun₁
        have ht := hs.along halong
        obtain ⟨u', hturns, halong'⟩ := ih ht
        refine ⟨u', .step (hs.sees stops ▸ hsees) hrun' ?_ hturns, halong.trans halong'⟩
        rwa [ht.rest, hs.rest]
      · rw [hrun] at hfault
        cases hfault

end FloorPlan
