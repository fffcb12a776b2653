import FloorPlan.Proofs.Grammar.Calls

/-! # What productions are made of

Every production is put together from a few steps by sequence and repetition: it looks at the token
ahead, takes it, takes tokens that satisfy a test or the rest of a statement, reads a number or the
name of a unit, or reports a problem at the token ahead.  `Made p` says so of `p`.  A fact about
runs that holds of these steps and is kept by sequence and repetition holds of every production, by
induction on `Made`.

The stretch of a statement is not among the steps: it looks back at the latest token taken. -/

namespace FloorPlan

/-- The step is put together from elementary ones, none of which looks back. -/
inductive Made : {α : Type} → Parse α → Prop
  | pure {α : Type} (a : α) : Made (Pure.pure a : Parse α)
  | bind {α β : Type} {p : Parse α} {q : α → Parse β} (hp : Made p) (hq : ∀ a, Made (q a)) :
      Made (p >>= q)
  | look {α : Type} {f : Parser → Parse α} (hf : ∀ s, Made (f s))
      (hcurrent : ∀ s s', s.current = s'.current → f s = f s') : Made (get >>= f)
  | take : Made Parse.take
  | takeWhile (c : Token → Bool) : Made (Parse.takeWhile c)
  | report (d : Token → Diagnostic) (hd : ∀ t, (d t).span = some t.span) :
      Made (modify fun s => s.report (d s.current))
  | statement : Made (modify fun s => s.move (Parse.statementWidth 0 s.rest))
  | unitName : Made Parse.unitName
  | number : Made Parse.number
  | many {α : Type} {item : Parse (Option α)} (stops : List Kind) (hitem : Made item) :
      Made (Parse.many stops item)

namespace Made

variable {α β : Type} {p p' : Parse α} {c : Prop} [Decidable c]

theorem ite (hp : Made p) (hp' : Made p') : Made (if c then p else p') := by
  split
  · exact hp
  · exact hp'

theorem discard (hp : Made p) : Made (Functor.discard p) := hp.bind fun _ => .pure ()

/-- What is made of such steps only goes forward. -/
theorem forward (h : Made p) : Forward p := by
  induction h with
  | pure a => exact .pure a
  | bind _ _ ihp ihq => exact ihp.bind ihq
  | look _ _ ih => exact .bind .get ih
  | take => exact forward_take
  | takeWhile c => exact forward_takeWhile
  | report d hd => exact .of_run fun s => ⟨(), _, rfl, .report .refl (hd s.current)⟩
  | statement => exact .of_run fun s => ⟨(), _, rfl, .move .refl _⟩
  | unitName => exact forward_unitName
  | number => exact forward_number
  | many stops _ ih => exact .many stops ih

end Made

/-! ### Rounds of a loop -/

namespace Parse

variable {α : Type} {item : Parse (Option α)} {stops : List Kind} {s t u : Parser} {o : Option α}
variable {as : List α} {f : Fault}

theorem many_stop (h : s.sees stops = true) : many stops item s = .ok [] s := by
  rw [many, if_pos h]

/-- A round that takes a token is followed by the others. -/
theorem many_next (h : s.sees stops = false) (hitem : item s = .ok o t)
    (hlt : t.rest.length < s.rest.length) :
    many stops item s = prepended o.toList (many stops item t) := by
  rw [many, if_neg (by simp [h])]
  simp only [hitem, if_pos hlt]
  cases many stops item t <;> rfl

/-- A round that takes no token is the last one. -/
theorem many_last (h : s.sees stops = false) (hitem : item s = .ok o t)
    (hlt : ¬ t.rest.length < s.rest.length) : many stops item s = .ok o.toList t := by
  rw [many, if_neg (by simp [h])]
  simp only [hitem, if_neg hlt]

theorem many_fault (h : s.sees stops = false) (hitem : item s = .error f t) :
    many stops item s = .error f t := by
  rw [many, if_neg (by simp [h])]
  simp only [hitem]

theorem prepended_eq_ok {r : EStateM.Result Fault Parser (List α)} {bs : List α}
    (h : prepended bs r = .ok as u) : ∃ as', r = .ok as' u ∧ as = bs ++ as' := by
  cases r with
  | error f t => cases h
  | ok as' t =>
      cases h
      exact ⟨as', rfl, rfl⟩

/-- How a loop that gives a result begins. -/
theorem many_eq_ok (h : many stops item s = .ok as u) :
    (s.sees stops = true ∧ as = [] ∧ u = s) ∨
    (s.sees stops = false ∧ ∃ o t, item s = .ok o t ∧
      ((t.rest.length < s.rest.length ∧ ∃ as', many stops item t = .ok as' u ∧
          as = o.toList ++ as') ∨
        (¬ t.rest.length < s.rest.length ∧ as = o.toList ∧ u = t))) := by
  cases hsees : s.sees stops with
  | true =>
      rw [many_stop hsees] at h
      cases h
      exact .inl ⟨rfl, rfl, rfl⟩
  | false =>
      refine .inr ⟨rfl, ?_⟩
      cases hitem : item s with
      | error f t =>
          rw [many_fault hsees hitem] at h
          cases h
      | ok o t =>
          refine ⟨o, t, rfl, ?_⟩
          by_cases hlt : t.rest.length < s.rest.length
          · rw [many_next hsees hitem hlt] at h
            exact .inl ⟨hlt, prepended_eq_ok h⟩
          · rw [many_last hsees hitem hlt] at h
            cases h
            exact .inr ⟨hlt, rfl, rfl⟩

end Parse

/-- Some rounds of a loop lead from a state to another; each takes a token, and together they
give the items `as`. -/
inductive Turns {α : Type} (stops : List Kind) (item : Parse (Option α)) :
    Parser → List α → Parser → Prop
  | refl (s : Parser) : Turns stops item s [] s
  | step {s t u : Parser} {o : Option α} {as : List α} (hsees : s.sees stops = false)
      (hitem : item s = .ok o t) (hlt : t.rest.length < s.rest.length)
      (h : Turns stops item t as u) : Turns stops item s (o.toList ++ as) u

namespace Turns

variable {α : Type} {item : Parse (Option α)} {stops : List Kind} {s t u : Parser} {o : Option α}
variable {as bs : List α}

theorem append (h : Turns stops item s as t) (h' : Turns stops item t bs u) :
    Turns stops item s (as ++ bs) u := by
  induction h with
  | refl s => exact h'
  | step hsees hitem hlt _ ih =>
      rw [List.append_assoc]
      exact .step hsees hitem hlt (ih h')

theorem single (hsees : s.sees stops = false) (hitem : item s = .ok o t)
    (hlt : t.rest.length < s.rest.length) : Turns stops item s o.toList t := by
  have h := Turns.step hsees hitem hlt (.refl t)
  rwa [List.append_nil] at h

/-- The loop goes on from where some of its rounds have led. -/
theorem many (h : Turns stops item s as t) :
    Parse.many stops item s = prepended as (Parse.many stops item t) := by
  induction h with
  | refl s => rw [prepended_nil]
  | step hsees hitem hlt _ ih =>
      rw [Parse.many_next hsees hitem hlt, ih]
      cases Parse.many stops item _ with
      | ok bs u => simp only [prepended, List.append_assoc]
      | error f u => rfl

/-- What follows a loop gets the items of the rounds made so far. -/
theorem bind {β : Type} {q : List α → Parse β} (h : Turns stops item s as t) :
    (Parse.many stops item >>= q) s = (Parse.many stops item >>= fun bs => q (as ++ bs)) t := by
  have hmany := h.many
  cases hrest : Parse.many stops item t with
  | ok bs u =>
      rw [hrest] at hmany
      rw [Parse.bind_ok hmany, Parse.bind_ok hrest]
  | error f u =>
      rw [hrest] at hmany
      rw [Parse.bind_eq_error.mpr (.inl hmany), Parse.bind_eq_error.mpr (.inl hrest)]

/-- A loop whose items take tokens is made of such rounds. -/
theorem of_many {Q : Span → Option α → Prop} (hitem : Statement Q item) (hend : .endOfInput ∈ stops)
    (hs : s.shift = 0) (h : Parse.many stops item s = .ok as t) : Turns stops item s as t := by
  generalize hm : s.rest.length = m
  induction m using Nat.strongRecOn generalizing s as with
  | ind m ih =>
      rcases Parse.many_eq_ok h with ⟨-, rfl, rfl⟩ | ⟨hsees, o, s₁, hrun, hround⟩
      · exact .refl t
      · have hr : s.rest ≠ [] := by
          intro hr
          rw [← Bool.not_eq_true, Parser.sees_iff, hr] at hsees
          exact hsees hend
        have hlt := (hitem.opens hs hrun).length_lt hr
        rcases hround with ⟨-, as', hmany, rfl⟩ | ⟨hnot, -⟩
        · exact .step hsees hrun hlt (ih _ (by omega) ((hitem.ok hs hrun).shift hs) hmany rfl)
        · exact absurd hlt hnot

theorem advance (hforward : Forward item) (hs : s.shift = 0) (h : Turns stops item s as t) :
    s.Advance t := by
  induction h with
  | refl s => exact .refl s
  | step _ hitem _ _ ih =>
      have hadv := hforward.ok hs hitem
      exact hadv.trans (ih (hadv.shift hs))

end Turns

/-! ### Elementary steps -/

section

variable {k l : Kind} {ks : List Kind}

theorem Parser.sees_congr {s s' : Parser} (h : s.current = s'.current) : s.sees ks = s'.sees ks := by
  unfold sees
  rw [h]

theorem made_sees : Made (Parse.sees ks) :=
  .look (fun _ => .pure _) fun s s' h => by rw [Parser.sees_congr h]

theorem made_complain {text : String} {hint : Option String} : Made (Parse.complain text hint) :=
  .report (fun t => .error .grammar text t.span hint) fun _ => rfl

theorem made_accept? : Made (Parse.accept? ks) :=
  .bind made_sees fun _ => .ite (.bind .take fun _ => .pure _) (.pure _)

theorem made_accepts : Made (Parse.accepts ks) := .bind made_accept? fun _ => .pure _

theorem made_acceptsBefore : Made (Parse.acceptsBefore k l) :=
  .bind made_accepts fun _ => .ite made_sees (.pure _)

theorem made_identifier? : Made Parse.identifier? := .bind made_accept? fun _ => .pure _

theorem made_expect : Made (Parse.expect k) := by
  refine .bind made_accept? fun o => ?_
  cases o with
  | some t => exact .pure _
  | none =>
      refine .look (fun s => .bind made_complain fun _ => .pure _) fun s s' h => ?_
      simp only [h]

theorem made_expectValue : Made (Parse.expectValue k) := .bind made_expect fun _ => .pure _

theorem made_skip : Made (Parse.skip k) := .discard made_expect

theorem made_valueAfter : Made (Parse.valueAfter k l) :=
  .bind made_acceptsBefore fun _ => .ite (.bind .take fun _ => .pure _) (.pure _)

end

/-! ### Productions -/

theorem made_measure : Made Parse.measure :=
  .bind .number fun _ => .bind made_identifier? fun _ => .pure _

theorem made_coordinate : Made Parse.coordinate :=
  .bind made_skip fun _ => .bind made_measure fun _ => .bind made_skip fun _ =>
    .bind made_measure fun _ => .bind made_skip fun _ => .pure _

theorem made_segment : Made Parse.segment :=
  .bind made_skip fun _ => .bind made_coordinate fun _ => .bind made_skip fun _ =>
    .bind made_coordinate fun _ => .pure _

theorem made_times : Made Parse.times :=
  .look (fun _ => .ite (.discard .take) (.pure _)) fun s s' h => by simp only [h]

theorem made_property : Made Parse.property := by
  refine .bind made_accepts fun _ => .ite ?_ (.bind made_identifier? fun o => ?_)
  · exact .bind made_skip fun _ => .bind made_expect fun _ => .bind made_skip fun _ => .pure _
  · cases o with
    | some name =>
        exact .bind made_skip fun _ => .bind (.takeWhile _) fun _ =>
          .bind (.discard made_accept?) fun _ => .pure _
    | none =>
        refine .look (fun _ => .bind made_complain fun _ => .bind (.discard .take) fun _ =>
          .pure _) fun s s' h => ?_
        simp only [h]

theorem made_gridSize : Made Parse.gridSize := by
  refine .bind made_accepts fun _ => .ite (.bind made_measure fun _ => .look (fun _ => .ite ?_ ?_)
    fun s s' h => ?_) (.pure _)
  · exact .bind (.discard .take) fun _ => .bind made_measure fun _ => .pure _
  · exact .pure _
  · simp only [h]

theorem made_gridColor : Made Parse.gridColor := by
  refine .bind made_accepts fun _ => .ite (.bind made_accept? fun o => ?_) (.pure _)
  cases o with
  | some t => exact .bind (.takeWhile _) fun _ => .pure _
  | none => exact made_identifier?

theorem made_gridAlpha : Made Parse.gridAlpha :=
  .bind made_accepts fun _ => .ite (.bind made_measure fun _ => .pure _) (.pure _)

theorem made_placementOption : Made Parse.placementOption :=
  .bind made_acceptsBefore fun _ => .ite (.bind made_coordinate fun _ => .pure _)
    (.bind made_acceptsBefore fun _ => .ite (.bind made_measure fun _ => .pure _)
      (.bind made_acceptsBefore fun _ => .ite (.bind made_measure fun _ => .pure _)
        (.bind (.discard .take) fun _ => .pure _)))

theorem made_warnTrailing : Made Parse.warnTrailing :=
  .bind made_sees fun _ => .ite (.pure _)
    (.report (fun t => .warning .grammar "Content after the draw block is ignored" t.span)
      fun _ => rfl)

end FloorPlan
