import FloorPlan.Proofs.Grammar.Recognition

/-! # Parsing only goes forward

`Parser.Walk s s'` is all that a parsing step can do to its state: it takes tokens from the front
and reports problems at the token ahead.  `Parser.Advance s s'` is what is left of it when the
places of the problems do not matter.  `Forward p` says that `p` does nothing else, whatever tokens
it stands before, and that it faults only at a number token that cannot be read.  The rules follow
the structure of the productions; `Forward.bind` is sequence, `Forward.many` is repetition. -/

namespace FloorPlan

/-! ### What a step does to the state -/

namespace Parser

/-- Adds problems. -/
def extend (s : Parser) (ds : Diagnostics) : Parser := { s with messages := s.messages ++ ds }

@[simp] theorem extend_nil (s : Parser) : s.extend [] = s := by simp [extend]

/-- The state `s'` comes after more tokens and has more problems. -/
def Advance (s s' : Parser) : Prop := ∃ n ds, s' = (s.move n).extend ds

namespace Advance

variable {s s' s'' : Parser}

theorem refl (s : Parser) : s.Advance s := ⟨0, [], by simp⟩

theorem move (s : Parser) (n : Nat) : s.Advance (s.move n) := ⟨n, [], by simp⟩

theorem report (s : Parser) (d : Diagnostic) : s.Advance (s.report d) := ⟨0, [d], rfl⟩

theorem trans (h : s.Advance s') (h' : s'.Advance s'') : s.Advance s'' := by
  obtain ⟨n, ds, rfl⟩ := h
  obtain ⟨m, es, rfl⟩ := h'
  refine ⟨n + m, ds ++ es, ?_⟩
  rw [← move_move]
  simp [Parser.move, extend]

theorem onward (h : s.Advance s') : s.Onward s' := by
  obtain ⟨n, ds, rfl⟩ := h
  exact ⟨List.drop_suffix n _, rfl, rfl⟩

theorem shift (h : s.Advance s') (hs : s.shift = 0) : s'.shift = 0 := h.onward.shift.trans hs

end Advance

/-- The state `s'` comes after taking tokens and reporting problems, each at the token ahead. -/
inductive Walk (s : Parser) : Parser → Prop
  | refl : Walk s s
  | move {s' : Parser} (h : Walk s s') (n : Nat) : Walk s (s'.move n)
  | report {s' : Parser} {d : Diagnostic} (h : Walk s s') (hd : d.span = some s'.current.span) :
      Walk s (s'.report d)

namespace Walk

variable {s s' s'' : Parser}

theorem trans (h : s.Walk s') (h' : s'.Walk s'') : s.Walk s'' := by
  induction h' with
  | refl => exact h
  | move _ n ih => exact ih.move n
  | report _ hd ih => exact ih.report hd

theorem advance (h : s.Walk s') : s.Advance s' := by
  induction h with
  | refl => exact .refl s
  | move _ n ih => exact ih.trans (.move _ n)
  | report _ _ ih => exact ih.trans (.report _ _)

end Walk

/-- The fault is that of a number token ahead that cannot be read. -/
def Misread (s : Parser) (f : Fault) : Prop :=
  ∃ t ∈ s.rest, t.kind = .number ∧ Number.readFloat? t.value = none ∧ f = .badNumber t.value

theorem Advance.misread {s s' : Parser} {f : Fault} (h : s.Advance s') (hf : s'.Misread f) :
    s.Misread f := by
  obtain ⟨t, ht, hread⟩ := hf
  exact ⟨t, h.onward.suffix.subset ht, hread⟩

/-- Every number of a source can be read. -/
theorem Steady.not_misread {s : Parser} (hs : s.Steady) (f : Fault) : ¬ s.Misread f := by
  rintro ⟨t, ht, hk, hread, -⟩
  have hsome := Number.readFloat?_isSome ((hs.regular t ht).numeral hk)
  have hvalue : Number.readFloat? t.pair.2 = none := hread
  rw [hvalue] at hsome
  cases hsome

end Parser

/-! ### Sequences of steps -/

namespace Parse

variable {α β : Type} {p : Parse α} {q : α → Parse β} {s s' : Parser} {b : β} {f : Fault}

theorem throw_run (f : Fault) (s : Parser) : (throw f : Parse α) s = .error f s := rfl

theorem bind_eq_ok : (p >>= q) s = .ok b s' ↔ ∃ a t, p s = .ok a t ∧ q a t = .ok b s' := by
  show EStateM.bind p q s = _ ↔ _
  unfold EStateM.bind
  cases p s with
  | ok a t =>
      constructor
      · exact fun h => ⟨a, t, rfl, h⟩
      · rintro ⟨a', t', he, h⟩
        cases he
        exact h
  | error e t =>
      constructor
      · exact fun h => nomatch h
      · rintro ⟨a', t', he, -⟩
        cases he

theorem bind_eq_error : (p >>= q) s = .error f s' ↔
    p s = .error f s' ∨ ∃ a t, p s = .ok a t ∧ q a t = .error f s' := by
  show EStateM.bind p q s = _ ↔ _
  unfold EStateM.bind
  cases p s with
  | ok a t =>
      constructor
      · exact fun h => .inr ⟨a, t, rfl, h⟩
      · rintro (he | ⟨a', t', he, h⟩)
        · cases he
        · cases he
          exact h
  | error e t =>
      constructor
      · exact fun h => by cases h; exact .inl rfl
      · rintro (he | ⟨a', t', he, -⟩)
        · cases he
          rfl
        · cases he

end Parse

/-- The step `p` only goes forward, and it faults only at a number that cannot be read. -/
structure Forward {α : Type} (p : Parse α) : Prop where
  walk : ∀ {s a s'}, s.shift = 0 → p s = .ok a s' → s.Walk s'
  error : ∀ {s f s'}, s.shift = 0 → p s = .error f s' → s.Advance s' ∧ s.Misread f

namespace Forward

variable {α β : Type} {p : Parse α} {q : α → Parse β} {c : Prop} [Decidable c]

theorem ok (hp : Forward p) {s s' : Parser} {a : α} (hs : s.shift = 0) (h : p s = .ok a s') :
    s.Advance s' :=
  (hp.walk hs h).advance

/-- A step that always gives a result. -/
theorem of_run (h : ∀ s, ∃ a s', p s = .ok a s' ∧ s.Walk s') : Forward p := by
  constructor
  · intro s a s' _ hp
    obtain ⟨a', t, hrun, hwalk⟩ := h s
    rw [hp] at hrun
    cases hrun
    exact hwalk
  · intro s f s' _ hp
    obtain ⟨a', t, hrun, -⟩ := h s
    rw [hp] at hrun
    cases hrun

theorem bind (hp : Forward p) (hq : ∀ a, Forward (q a)) : Forward (p >>= q) := by
  constructor
  · intro s b s' hs h
    obtain ⟨a, t, hpa, hqa⟩ := Parse.bind_eq_ok.mp h
    have hwalk := hp.walk hs hpa
    exact hwalk.trans ((hq a).walk (hwalk.advance.shift hs) hqa)
  · intro s f s' hs h
    rcases Parse.bind_eq_error.mp h with hpe | ⟨a, t, hpa, hqe⟩
    · exact hp.error hs hpe
    · have hadv := hp.ok hs hpa
      obtain ⟨hadv', hread⟩ := (hq a).error (hadv.shift hs) hqe
      exact ⟨hadv.trans hadv', hadv.misread hread⟩

theorem pure (a : α) : Forward (Pure.pure a : Parse α) :=
  of_run fun s => ⟨a, s, Parse.pure_run a s, .refl⟩

theorem get : Forward (MonadState.get : Parse Parser) :=
  of_run fun s => ⟨s, s, Parse.get_run s, .refl⟩

theorem discard (hp : Forward p) : Forward (Functor.discard p) :=
  hp.bind fun _ => .pure ()

theorem ite {p' : Parse α} (hp : Forward p) (hp' : Forward p') : Forward (if c then p else p') := by
  split
  · exact hp
  · exact hp'

/-- A loop goes forward if its items do. -/
theorem many {item : Parse (Option α)} (stops : List Kind) (hitem : Forward item) :
    Forward (Parse.many stops item) := by
  have hloop : ∀ (m : Nat) (s : Parser), s.rest.length = m → s.shift = 0 →
      (∀ as s', Parse.many stops item s = .ok as s' → s.Walk s') ∧
      ∀ f s', Parse.many stops item s = .error f s' → s.Advance s' ∧ s.Misread f := by
    intro m
    induction m using Nat.strongRecOn with
    | ind m ih =>
        intro s hm hs
        rw [Parse.many]
        split
        · exact ⟨fun as s' h => by cases h; exact .refl, fun f s' h => by cases h⟩
        · cases hp : item s with
          | error f t =>
              refine ⟨fun as s' h => (by cases h), fun f' s' h => ?_⟩
              cases h
              exact hitem.error hs hp
          | ok a t =>
              have hwalk := hitem.walk hs hp
              have hadv := hwalk.advance
              by_cases hlt : t.rest.length < s.rest.length
              · obtain ⟨hok, herror⟩ := ih t.rest.length (by omega) t rfl (hadv.shift hs)
                simp only [if_pos hlt]
                cases hrest : Parse.many stops item t with
                | error f u =>
                    refine ⟨fun as s' h => (by cases h), fun f' s' h => ?_⟩
                    cases h
                    obtain ⟨hadv', hread⟩ := herror f u hrest
                    exact ⟨hadv.trans hadv', hadv.misread hread⟩
                | ok as u =>
                    refine ⟨fun as' s' h => ?_, fun f' s' h => by cases h⟩
                    cases h
                    exact hwalk.trans (hok as u hrest)
              · simp only [if_neg hlt]
                refine ⟨fun as s' h => ?_, fun f s' h => by cases h⟩
                cases h
                exact hwalk
  exact ⟨fun hs h => (hloop _ _ rfl hs).1 _ _ h, fun hs h => (hloop _ _ rfl hs).2 _ _ h⟩

end Forward

/-! ### Elementary steps -/

section

open Forward (of_run)

variable {α : Type} {k l : Kind} {ks : List Kind}

theorem forward_take : Forward Parse.take := of_run fun s => ⟨_, _, Parse.take_run s, .move .refl 1⟩

theorem forward_sees : Forward (Parse.sees ks) := of_run fun s => ⟨_, s, Parse.sees_run ks s, .refl⟩

theorem forward_takeWhile {c : Token → Bool} : Forward (Parse.takeWhile c) :=
  of_run fun s => ⟨_, _, Parse.takeWhile_run c s, .move .refl _⟩

theorem forward_complain {text : String} {hint : Option String} :
    Forward (Parse.complain text hint) :=
  of_run fun s => ⟨_, _, Parse.complain_run text hint s, .report .refl rfl⟩

theorem forward_accept? : Forward (Parse.accept? ks) :=
  .bind forward_sees fun _ => .ite (.bind forward_take fun _ => .pure _) (.pure _)

theorem forward_accepts : Forward (Parse.accepts ks) := .bind forward_accept? fun _ => .pure _

theorem forward_acceptsBefore : Forward (Parse.acceptsBefore k l) :=
  .bind forward_accepts fun _ => .ite forward_sees (.pure _)

theorem forward_identifier? : Forward Parse.identifier? := .bind forward_accept? fun _ => .pure _

theorem forward_expect : Forward (Parse.expect k) := by
  refine .bind forward_accept? fun o => ?_
  cases o with
  | some t => exact .pure _
  | none => exact .bind .get fun _ => .bind forward_complain fun _ => .pure _

theorem forward_expectValue : Forward (Parse.expectValue k) := .bind forward_expect fun _ => .pure _

theorem forward_skip : Forward (Parse.skip k) := (.discard forward_expect)

/-- The stretch from `start` to the end of the latest token. -/
def Parser.stretch (s : Parser) (start : Position) : Span :=
  ⟨start, (s.past.head?.map (·.stop)).getD start⟩

theorem Parse.spanFrom_run {s : Parser} (hs : s.shift = 0) (start : Position) :
    Parse.spanFrom start s = .ok (s.stretch start) s := by
  unfold Parse.spanFrom
  rw [bind_ok (get_run s)]
  cases hp : s.past with
  | nil =>
      rw [if_pos (by simp [Parser.index, hp, hs])]
      simp [Parser.stretch, hp, pure_run]
  | cons t ts =>
      have hi : ¬ s.index ≤ 0 := by
        simp only [Parser.index, hp, hs, List.length_cons]
        omega
      rw [if_neg hi]
      simp [Parser.lastStop?, Parser.stretch, hs, hp, pure_run]

theorem forward_spanFrom (start : Position) : Forward (Parse.spanFrom start) := by
  constructor
  · intro s span s' hs h
    rw [Parse.spanFrom_run hs] at h
    cases h
    exact .refl
  · intro s f s' hs h
    rw [Parse.spanFrom_run hs] at h
    cases h

theorem forward_number : Forward Parse.number := by
  constructor
  · intro s x s' hs h
    obtain ⟨o, t, ho, hx⟩ := Parse.bind_eq_ok.mp h
    have hwalk := Forward.walk forward_expect hs ho
    cases o with
    | none =>
        cases hx
        exact hwalk
    | some u =>
        cases hread : Number.readFloat? u.value with
        | none => simp [Parse.numberValue, hread, Parse.throw_run] at hx
        | some y =>
            simp only [Parse.numberValue, hread, Parse.pure_run] at hx
            cases hx
            exact hwalk
  · intro s f s' hs h
    rcases Parse.bind_eq_error.mp h with he | ⟨o, t, ho, hx⟩
    · exact Forward.error forward_expect hs he
    · by_cases hk : nextKind s.rest = .number
      · rw [Parse.expect_some hk] at ho
        cases ho
        cases hread : Number.readFloat? s.current.value with
        | some y => simp [Parse.numberValue, hread, Parse.pure_run] at hx
        | none =>
            simp only [Parse.numberValue, hread, Parse.throw_run] at hx
            cases hx
            obtain ⟨u, us, hr, hu⟩ := eq_cons_of_nextKind hk (by decide)
            rw [Parser.current_of_rest hr] at hread ⊢
            exact ⟨.move s 1, u, by simp [hr], hu, hread, rfl⟩
      · obtain ⟨d, -, hp⟩ := Parse.expect_none hk
        rw [hp] at ho
        cases ho
        cases hx

/-! ### Productions -/

theorem forward_measure : Forward Parse.measure :=
  .bind forward_number fun _ => .bind forward_identifier? fun _ => .pure _

theorem forward_coordinate : Forward Parse.coordinate :=
  .bind forward_skip fun _ => .bind forward_measure fun _ => .bind forward_skip fun _ =>
    .bind forward_measure fun _ => .bind forward_skip fun _ => .pure _

theorem forward_skipStatement : Forward Parse.skipStatement :=
  .bind (of_run fun _ => ⟨(), _, rfl, .move .refl _⟩) fun _ => (.discard forward_accept?)

theorem forward_unitName : Forward Parse.unitName :=
  .bind .get fun _ => .bind .get fun _ => .ite (.bind forward_take fun _ => .pure _) (.pure _)

theorem forward_valueAfter : Forward (Parse.valueAfter k l) :=
  .bind forward_acceptsBefore fun _ => .ite (.bind forward_take fun _ => .pure _) (.pure _)

theorem forward_times : Forward Parse.times :=
  .bind .get fun _ => .ite (.discard forward_take) (.pure _)

theorem forward_property : Forward Parse.property := by
  refine .bind forward_accepts fun _ => .ite ?_ ?_
  · exact .bind forward_skip fun _ => .bind forward_expect fun _ => .bind forward_skip fun _ => .pure _
  · refine .bind forward_identifier? fun o => ?_
    cases o with
    | some name =>
        exact .bind forward_skip fun _ => .bind forward_takeWhile fun _ =>
          .bind (.discard forward_accept?) fun _ => .pure _
    | none =>
        exact .bind .get fun _ => .bind forward_complain fun _ =>
          .bind (.discard forward_take) fun _ => .pure _

theorem forward_roomBody : Forward Parse.roomBody :=
  .bind forward_accepts fun _ => .ite
    (.bind (.many _ forward_property) fun _ => .bind forward_skip fun _ => .pure _)
    (.bind (.discard forward_accept?) fun _ => .pure _)

theorem forward_segment : Forward Parse.segment :=
  .bind forward_skip fun _ => .bind forward_coordinate fun _ => .bind forward_skip fun _ =>
    .bind forward_coordinate fun _ => .pure _

theorem forward_gridSize : Forward Parse.gridSize :=
  .bind forward_accepts fun _ => .ite
    (.bind forward_measure fun _ => .bind .get fun _ => .ite
      (.bind (.discard forward_take) fun _ => .bind forward_measure fun _ => .pure _) (.pure _))
    (.pure _)

theorem forward_gridColor : Forward Parse.gridColor := by
  refine .bind forward_accepts fun _ => .ite (.bind forward_accept? fun o => ?_) (.pure _)
  cases o with
  | some t => exact .bind forward_takeWhile fun _ => .pure _
  | none => exact forward_identifier?

theorem forward_gridAlpha : Forward Parse.gridAlpha :=
  .bind forward_accepts fun _ => .ite (.bind forward_measure fun _ => .pure _) (.pure _)

theorem forward_placementOption : Forward Parse.placementOption :=
  .bind forward_acceptsBefore fun _ => .ite (.bind forward_coordinate fun _ => .pure _)
    (.bind forward_acceptsBefore fun _ => .ite (.bind forward_measure fun _ => .pure _)
      (.bind forward_acceptsBefore fun _ => .ite (.bind forward_measure fun _ => .pure _)
        (.bind (.discard forward_take) fun _ => .pure _)))

theorem forward_canvas : Forward Parse.canvas :=
  .bind (.discard forward_take) fun _ => .bind forward_measure fun _ => .bind forward_times fun _ =>
    .bind forward_measure fun _ => .bind forward_skip fun _ => .pure _

theorem forward_requiredCanvas : Forward Parse.requiredCanvas :=
  .bind forward_sees fun _ => .ite forward_canvas (.bind forward_complain fun _ => .pure _)

theorem forward_warnTrailing : Forward Parse.warnTrailing :=
  .bind forward_sees fun _ => .ite (.pure _) (of_run fun _ => ⟨(), _, rfl, .report .refl rfl⟩)

end

end FloorPlan
