import FloorPlan.Proofs.Grammar.Fronts

/-! # Parsing does not look behind the token ahead

What a production does before it takes a token `e` does not depend on the tokens behind `e`.
`s.Upto e v v' s'` relates two states that differ only in what stands behind `e`, which is
`v` and `v'`, and in the ending token.  A `Blind` step, run from both, gives the same result and
reports the same problems as long as it leaves `e` ahead.  Only the name of a unit looks at two
tokens, of which the first is an identifier; so `e` must not be one. -/

namespace FloorPlan

namespace Parser

/-- The states have the same past and the same tokens ahead up to `e`, and then go on with `v` and
with `v'`. -/
structure Upto (s : Parser) (e : Token) (v v' : List Token) (s' : Parser) : Prop where
  shift : s.shift = 0
  shift' : s'.shift = 0
  past : s'.past = s.past
  messages : s'.messages = s.messages
  rest : ∃ u, s.rest = u ++ e :: v ∧ s'.rest = u ++ e :: v'

variable {e : Token} {v v' : List Token} {s s' : Parser}

namespace Upto

theorem current (h : s.Upto e v v' s') : s.current = s'.current := by
  obtain ⟨u, hr, hr'⟩ := h.rest
  unfold Parser.current
  rw [hr, hr']
  cases u <;> rfl

theorem sees (h : s.Upto e v v' s') (ks : List Kind) : s.sees ks = s'.sees ks := sees_congr h.current

/-- The states have as many tokens ahead before `e`. -/
theorem length (h : s.Upto e v v' s') : s.rest.length + v'.length = s'.rest.length + v.length := by
  obtain ⟨u, hr, hr'⟩ := h.rest
  rw [hr, hr']
  simp only [List.length_append, List.length_cons]
  omega

/-- A move that leaves `e` ahead stays before it. -/
theorem le_of_move {u : List Token} {n : Nat} (hr : s.rest = u ++ e :: v)
    (hn : v.length < (s.move n).rest.length) : n ≤ u.length := by
  rw [move_rest, hr] at hn
  simp only [List.length_drop, List.length_append, List.length_cons] at hn
  omega

theorem move (h : s.Upto e v v' s') {n : Nat} (hn : v.length < (s.move n).rest.length) :
    (s.move n).Upto e v v' (s'.move n) := by
  obtain ⟨u, hr, hr'⟩ := h.rest
  have hle := le_of_move hr hn
  refine ⟨h.shift, h.shift', ?_, h.messages, u.drop n, ?_, ?_⟩
  · show (s'.rest.take n).reverse ++ s'.past = (s.rest.take n).reverse ++ s.past
    rw [h.past, hr, hr', List.take_append_of_le_length hle, List.take_append_of_le_length hle]
  · rw [move_rest, hr, List.drop_append_of_le_length hle]
  · rw [move_rest, hr', List.drop_append_of_le_length hle]

theorem report (h : s.Upto e v v' s') (d : Diagnostic) : (s.report d).Upto e v v' (s'.report d) :=
  ⟨h.shift, h.shift', h.past, congrArg (· ++ [d]) h.messages, h.rest⟩

/-- Where `e` is ahead, the tokens behind it are those given. -/
theorem behind (h : s.Upto e v v' s') (hr : s.rest = e :: v) : s'.rest = e :: v' := by
  obtain ⟨u, hu, hu'⟩ := h.rest
  have hnil : u = [] := by
    have hlength := congrArg List.length (hu.symm.trans hr)
    simp only [List.length_append, List.length_cons] at hlength
    exact List.length_eq_zero_iff.mp (by omega)
  rw [hu', hnil, List.nil_append]

end Upto

/-- The state `s'` is `s` with other tokens ahead. -/
structure Instead (s : Parser) (ts : List Token) (s' : Parser) : Prop where
  shift : s.shift = 0
  shift' : s'.shift = 0
  past : s'.past = s.past
  messages : s'.messages = s.messages
  rest : s'.rest = ts

/-- States with other tokens behind `e`, which is the last one before those of `t`. -/
theorem Instead.upto {t : Parser} {w : List Token} (h : s.Instead (w ++ v') s')
    (hw : s.rest = w ++ t.rest) (he : e :: t.rest <:+ s.rest) : s.Upto e t.rest v' s' := by
  obtain ⟨u, hu⟩ := he
  have hwu : w = u ++ [e] := by
    rw [hw, ← List.singleton_append, ← List.append_assoc] at hu
    exact (List.append_cancel_right hu).symm
  refine ⟨h.shift, h.shift', h.past, h.messages, u, hu.symm, ?_⟩
  rw [h.rest, hwu, List.append_assoc, List.singleton_append]

/-- Behind `e` the states differ in the tokens ahead. -/
theorem Upto.instead (h : s.Upto e v v' s') (hr : s.rest = e :: v) :
    (s.move 1).Instead v' (s'.move 1) := by
  have hr' := h.behind hr
  refine ⟨h.shift, h.shift', ?_, h.messages, by simp [hr']⟩
  show (s'.rest.take 1).reverse ++ s'.past = (s.rest.take 1).reverse ++ s.past
  rw [hr, hr', h.past]
  rfl

end Parser

/-! ### Runs of single steps -/

/-- The problem that a token of kind `k` is missing before the token `t`. -/
def Diagnostic.missing (k : Kind) (t : Token) : Diagnostic :=
  .error .grammar ("Expected " ++ Text.quote k.text ++ ", got " ++ Text.quote t.kind.text) t.span none

namespace Parse

variable {s : Parser}

theorem expect_missing {k : Kind} (h : nextKind s.rest ≠ k) :
    expect k s = .ok none (s.report (.missing k s.current)) := by
  unfold expect
  rw [bind_ok (accept?_none (by simpa using h))]
  rfl

theorem number_some {x : Float} (h : nextKind s.rest = .number)
    (hx : Number.readFloat? s.current.value = some x) : number s = .ok x (s.move 1) := by
  unfold number
  rw [bind_ok (expect_some h)]
  simp only [numberValue, hx]
  rfl

theorem number_fault (h : nextKind s.rest = .number)
    (hx : Number.readFloat? s.current.value = none) :
    number s = .error (.badNumber s.current.value) (s.move 1) := by
  unfold number
  rw [bind_ok (expect_some h)]
  simp only [numberValue, hx]
  rfl

theorem number_missing (h : nextKind s.rest ≠ .number) :
    number s = .ok 0 (s.report (.missing .number s.current)) := by
  unfold number
  rw [bind_ok (expect_missing h)]
  rfl

theorem unitName_run (s : Parser) : unitName s =
    if s.sees [.identifier] && s.next.kind = .equals then .ok s.current.value (s.move 1)
    else .ok baseUnit s := by
  unfold unitName
  rw [bind_ok (get_run s), bind_ok (get_run s)]
  split <;> rfl

end Parse

/-! ### Tokens before a given one -/

section

variable {u v v' : List Token} {e : Token}

theorem statementWidth_upto {depth : Nat}
    (h : Parse.statementWidth depth (u ++ e :: v) ≤ u.length) :
    Parse.statementWidth depth (u ++ e :: v') = Parse.statementWidth depth (u ++ e :: v) := by
  induction u generalizing depth with
  | nil =>
      simp only [List.nil_append, statementWidth_cons, List.length_nil] at h ⊢
      cases hends : endsStatement depth e.kind with
      | true => rfl
      | false => simp [hends] at h
  | cons t u ih =>
      simp only [List.cons_append, statementWidth_cons, List.length_cons] at h ⊢
      cases hends : endsStatement depth t.kind with
      | true => rfl
      | false =>
          simp only [hends, Bool.false_eq_true, if_false] at h ⊢
          rw [ih (by omega)]

end

/-! ### Blind steps -/

/-- The step only goes forward, and it does not look behind the token ahead. -/
structure Blind {α : Type} (p : Parse α) : Prop extends Forward p where
  upto : ∀ {e v v' s s' a t}, e.kind ≠ .identifier → Parser.Upto s e v v' s' →
    p s = .ok a t → v.length < t.rest.length → ∃ t', p s' = .ok a t' ∧ Parser.Upto t e v v' t'

namespace Blind

variable {α β : Type}

theorem pure (a : α) : Blind (Pure.pure a : Parse α) := by
  refine ⟨.pure a, fun {e v v' s s' b t} _ h hrun _ => ?_⟩
  cases hrun
  exact ⟨s', rfl, h⟩

theorem bind {p : Parse α} {q : α → Parse β} (hp : Blind p) (hq : ∀ a, Blind (q a)) :
    Blind (p >>= q) := by
  refine ⟨hp.toForward.bind fun a => (hq a).toForward,
    fun {e v v' s s' b t} he h hrun ht => ?_⟩
  obtain ⟨a, s₁, hpa, hqa⟩ := Parse.bind_eq_ok.mp hrun
  have hshift := (hp.ok h.shift hpa).shift h.shift
  have hle := ((hq a).ok hshift hqa).onward.suffix.length_le
  obtain ⟨s₁', hpa', h₁⟩ := hp.upto he h hpa (by omega)
  obtain ⟨t', hqa', ht'⟩ := (hq a).upto he h₁ hqa ht
  exact ⟨t', by rw [Parse.bind_ok hpa', hqa'], ht'⟩

theorem look {f : Parser → Parse α} (hf : ∀ s, Blind (f s))
    (hcurrent : ∀ s s', s.current = s'.current → f s = f s') : Blind (get >>= f) := by
  refine ⟨.bind .get fun s => (hf s).toForward, fun {e v v' s s' a t} he h hrun ht => ?_⟩
  rw [Parse.bind_ok (Parse.get_run s)] at hrun
  obtain ⟨t', hrun', h'⟩ := (hf s).upto he h hrun ht
  refine ⟨t', ?_, h'⟩
  rw [Parse.bind_ok (Parse.get_run s'), ← hcurrent s s' h.current, hrun']

theorem take : Blind Parse.take := by
  refine ⟨forward_take, fun {e v v' s s' a t} _ h hrun ht => ?_⟩
  cases hrun
  exact ⟨s'.move 1, by rw [Parse.take_run, h.current], h.move ht⟩

theorem takeWhile (c : Token → Bool) : Blind (Parse.takeWhile c) := by
  refine ⟨forward_takeWhile, fun {e v v' s s' a t} _ h hrun ht => ?_⟩
  cases hrun
  obtain ⟨u, hr, hr'⟩ := h.rest
  have hsame : s'.rest.takeWhile c = s.rest.takeWhile c := by
    have hle := Parser.Upto.le_of_move hr ht
    rw [hr] at hle
    rw [hr, hr', takeWhile_upto hle]
  refine ⟨_, ?_, h.move ht⟩
  rw [Parse.takeWhile_run, hsame]

theorem report (d : Token → Diagnostic) (hd : ∀ t, (d t).span = some t.span) :
    Blind (modify fun s => s.report (d s.current)) := by
  refine ⟨(Made.report d hd).forward, fun {e v v' s s' a t} _ h hrun _ => ?_⟩
  cases hrun
  refine ⟨s'.report (d s.current), ?_, h.report _⟩
  rw [h.current]
  rfl

theorem statement : Blind (modify fun s => s.move (Parse.statementWidth 0 s.rest)) := by
  refine ⟨Made.statement.forward, fun {e v v' s s' a t} _ h hrun ht => ?_⟩
  cases hrun
  obtain ⟨u, hr, hr'⟩ := h.rest
  have hsame : Parse.statementWidth 0 s'.rest = Parse.statementWidth 0 s.rest := by
    have hle := Parser.Upto.le_of_move hr ht
    rw [hr] at hle
    rw [hr, hr', statementWidth_upto hle]
  refine ⟨_, ?_, h.move ht⟩
  rw [← hsame]
  rfl

theorem unitName : Blind Parse.unitName := by
  refine ⟨forward_unitName, fun {e v v' s s' a t} he h hrun ht => ?_⟩
  have htest : (s'.sees [.identifier] && s'.next.kind = .equals) =
      (s.sees [.identifier] && s.next.kind = .equals) := by
    rw [← h.sees]
    obtain ⟨u, hr, hr'⟩ := h.rest
    cases u with
    | nil =>
        -- the token ahead is `e`, which is no identifier
        have hsees : s.sees [.identifier] = false := by
          simp [Parser.sees, Parser.current_of_rest hr, he]
        rw [hsees, Bool.false_and, Bool.false_and]
    | cons x u =>
        have hnext : s'.next = s.next := by
          unfold Parser.next
          rw [hr, hr']
          cases u <;> rfl
        rw [hnext]
  rw [Parse.unitName_run] at hrun ⊢
  rw [htest, ← h.current]
  split at hrun
  · next hyes =>
      cases hrun
      exact ⟨_, if_pos hyes, h.move ht⟩
  · next hno =>
      cases hrun
      exact ⟨_, if_neg hno, h⟩

theorem number : Blind Parse.number := by
  refine ⟨forward_number, fun {e v v' s s' a t} he h hrun ht => ?_⟩
  have hkind : nextKind s'.rest = nextKind s.rest := by
    rw [← Parser.current_kind, ← Parser.current_kind, h.current]
  by_cases hk : nextKind s.rest = .number
  · cases hx : Number.readFloat? s.current.value with
    | none =>
        rw [Parse.number_fault hk hx] at hrun
        cases hrun
    | some x =>
        rw [Parse.number_some hk hx] at hrun
        cases hrun
        exact ⟨_, Parse.number_some (hkind.trans hk) (h.current ▸ hx), h.move ht⟩
  · rw [Parse.number_missing hk] at hrun
    cases hrun
    refine ⟨_, Parse.number_missing (hkind ▸ hk), ?_⟩
    rw [h.current]
    exact h.report _

theorem many {item : Parse (Option α)} (stops : List Kind) (hitem : Blind item) :
    Blind (Parse.many stops item) := by
  refine ⟨.many stops hitem.toForward, fun {e v v' s s' as t} he h hrun ht => ?_⟩
  -- by induction on the tokens ahead
  generalize hm : s.rest.length = m
  induction m using Nat.strongRecOn generalizing s s' as with
  | ind m ih =>
      have hlength := h.length
      rcases Parse.many_eq_ok hrun with ⟨hsees, rfl, rfl⟩ | ⟨hsees, o, s₁, hp, hround⟩
      · exact ⟨s', Parse.many_stop (h.sees stops ▸ hsees), h⟩
      · have hsees' : s'.sees stops = false := h.sees stops ▸ hsees
        have hshift := (hitem.ok h.shift hp).shift h.shift
        rcases hround with ⟨hlt, as', hmany, rfl⟩ | ⟨hlt, rfl, rfl⟩
        · have hle := ((Forward.many stops hitem.toForward).ok hshift hmany).onward.suffix.length_le
          obtain ⟨s₁', hp', h₁⟩ := hitem.upto he h hp (by omega)
          have hlength₁ := h₁.length
          obtain ⟨t', hmany', ht'⟩ := ih _ (by omega) h₁ hmany rfl
          refine ⟨t', ?_, ht'⟩
          rw [Parse.many_next hsees' hp' (by omega), hmany']
          rfl
        · obtain ⟨t', hp', h'⟩ := hitem.upto he h hp ht
          have hlength' := h'.length
          exact ⟨t', Parse.many_last hsees' hp' (by omega), h'⟩

theorem spanFrom (start : Position) : Blind (Parse.spanFrom start) := by
  refine ⟨forward_spanFrom start, fun {e v v' s s' a t} _ h hrun _ => ?_⟩
  rw [Parse.spanFrom_run h.shift] at hrun
  cases hrun
  refine ⟨s', ?_, h⟩
  rw [Parse.spanFrom_run h.shift', Parser.stretch, Parser.stretch, h.past]

end Blind

/-- Productions do not look behind the token ahead. -/
theorem Made.blind {α : Type} {p : Parse α} (h : Made p) : Blind p := by
  induction h with
  | pure a => exact .pure a
  | bind _ _ ihp ihq => exact ihp.bind ihq
  | look _ hcurrent ih => exact .look ih hcurrent
  | take => exact .take
  | takeWhile c => exact .takeWhile c
  | report d hd => exact .report d hd
  | statement => exact .statement
  | unitName => exact .unitName
  | number => exact .number
  | many stops _ ih => exact .many stops ih

/-! ### Statements and loops -/

section

variable {α : Type} {front : Parse (Option (Unclosed α))} {item : Parse (Option α)}
variable {stops : List Kind} {s s' t : Parser} {e : Token} {v v' : List Token} {as : List α}
variable {o : Option α}

theorem blind_closed (h : Front front) : Blind (Parse.closed front) := by
  refine .bind h.made.blind fun o => ?_
  cases o with
  | none => exact .pure none
  | some u =>
      exact .bind (Parse.made_closer _ _).blind fun _ => .bind (.spanFrom _) fun _ => .pure _

theorem Turns.upto (hitem : Blind item) (he : e.kind ≠ .identifier) (h : s.Upto e v v' s')
    (hturns : Turns stops item s as t) (ht : v.length < t.rest.length) :
    ∃ t', Turns stops item s' as t' ∧ t.Upto e v v' t' := by
  induction hturns generalizing s' with
  | refl s => exact ⟨s', .refl s', h⟩
  | @step s s₁ t o as hsees hrun hlt hturns ih =>
      have hshift := (hitem.ok h.shift hrun).shift h.shift
      have hle := (hturns.advance hitem.toForward hshift).onward.suffix.length_le
      obtain ⟨s₁', hrun', h₁⟩ := hitem.upto he h hrun (by omega)
      obtain ⟨t', hturns', ht'⟩ := ih h₁ ht
      have hlength := h.length
      have hlength₁ := h₁.length
      exact ⟨t', .step (h.sees stops ▸ hsees) hrun' (by omega) hturns', ht'⟩

/-- In the state `s` a statement is opened, and it is ended by the token `e`, behind which the
state is `t`. -/
def Ends (front : Parse (Option (Unclosed α))) (s : Parser) (o : Option α) (e : Token) (t : Parser) :
    Prop :=
  ∃ u s₁, front s = .ok (some u) s₁ ∧ s₁.rest = e :: t.rest ∧ e.kind = closerKind u.braced ∧
    t = s₁.move 1 ∧ o = u.finish (t.stretch u.start)

theorem Ends.kind_ne (h : Ends front s o e t) : e.kind ≠ .identifier := by
  obtain ⟨u, -, -, -, he, -⟩ := h
  exact he ▸ (closerKind_ne u.braced).1

/-- The end of a statement is the latest token taken. -/
theorem Ends.latest (h : Ends front s o e t) :
    t.past.head? = some e ∧ ∃ braced, e.kind = closerKind braced := by
  obtain ⟨u, s₁, -, hrest, he, rfl, -⟩ := h
  refine ⟨?_, u.braced, he⟩
  show ((s₁.rest.take 1).reverse ++ s₁.past).head? = some e
  rw [hrest]
  rfl

theorem Ends.suffix (hfront : Front front) (hs : s.shift = 0) (h : Ends front s o e t) :
    e :: t.rest <:+ s.rest := by
  obtain ⟨u, s₁, hrun, hrest, -⟩ := h
  exact hrest ▸ (hfront.made.forward.ok hs hrun).onward.suffix

theorem Ends.run (hfront : Front front) (hs : s.shift = 0) (h : Ends front s o e t) :
    Parse.closed front s = .ok o t ∧ t.rest.length < s.rest.length ∧ t.shift = 0 := by
  obtain ⟨u, s₁, hrun, hrest, he, rfl, rfl⟩ := h
  have hs₁ : s₁.shift = 0 := (hfront.made.forward.ok hs hrun).shift hs
  have hkind : nextKind s₁.rest = closerKind u.braced := by rw [hrest, ← he]; rfl
  have hlt := hfront.takes hs hrun
  refine ⟨?_, by rw [Parser.move_rest, List.length_drop]; omega, hs₁⟩
  unfold Parse.closed Parse.close
  rw [Parse.bind_ok hrun]
  simp only
  rw [Parse.bind_ok (Parse.closer_run hkind u.strict),
    Parse.bind_ok (Parse.spanFrom_run (s := s₁.move 1) hs₁ u.start)]
  rfl

/-- Where other tokens stand behind the end of a statement, all is the same up to that end. -/
theorem Ends.before {s₀ s₀' : Parser} {w : List Token} (hfront : Front front)
    (hends : Ends front s o e t) (hadv : s₀.Advance s) (hw : s₀.rest = w ++ t.rest)
    (hinstead : s₀.Instead (w ++ v') s₀') :
    s₀.Upto e t.rest v' s₀' ∧ t.rest.length < s.rest.length := by
  have hs := hadv.shift hinstead.shift
  exact ⟨hinstead.upto hw ((hends.suffix hfront hs).trans hadv.onward.suffix),
    (hends.run hfront hs).2.1⟩

/-- A statement is ended by `e` in the same way whatever stands behind `e`. -/
theorem Ends.upto (hfront : Front front) (h : s.Upto e t.rest v' s') (hends : Ends front s o e t) :
    ∃ t', Ends front s' o e t' ∧ t.Instead v' t' := by
  have hne := hends.kind_ne
  obtain ⟨u, s₁, hrun, hrest, he, ht, ho⟩ := hends
  obtain ⟨s₁', hrun', h₁⟩ := hfront.made.blind.upto hne h hrun (by simp [hrest])
  have hinstead := h₁.instead hrest
  rw [← ht] at hinstead
  refine ⟨s₁'.move 1, ⟨u, s₁', hrun', ?_, he, rfl, ?_⟩, hinstead⟩
  · rw [h₁.behind hrest, hinstead.rest]
  · rw [ho, Parser.stretch, Parser.stretch, hinstead.past]

end

end FloorPlan
