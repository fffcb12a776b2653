import FloorPlan.Proofs.Grammar.Steps
import FloorPlan.Proofs.Token.Regular

/-! # Parsing steps that recognise phrases

A step goes on after an error, so it accepts by reporting none.  `Recognises p G F s` says that `p`
gives a result in state `s`, that it reports no error only after tokens that `G` describes, and
that it reports none, and stops at the same place, wherever `G` describes the tokens ahead and
`F` holds of what comes after them.  The condition `F` is needed where a phrase may end early: a
step takes what is optional whenever it is there.

The rules below follow the structure of phrases; `Recognises.bind` is sequence, `recogniser_many`
is repetition. -/

namespace FloorPlan

/-! ### States before the tokens of a source -/

/-- The kinds of the statements that are reserved for drawings in several files. -/
def reservedKinds : List Kind := [.importWord, .exportWord, .useWord]

/-- The next token has the text of the mark between two sizes. -/
def NextTimes (ts : List Token) : Prop := ∃ t us, ts = t :: us ∧ Parse.isTimes t = true

/-- Only words and strings look like the mark between two sizes. -/
theorem not_nextTimes {ts : List Token} (hts : ∀ t ∈ ts, Regular t.pair)
    (h : nextKind ts ∉ [Kind.xWord, .identifier, .string]) : ¬ NextTimes ts := by
  rintro ⟨t, us, rfl, ht⟩
  have hx : t.value = "x" ∨ t.value = "X" := by simpa [Parse.isTimes] using ht
  exact h ((hts t (by simp)).spelled hx)

namespace Parser

/-- The parser drops no token of a source but the ending one. -/
theorem ofTokens_regular {body : List Token} (h : ∀ t ∈ body, Regular t.pair) (p : Position) :
    ofTokens (body ++ [Token.ending p]) = ⟨[], body, Token.ending p, 0, [], rfl⟩ := by
  have hcounts : ∀ t ∈ body ++ [Token.ending p], counts t = true := by
    intro t ht
    rcases List.mem_append.mp ht with ht | ht
    · have hp := (h t ht).proper
      simp only [Token.pair, List.mem_cons, not_or] at hp
      simp [counts, hp.1, hp.2.1]
    · rw [List.mem_singleton.mp ht]
      rfl
  unfold ofTokens
  rw [List.filter_eq_self.mpr hcounts]
  simp [Token.ending]

/-- The parser stands before tokens of a source. -/
structure Steady (s : Parser) : Prop where
  shift : s.shift = 0
  ending : s.ending.value = ""
  regular : ∀ t ∈ s.rest, Regular t.pair

/-- The parser stands before tokens of a source without reserved statements. -/
structure Ready (s : Parser) : Prop extends Steady s where
  unreserved : ∀ t ∈ s.rest, t.kind ∉ reservedKinds

/-- The state `s'` is further on among the same tokens. -/
structure Onward (s s' : Parser) : Prop where
  suffix : s'.rest <:+ s.rest
  shift : s'.shift = s.shift
  ending : s'.ending = s.ending

namespace Onward

variable {s s' s'' : Parser}

theorem refl (s : Parser) : s.Onward s := ⟨List.suffix_refl _, rfl, rfl⟩

theorem trans (h : s.Onward s') (h' : s'.Onward s'') : s.Onward s'' :=
  ⟨h'.suffix.trans h.suffix, h'.shift.trans h.shift, h'.ending.trans h.ending⟩

theorem move (s : Parser) (n : Nat) : s.Onward (s.move n) := ⟨List.drop_suffix n _, rfl, rfl⟩

theorem report (s : Parser) (d : Diagnostic) : s.Onward (s.report d) :=
  ⟨List.suffix_refl _, rfl, rfl⟩

theorem steady (h : s.Onward s') (hs : s.Steady) : s'.Steady :=
  ⟨h.shift.trans hs.shift, h.ending ▸ hs.ending, fun t ht => hs.regular t (h.suffix.subset ht)⟩

theorem ready (h : s.Onward s') (hs : s.Ready) : s'.Ready :=
  ⟨h.steady hs.toSteady, fun t ht => hs.unreserved t (h.suffix.subset ht)⟩

end Onward

theorem Steady.move {s : Parser} (hs : s.Steady) (n : Nat) : (s.move n).Steady :=
  (Onward.move s n).steady hs

/-- The mark between two sizes is seen where it stands next. -/
theorem Steady.isTimes_iff {s : Parser} (hs : s.Steady) :
    Parse.isTimes s.current = true ↔ NextTimes s.rest := by
  cases hr : s.rest with
  | nil =>
      have hcur : s.current = s.ending := by simp [current, hr]
      rw [hcur, Parse.isTimes, hs.ending]
      constructor
      · intro h
        exact absurd h (by decide)
      · rintro ⟨t, us, h, -⟩
        cases h
  | cons t ts =>
      rw [current_of_rest hr]
      constructor
      · exact fun h => ⟨t, ts, rfl, h⟩
      · rintro ⟨u, us, he, h⟩
        obtain ⟨rfl, -⟩ := List.cons.inj he
        exact h

theorem Ready.nextKind_notMem {s : Parser} (hs : s.Ready) : nextKind s.rest ∉ reservedKinds := by
  cases hr : s.rest with
  | nil => decide
  | cons t ts => exact hs.unreserved t (by simp [hr])

/-- The number of errors reported so far. -/
def faults (s : Parser) : Nat := s.messages.errors.length

@[simp] theorem faults_move (s : Parser) (n : Nat) : (s.move n).faults = s.faults := rfl

theorem faults_report {d : Diagnostic} (h : d.isError = true) (s : Parser) :
    (s.report d).faults = s.faults + 1 := by
  simp [faults, report, Diagnostics.errors, h]

theorem faults_warn {d : Diagnostic} (h : d.isError = false) (s : Parser) :
    (s.report d).faults = s.faults := by
  simp [faults, report, Diagnostics.errors, h]

end Parser

/-! ### Recognition -/

/-- No condition on what comes after a phrase. -/
def anywhere (_ : List Token) : Prop := True

/-- How a step that recognises `G` goes from state `s` to state `s'`. -/
structure Recognised (G : Phrase) (F : List Token → Prop) (s s' : Parser) : Prop where
  onward : s.Onward s'
  faults_le : s.faults ≤ s'.faults
  sound : s'.faults = s.faults → Derives G s.rest s'.rest
  complete : ∀ rest, Derives G s.rest rest → F rest → s'.faults = s.faults ∧ s'.rest = rest

/-- The step `p` recognises `G` in state `s`. -/
def Recognises {α : Type} (p : Parse α) (G : Phrase) (F : List Token → Prop) (s : Parser) : Prop :=
  ∃ a s', p s = .ok a s' ∧ Recognised G F s s'

/-- The step `p` recognises `G` in every state before tokens of a source. -/
def Recogniser {α : Type} (p : Parse α) (G : Phrase) (F : List Token → Prop) : Prop :=
  ∀ s : Parser, s.Ready → Recognises p G F s

namespace Recognises

variable {α β : Type} {p : Parse α} {q : α → Parse β} {G H : Phrase} {Gs : List Phrase}
variable {F F₁ F₂ : List Token → Prop} {s s' : Parser} {a : α} {k : Kind} {ks : List Kind}

/-! ### Rules -/

/-- A step that moves over one token. -/
theorem taken {c : Token → Bool} {t : Token} {ts : List Token} (hp : p s = .ok a (s.move 1))
    (hr : s.rest = t :: ts) (hc : c t = true) : Recognises p (.token c) anywhere s := by
  refine ⟨a, _, hp, .move s 1, Nat.le_refl _, fun _ => ?_, ?_⟩
  · rw [Parser.move_rest, hr]
    exact .token hc
  · intro rest hd _
    obtain ⟨u, he, -⟩ := Derives.token_iff.mp hd
    rw [hr] at he
    obtain ⟨-, rfl⟩ := List.cons.inj he
    exact ⟨rfl, by simp [hr]⟩

/-- A step that changes nothing, where the phrase can only be empty. -/
theorem silent (hp : p s = .ok a s) (hs : Derives G s.rest s.rest)
    (hG : ∀ rest, Derives G s.rest rest → F rest → s.rest = rest) : Recognises p G F s :=
  ⟨a, s, hp, .refl s, Nat.le_refl _, fun _ => hs,
    fun rest hd hF => ⟨rfl, hG rest hd hF⟩⟩

/-- A step that reports an error where nothing can be derived. -/
theorem failed (hp : p s = .ok a s') (ho : s.Onward s') (hf : s.faults < s'.faults)
    (hG : ∀ rest, ¬ Derives G s.rest rest) : Recognises p G F s :=
  ⟨a, s', hp, ho, by omega, fun he => by omega, fun rest hd _ => absurd hd (hG rest)⟩

/-- A step recognises two phrases alike that derive the same from the tokens ahead. -/
theorem congr (h : Recognises p G F s) (hs : ∀ rest, Derives G s.rest rest → Derives H s.rest rest)
    (hc : ∀ rest, Derives H s.rest rest → F rest → Derives G s.rest rest) :
    Recognises p H F s := by
  obtain ⟨a, s', hp, h⟩ := h
  exact ⟨a, s', hp, h.onward, h.faults_le, fun he => hs _ (h.sound he),
    fun rest hd hF => h.complete rest (hc rest hd hF) hF⟩

theorem mono (h : Recognises p G F₁ s) (hF : ∀ rest, F₂ rest → F₁ rest) : Recognises p G F₂ s := by
  obtain ⟨a, s', hp, h⟩ := h
  exact ⟨a, s', hp, h.onward, h.faults_le, h.sound,
    fun rest hd hF' => h.complete rest hd (hF rest hF')⟩

theorem left (h : Recognises p G F s) (hH : ∀ rest, ¬ Derives H s.rest rest) :
    Recognises p (.alt G H) F s :=
  h.congr (fun _ hd => .left hd) fun rest hd _ => (Derives.alt_iff.mp hd).resolve_right (hH rest)

theorem right (h : Recognises p H F s) (hG : ∀ rest, ¬ Derives G s.rest rest) :
    Recognises p (.alt G H) F s :=
  h.congr (fun _ hd => .right hd) fun rest hd _ => (Derives.alt_iff.mp hd).resolve_left (hG rest)

/-- What is optional is taken where it is there; then it cannot be left out before what follows. -/
theorem present (h : Recognises p G F s) (hF : ¬ F s.rest) : Recognises p (.opt G) F s := by
  refine h.congr (fun _ hd => .left hd) fun rest hd hr => ?_
  rcases Derives.opt_iff.mp hd with hd | rfl
  · exact hd
  · exact absurd hr hF

theorem absent (hp : p s = .ok a s) (hG : ∀ rest, ¬ Derives G s.rest rest) :
    Recognises p (.opt G) F s := by
  refine .silent hp (by simp) fun rest hd _ => ?_
  exact (Derives.opt_iff.mp hd).resolve_left (hG rest)

/-- One step after another, in given states; what the second one starts with has to be allowed
after the first. -/
theorem chain (hp : p s = .ok a s') (h : Recognised G F₁ s s')
    (hq : Recognises (q a) (.all Gs) F₂ s')
    (hF : ∀ us rest, us <:+ s.rest → Derives (.all Gs) us rest → F₂ rest → F₁ us) :
    Recognises (p >>= q) (.all (G :: Gs)) F₂ s := by
  obtain ⟨b, s'', hq, h'⟩ := hq
  have hle := h.faults_le
  have hle' := h'.faults_le
  refine ⟨b, s'', by rw [Parse.bind_ok hp, hq], h.onward.trans h'.onward,
    Nat.le_trans hle hle', fun he => ?_, fun rest hd hF₂ => ?_⟩
  · exact Derives.all_cons_iff.mpr ⟨s'.rest, h.sound (by omega), h'.sound (by omega)⟩
  · obtain ⟨us, h₁, h₂⟩ := Derives.all_cons_iff.mp hd
    obtain ⟨he, rfl⟩ := h.complete us h₁ (hF us rest h₁.suffix h₂ hF₂)
    obtain ⟨he', hr⟩ := h'.complete rest h₂ hF₂
    exact ⟨he'.trans he, hr⟩

/-- One step after another, the first of which may stop anywhere. -/
theorem bind (hp : Recognises p G anywhere s) (hs : s.Ready)
    (hq : ∀ a, Recogniser (q a) (.all Gs) F) : Recognises (p >>= q) (.all (G :: Gs)) F s := by
  obtain ⟨a, s', hp, h⟩ := hp
  exact .chain hp h (hq a s' (h.onward.ready hs)) fun _ _ _ _ _ => trivial

/-- A step that changes nothing before another one. -/
theorem after (hp : p s = .ok a s) (hq : Recognises (q a) G F s) : Recognises (p >>= q) G F s := by
  obtain ⟨b, s', hq, h⟩ := hq
  exact ⟨b, s', by rw [Parse.bind_ok hp, hq], h⟩

/-- A step before one that changes nothing. -/
theorem before (hp : Recognises p G F s)
    (hq : ∀ a s', p s = .ok a s' → ∃ b, q a s' = .ok b s') : Recognises (p >>= q) G F s := by
  obtain ⟨a, s', hp, h⟩ := hp
  obtain ⟨b, hq⟩ := hq a s' hp
  exact ⟨b, s', by rw [Parse.bind_ok hp, hq], h⟩

theorem discard (h : Recognises p G F s) : Recognises (Functor.discard p) G F s := by
  obtain ⟨a, s', hp, h⟩ := h
  exact ⟨(), s', Parse.discard_ok hp, h⟩

end Recognises

namespace Recogniser

variable {α β : Type} {p : Parse α} {q : α → Parse β} {G : Phrase} {Gs : List Phrase}
variable {F F₁ F₂ : List Token → Prop}

theorem bind (hp : Recogniser p G anywhere) (hq : ∀ a, Recogniser (q a) (.all Gs) F) :
    Recogniser (p >>= q) (.all (G :: Gs)) F :=
  fun s hs => (hp s hs).bind hs hq

theorem single (h : Recogniser p G F) : Recogniser p (.all [G]) F :=
  fun s hs => (h s hs).congr (by simp) fun _ hd _ => by simpa using hd

/-- One step after another, where what the second one starts with is allowed after the first. -/
theorem bindBefore (hp : Recogniser p G F₁) (hq : ∀ a, Recogniser (q a) (.all Gs) F₂)
    (hF : ∀ us rest, (∀ t ∈ us, Regular t.pair) → Derives (.all Gs) us rest → F₂ rest → F₁ us) :
    Recogniser (p >>= q) (.all (G :: Gs)) F₂ := by
  intro s hs
  obtain ⟨a, s', hp, h⟩ := hp s hs
  refine .chain hp h (hq a s' (h.onward.ready hs)) fun us rest hu => ?_
  exact hF us rest fun t ht => hs.regular t (hu.subset ht)

end Recogniser

/-! ### Elementary steps -/

section

variable {α : Type} {F : List Token → Prop} {s : Parser} {k : Kind} {ks : List Kind}

theorem recogniser_pure (a : α) : Recogniser (pure a : Parse α) (.all []) F :=
  fun s _ => .silent (Parse.pure_run a s) (by simp) (by simp)

theorem recognises_take (h : nextKind s.rest = k) (hk : k ≠ .endOfInput) :
    Recognises Parse.take (.kind k) anywhere s := by
  obtain ⟨t, ts, hr, ht⟩ := eq_cons_of_nextKind h hk
  exact .taken (Parse.take_run s) hr (by simp [ht])

theorem recogniser_expect (hk : k ≠ .endOfInput) :
    Recogniser (Parse.expect k) (.kind k) anywhere := by
  intro s _
  by_cases h : nextKind s.rest = k
  · obtain ⟨t, ts, hr, ht⟩ := eq_cons_of_nextKind h hk
    exact .taken (Parse.expect_some h) hr (by simp [ht])
  · obtain ⟨d, hd, hp⟩ := Parse.expect_none h
    refine .failed hp (.report s d) (by simp [Parser.faults_report hd]) ?_
    intro rest hG
    obtain ⟨t, hr, ht⟩ := Derives.kind_iff.mp hG
    exact h (by simp [hr, ht])

theorem recogniser_skip (hk : k ≠ .endOfInput) :
    Recogniser (Parse.skip k) (.kind k) anywhere :=
  fun s hs => (recogniser_expect hk s hs).discard

theorem recogniser_expectValue (hk : k ≠ .endOfInput) :
    Recogniser (Parse.expectValue k) (.kind k) anywhere :=
  fun s hs => (recogniser_expect hk s hs).before fun _ _ _ => ⟨_, rfl⟩

/-- An optional token is taken whenever it is there. -/
theorem recogniser_accept? (hk : .endOfInput ∉ ks) :
    Recogniser (Parse.accept? ks) (.opt (.kinds ks)) (nextKind · ∉ ks) := by
  intro s _
  by_cases h : nextKind s.rest ∈ ks
  · obtain ⟨t, ts, hr, ht⟩ := eq_cons_of_nextKind rfl (fun he => hk (he ▸ h))
    have htaken : Recognises (Parse.accept? ks) (.kinds ks) anywhere s :=
      .taken (Parse.accept?_some h) hr (by simpa [ht] using h)
    exact (htaken.mono fun _ _ => trivial).present fun hF => hF h
  · refine .absent (Parse.accept?_none h) fun rest hd => ?_
    obtain ⟨t, hr, ht⟩ := Derives.kinds_iff.mp hd
    exact h (by simp [hr, ht])

/-- A run of tokens is taken up to the first token outside the class. -/
theorem recogniser_takeWhile {c p : Token → Bool} (h : ∀ t : Token, Regular t.pair → c t = p t) :
    Recogniser (Parse.takeWhile c) (.many (.token p)) (∀ t ∈ ·.head?, p t = false) := by
  intro s hs
  have hdrop : s.rest.drop (s.rest.takeWhile c).length = s.rest.dropWhile p :=
    Derives.drop_takeWhile fun t ht => h t (hs.regular t ht)
  refine ⟨_, _, Parse.takeWhile_run c s, .move s _, Nat.le_refl _, fun _ => ?_, ?_⟩
  · rw [Parser.move_rest, hdrop]
    exact Derives.dropWhile p s.rest
  · intro rest hd hF
    exact ⟨rfl, hdrop.trans (hd.eq_dropWhile hF).symm⟩

/-- A branch that is entered by a token of kind `k`. -/
theorem recognises_accepts {β : Type} {q : Bool → Parse β} {Gs : List Phrase}
    (h : nextKind s.rest = k) (hk : k ≠ .endOfInput) (hs : s.Ready)
    (hq : Recogniser (q true) (.all Gs) F) :
    Recognises (Parse.accepts [k] >>= q) (.all (.kind k :: Gs)) F s := by
  obtain ⟨t, ts, hr, ht⟩ := eq_cons_of_nextKind h hk
  have hp : Parse.accepts [k] s = .ok true (s.move 1) := Parse.accepts_true (by simp [h])
  obtain ⟨a, s', hp', h'⟩ : Recognises (Parse.accepts [k]) (.kind k) anywhere s :=
    .taken hp hr (by simp [ht])
  rw [hp] at hp'
  cases hp'
  exact .chain hp h' (hq _ ((Parser.Onward.move s 1).ready hs)) fun _ _ _ _ _ => trivial

/-- A part that is opened by a token of kind `k` and may be left out. -/
theorem recogniser_optional {β : Type} {q : Bool → Parse β} {Gs : List Phrase}
    (hk : k ≠ .endOfInput) (hq : Recogniser (q true) (.all Gs) F)
    (hn : ∀ s : Parser, ∃ b, q false s = .ok b s) (hF : ∀ ts, nextKind ts = k → ¬ F ts) :
    Recogniser (Parse.accepts [k] >>= q) (.opt (.all (.kind k :: Gs))) F := by
  intro s hs
  by_cases h : nextKind s.rest = k
  · exact (recognises_accepts h hk hs hq).present (hF _ h)
  · obtain ⟨b, hb⟩ := hn s
    have hp : (Parse.accepts [k] >>= q) s = .ok b s := by
      rw [Parse.bind_ok (Parse.accepts_false (by simpa using h)), hb]
    exact .absent hp fun rest hd => h hd.all_kind.1

/-- The rest of a production after its last token. -/
theorem recogniser_spanFrom {β : Type} (start : Position) (f : Span → β) :
    Recogniser (Parse.spanFrom start >>= fun span => pure (f span)) (.all []) F := by
  intro s hs
  obtain ⟨span, hp⟩ := Parse.spanFrom_ok hs.shift start
  exact .after hp (recogniser_pure _ s hs)

/-! ### Repetition -/

/-- A loop recognises a repetition, if each item takes a token and none starts with a stop. -/
theorem recogniser_many {item : Parse (Option α)} {stops : List Kind} {G : Phrase}
    (hitem : ∀ s : Parser, s.Ready → nextKind s.rest ∉ stops → Recognises item G F s)
    (hstart : ∀ ts rest, Derives G ts rest → nextKind ts ∉ stops ∧ rest.length < ts.length)
    (hF : ∀ ts, (nextKind ts ∈ stops ∨ ∃ rest, Derives G ts rest) → F ts) :
    Recogniser (Parse.many stops item) (.many G) (nextKind · ∈ stops) := by
  intro s hs
  generalize hm : s.rest.length = m
  induction m using Nat.strongRecOn generalizing s with
  | ind m ih =>
      by_cases hstop : nextKind s.rest ∈ stops
      · have hp : Parse.many stops item s = .ok [] s := by
          rw [Parse.many, if_pos (Parser.sees_iff.mpr hstop)]
        refine .silent hp .stop fun rest hd _ => ?_
        rcases Derives.many_iff.mp hd with he | ⟨us, h₁, -⟩
        · exact he
        · exact absurd hstop (hstart _ _ h₁).1
      · obtain ⟨a, s', hp, h⟩ := hitem s hs hstop
        -- a derivation of the whole loop starts with one of an item
        have hfirst : ∀ rest, Derives (.many G) s.rest rest → nextKind rest ∈ stops →
            s'.faults = s.faults ∧ Derives (.many G) s'.rest rest := by
          intro rest hd hr
          rcases Derives.many_iff.mp hd with rfl | ⟨us, h₁, h₂⟩
          · exact absurd hr hstop
          · have hFus : F us := by
              refine hF us ?_
              rcases Derives.many_iff.mp h₂ with rfl | ⟨vs, h₃, -⟩
              · exact .inl hr
              · exact .inr ⟨vs, h₃⟩
            obtain ⟨he, rfl⟩ := h.complete us h₁ hFus
            exact ⟨he, h₂⟩
        have hle := h.faults_le
        by_cases hlt : s'.rest.length < s.rest.length
        · obtain ⟨as, s'', hp', h'⟩ :=
            ih s'.rest.length (by omega) s' (h.onward.ready hs) rfl
          have hle' := h'.faults_le
          have hrun : Parse.many stops item s = .ok (a.toList ++ as) s'' := by
            rw [Parse.many, if_neg (fun he => hstop (Parser.sees_iff.mp he)), hp]
            simp [hlt, hp']
          refine ⟨_, s'', hrun, h.onward.trans h'.onward, Nat.le_trans hle hle', fun he => ?_, fun rest hd hr => ?_⟩
          · exact .more (h.sound (by omega)) (h'.sound (by omega))
          · obtain ⟨he, hd'⟩ := hfirst rest hd hr
            obtain ⟨he', hr'⟩ := h'.complete rest hd' hr
            exact ⟨he'.trans he, hr'⟩
        · have hrun : Parse.many stops item s = .ok a.toList s' := by
            rw [Parse.many, if_neg (fun he => hstop (Parser.sees_iff.mp he)), hp]
            simp [hlt]
          have hbad : s'.faults ≠ s.faults := fun he => hlt (hstart _ _ (h.sound he)).2
          exact ⟨_, s', hrun, h.onward, hle, fun he => absurd he hbad,
            fun rest hd hr => absurd (hfirst rest hd hr).1 hbad⟩

end

end FloorPlan
