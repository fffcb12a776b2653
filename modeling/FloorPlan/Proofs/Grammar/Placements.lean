import FloorPlan.Proofs.Grammar.Calls

/-! # Where placements end

A placement ends at the first semicolon, closing brace or end of input after its keyword, unless an
option word is still waiting for its argument there: that token is then passed over in place of the
argument, and the placement goes on behind it (`placement_terminator`).

Which word is waiting depends on the kinds of the tokens alone.  In one turn of the loop the words
`at`, `rotate` and `scale` are tried in this order, so a word waits until a later one takes its
place or any other token ends the turn (`waitingAfter`).  `placementRest q ts` is what is left of
`ts` where the options end, with the word of rank `q` waiting; a step of the loop does not change it
(`rest_placementOption`). -/

namespace FloorPlan

/-- The kinds at which the options of a placement end. -/
def placementEnds : List Kind := [.semicolon, .rightBrace, .endOfInput]

/-- The place of an option word in the order of trying; other tokens have none. -/
def optionRank : Kind → Nat
  | .atWord => 1
  | .rotateWord => 2
  | .scaleWord => 3
  | _ => 0

/-- The rank of the word that is waiting for its argument after a token, where the word of rank `q`
was waiting before it. -/
def waitingAfter (q : Nat) (k : Kind) : Nat := if q < optionRank k then optionRank k else 0

/-- What is left of the tokens where the options of a placement end. -/
def placementRest (q : Nat) : List Token → List Token
  | [] => []
  | t :: ts =>
    if q = 0 ∧ t.kind ∈ placementEnds then t :: ts else placementRest (waitingAfter q t.kind) ts

/-! ### Tokens that are passed over -/

section

variable {q : Nat} {t : Token} {ts body : List Token}

theorem placementRest_cons (h : q = 0 → t.kind ∉ placementEnds) :
    placementRest q (t :: ts) = placementRest (waitingAfter q t.kind) ts := by
  rw [placementRest, if_neg]
  rintro ⟨hq, hk⟩
  exact h hq hk

theorem placementRest_ends (h : nextKind ts ∈ placementEnds) : placementRest 0 ts = ts := by
  cases ts with
  | nil => rfl
  | cons t ts => exact if_pos ⟨rfl, h⟩

theorem placementRest_append (h : ∀ t ∈ body, t.kind ∉ placementEnds) :
    placementRest q (body ++ ts) =
      placementRest ((body.map Token.kind).foldl waitingAfter q) ts := by
  induction body generalizing q with
  | nil => rfl
  | cons t body ih =>
      rw [List.cons_append, placementRest_cons fun _ => h t (by simp)]
      exact ih fun u hu => h u (by simp [hu])

/-- Whether a kind neither ends a placement nor opens an option. -/
def Kind.isInner (k : Kind) : Bool := k ∉ placementEnds && optionRank k = 0

/-- The token after a waiting word is passed over like any other. -/
theorem placementRest_inner {ts : List Token} (h : (nextKind ts).isInner = true) (q : Nat) :
    placementRest q ts = placementRest 0 (ts.drop 1) := by
  cases ts with
  | nil => rfl
  | cons t ts =>
      obtain ⟨hends, hrank⟩ := Bool.and_eq_true_iff.mp h
      have hzero : optionRank t.kind = 0 := of_decide_eq_true hrank
      rw [placementRest_cons fun _ => of_decide_eq_true hends, waitingAfter, hzero,
        if_neg (Nat.not_lt_zero q)]
      rfl

end

/-! ### Steps -/

/-- The step takes only tokens that neither end a placement nor open an option. -/
structure Inner {α : Type} (p : Parse α) : Prop where
  rest : ∀ {s a s'}, p s = .ok a s' → placementRest 0 s.rest = placementRest 0 s'.rest

namespace Inner

variable {α β : Type} {k : Kind}

theorem bind {p : Parse α} {q : α → Parse β} (hp : Inner p) (hq : ∀ a, Inner (q a)) :
    Inner (p >>= q) := by
  constructor
  intro s b s' h
  obtain ⟨a, t, hpa, hqa⟩ := Parse.bind_eq_ok.mp h
  exact (hp.rest hpa).trans ((hq a).rest hqa)

theorem pure (a : α) : Inner (Pure.pure a : Parse α) := by
  constructor
  intro s b s' h
  cases h
  rfl

theorem expect (hk : k.isInner = true) : Inner (Parse.expect k) := by
  constructor
  intro s a s' h
  by_cases hn : nextKind s.rest = k
  · rw [Parse.expect_some hn] at h
    cases h
    exact placementRest_inner (hn ▸ hk) 0
  · obtain ⟨d, -, hp⟩ := Parse.expect_none hn
    rw [hp] at h
    cases h
    rfl

theorem skip (hk : k.isInner = true) : Inner (Parse.skip k) := (expect hk).bind fun _ => .pure ()

theorem identifier? : Inner Parse.identifier? := by
  constructor
  intro s a s' h
  by_cases hn : nextKind s.rest = .identifier
  · rw [Parse.identifier?_some hn] at h
    cases h
    exact placementRest_inner (hn ▸ rfl) 0
  · rw [Parse.identifier?_none hn] at h
    cases h
    rfl

theorem numberValue (t : Token) : Inner (Parse.numberValue t) := by
  constructor
  intro s a s' h
  cases hread : Number.readFloat? t.value with
  | none => simp [Parse.numberValue, hread, Parse.throw_run] at h
  | some x =>
      simp only [Parse.numberValue, hread, Parse.pure_run] at h
      cases h
      rfl

theorem number : Inner Parse.number := by
  refine (expect rfl).bind fun o => ?_
  cases o with
  | none => exact .pure _
  | some t => exact numberValue t

theorem measure : Inner Parse.measure := number.bind fun _ => identifier?.bind fun _ => .pure _

theorem coordinate : Inner Parse.coordinate :=
  (skip rfl).bind fun _ => measure.bind fun _ => (skip rfl).bind fun _ =>
    measure.bind fun _ => (skip rfl).bind fun _ => .pure _

/-- The part of the drawing that is placed. -/
theorem part : Inner (Parse.valueAfter .dot .identifier) := by
  constructor
  intro s a s' h
  unfold Parse.valueAfter at h
  by_cases hdot : nextKind s.rest = .dot
  · rw [Parse.bind_ok (Parse.acceptsBefore_some hdot)] at h
    rw [placementRest_inner (hdot ▸ rfl) 0]
    cases hsees : (s.move 1).sees [.identifier] with
    | true =>
        have hname : nextKind (s.rest.drop 1) = .identifier := by
          simpa using Parser.sees_iff.mp hsees
        rw [if_pos hsees] at h
        cases h
        exact placementRest_inner (hname ▸ rfl) 0
    | false =>
        rw [hsees] at h
        cases h
        rfl
  · rw [Parse.bind_ok (Parse.acceptsBefore_none hdot)] at h
    cases h
    rfl

end Inner

/-! ### Options -/

/-- In the middle of a turn, with the words up to rank `r` tried and the word of rank `q` waiting:
none of the words tried since is ahead. -/
structure Tried (r q : Nat) (ts : List Token) : Prop where
  le : q ≤ r
  open_of_zero : q = 0 → nextKind ts ∉ placementEnds
  absent : ∀ k, q < optionRank k → optionRank k ≤ r → nextKind ts ≠ k

section

variable {α : Type} {s s' : Parser} {r q : Nat} {w l : Kind} {ts : List Token}

/-- Trying a word: it gets its argument, or it is waiting, or it is not ahead. -/
theorem rest_acceptsBefore {a : α} {found : Parse α} {other : Parse α}
    (hw : optionRank w = r + 1) (hunique : ∀ k, optionRank k = r + 1 → k = w)
    (hl : l.isInner = true) (hfound : Inner found)
    (hother : ∀ {q s}, Tried (r + 1) q s.rest → other s = .ok a s' →
      placementRest q s.rest = placementRest 0 s'.rest)
    (hq : Tried r q s.rest)
    (h : (Parse.acceptsBefore w l >>= fun b => if b = true then found else other) s = .ok a s') :
    placementRest q s.rest = placementRest 0 s'.rest := by
  by_cases hk : nextKind s.rest = w
  · have hmove : placementRest q s.rest = placementRest (r + 1) (s.move 1).rest := by
      have hne : w ≠ .endOfInput := by
        rintro rfl
        exact absurd hw (Nat.succ_ne_zero r).symm
      obtain ⟨t, us, hr, ht⟩ := eq_cons_of_nextKind hk hne
      have hpass : q = 0 → t.kind ∉ placementEnds := by
        intro h0
        simpa [hr] using hq.open_of_zero h0
      have hwait : waitingAfter q t.kind = r + 1 := by
        have hlt := hq.le
        rw [waitingAfter, ht, hw, if_pos (by omega)]
      rw [Parser.move_rest, hr, placementRest_cons hpass, hwait, List.drop_one, List.tail_cons]
    rw [Parse.bind_ok (Parse.acceptsBefore_some hk)] at h
    rw [hmove]
    by_cases hsees : (s.move 1).sees [l] = true
    · rw [if_pos hsees] at h
      have hnext : nextKind (s.move 1).rest = l := by simpa using Parser.sees_iff.mp hsees
      rw [placementRest_inner (hnext ▸ hl), ← placementRest_inner (hnext ▸ hl) 0]
      exact hfound.rest h
    · rw [if_neg hsees] at h
      refine hother ⟨Nat.le_refl _, fun h0 => absurd h0 (Nat.succ_ne_zero r), fun k hlt hle => ?_⟩ h
      exact absurd hlt (by omega)
  · rw [Parse.bind_ok (Parse.acceptsBefore_none hk)] at h
    refine hother ⟨Nat.le_succ_of_le hq.le, hq.open_of_zero, fun k hlt hle => ?_⟩ h
    by_cases hrank : optionRank k = r + 1
    · rw [hunique k hrank]
      exact hk
    · exact hq.absent k hlt (by omega)

/-- At the end of a turn a token is passed over, whatever it is. -/
theorem rest_drop (hq : Tried 3 q ts) : placementRest q ts = placementRest 0 (ts.drop 1) := by
  cases ts with
  | nil => rfl
  | cons t ts =>
      have hwait : waitingAfter q t.kind = 0 := by
        refine if_neg fun hlt => hq.absent t.kind hlt ?_ rfl
        unfold optionRank
        split <;> omega
      rw [placementRest_cons hq.open_of_zero, hwait]
      rfl

/-- A turn of the loop does not change where the options end. -/
theorem rest_placementOption {o : Option PlacementOption} (hends : nextKind s.rest ∉ placementEnds)
    (h : Parse.placementOption s = .ok o s') :
    placementRest 0 s.rest = placementRest 0 s'.rest := by
  have hunique : ∀ {w}, optionRank w ≠ 0 → ∀ k, optionRank k = optionRank w → k = w := by
    intro w hw k hk
    cases w <;> first | exact absurd rfl hw | (cases k <;> first | rfl | cases hk)
  have hmeasure : ∀ f : Float → PlacementOption,
      Inner (Parse.measure >>= fun m => pure (some (f m.value))) :=
    fun f => Inner.measure.bind fun _ => .pure _
  have hstart : Tried 0 0 s.rest := ⟨Nat.le_refl 0, fun _ => hends, fun k hlt hle => by omega⟩
  refine rest_acceptsBefore rfl (hunique (w := .atWord) (by decide)) rfl
    (Inner.coordinate.bind fun _ => .pure _) (fun hq h => ?_) hstart h
  refine rest_acceptsBefore rfl (hunique (w := .rotateWord) (by decide)) rfl
    (hmeasure .rotate) (fun hq h => ?_) hq h
  refine rest_acceptsBefore rfl (hunique (w := .scaleWord) (by decide)) rfl
    (hmeasure .scale) (fun hq h => ?_) hq h
  cases h
  exact rest_drop hq

/-- The loop stops where the options end. -/
theorem rest_options {os : List PlacementOption} (hs : s.shift = 0)
    (h : Parse.many placementEnds Parse.placementOption s = .ok os s') :
    s'.rest = placementRest 0 s.rest := by
  generalize hm : s.rest.length = m
  induction m using Nat.strongRecOn generalizing s os with
  | ind m ih =>
      by_cases hends : nextKind s.rest ∈ placementEnds
      · rw [Parse.many, if_pos (Parser.sees_iff.mpr hends)] at h
        cases h
        exact (placementRest_ends hends).symm
      · rcases Parse.many_cases takes_placementOption.statement (by decide) hs h with
          ⟨hsees, -, -⟩ | ⟨t, ts, o, s₁, os', hr, hp, hadv, hmany, -⟩
        · exact absurd (Parser.sees_iff.mp hsees) hends
        · have hlt := hadv.length_lt (by simp [hr])
          rw [rest_placementOption hends hp]
          exact ih _ (by omega) ((Forward.ok forward_placementOption hs hp).shift hs) hmany rfl

end

/-! ### Placements -/

/-- What comes after a semicolon, if one is ahead. -/
def pastSemicolon (ts : List Token) : List Token :=
  if nextKind ts = .semicolon then ts.drop 1 else ts

/-- A placement ends where its options end, and takes the semicolon there. -/
theorem rest_placement {s s' : Parser} {p : Drawing.Placement} (hs : s.shift = 0)
    (h : Parse.placement s = .ok p s') :
    s'.rest = pastSemicolon (placementRest 0 (s.rest.drop 1)) := by
  obtain ⟨t, s₁, htake, h⟩ := Parse.bind_eq_ok.mp h
  cases htake
  obtain ⟨source, s₂, hsource, h⟩ := Parse.bind_eq_ok.mp h
  obtain ⟨part, s₃, hpart, h⟩ := Parse.bind_eq_ok.mp h
  obtain ⟨os, s₄, hoptions, h⟩ := Parse.bind_eq_ok.mp h
  obtain ⟨_, s₅, hsemicolon, h⟩ := Parse.bind_eq_ok.mp h
  obtain ⟨span, s₆, hspan, h⟩ := Parse.bind_eq_ok.mp h
  cases h
  have h₂ := Forward.ok forward_identifier? (s := s.move 1) hs hsource
  have h₃ := h₂.trans (Forward.ok forward_valueAfter (h₂.shift hs) hpart)
  have hrest : s₄.rest = placementRest 0 (s.rest.drop 1) :=
    calc s₄.rest = placementRest 0 s₃.rest := rest_options (h₃.shift hs) hoptions
      _ = placementRest 0 s₂.rest := (Inner.part.rest hpart).symm
      _ = placementRest 0 (s.move 1).rest := (Inner.identifier?.rest hsource).symm
  have h₄ := (Forward.many _ forward_placementOption).ok (h₃.shift hs) hoptions
  have h₅ := h₄.trans (Forward.ok (.discard forward_accept?) (h₄.shift (h₃.shift hs)) hsemicolon)
  rw [Parse.spanFrom_run (h₅.shift (h₃.shift hs))] at hspan
  cases hspan
  rw [← hrest, pastSemicolon]
  by_cases hk : nextKind s₄.rest = .semicolon
  · rw [Parse.discard_ok (Parse.accept?_some (by simp [hk]))] at hsemicolon
    cases hsemicolon
    rw [if_pos hk]
    rfl
  · rw [Parse.discard_ok (Parse.accept?_none (by simpa using hk))] at hsemicolon
    cases hsemicolon
    rw [if_neg hk]

/-! ### The terminator -/

/-- Whether a token ends a placement. -/
def endsPlacement (t : Token) : Bool := t.kind ∈ placementEnds

/-- What comes after the terminator of a statement: after its semicolon, or from the closing brace
or the end of input on. -/
def afterTerminator (ts : List Token) : List Token :=
  pastSemicolon (ts.dropWhile (!endsPlacement ·))

/-- The rank of the option word that is waiting for its argument at the terminator. -/
def waitingAtEnd (ts : List Token) : Nat :=
  ((ts.takeWhile (!endsPlacement ·)).map Token.kind).foldl waitingAfter 0

/-- An option word is waiting at the terminator, which is passed over in place of its argument. It
makes no difference if the next terminator follows at once and is no semicolon. -/
def Swallows (ts : List Token) : Prop :=
  waitingAtEnd ts ≠ 0 ∧ ∃ e us, ts.dropWhile (!endsPlacement ·) = e :: us ∧
    (e.kind = .semicolon → nextKind us ∉ [Kind.rightBrace, .endOfInput])

theorem placementRest_terminator (ts : List Token) :
    placementRest 0 ts = placementRest (waitingAtEnd ts) (ts.dropWhile (!endsPlacement ·)) := by
  have hbody : ∀ t ∈ ts.takeWhile (!endsPlacement ·), t.kind ∉ placementEnds := by
    intro t ht
    simpa [endsPlacement] using List.all_eq_true.mp List.all_takeWhile t ht
  conv => lhs; rw [← List.takeWhile_append_dropWhile (p := (!endsPlacement ·)) (l := ts)]
  exact placementRest_append hbody

section

variable {ts us : List Token} {e : Token}

theorem ends_of_dropWhile (h : ts.dropWhile (!endsPlacement ·) = e :: us) :
    e.kind ∈ placementEnds := by
  have hhead := List.head?_dropWhile_not (!endsPlacement ·) ts
  rw [h] at hhead
  simpa [endsPlacement] using hhead

/-- A waiting word takes the terminator for its argument. -/
theorem placementRest_swallow (hq : waitingAtEnd ts ≠ 0)
    (h : ts.dropWhile (!endsPlacement ·) = e :: us) : placementRest 0 ts = placementRest 0 us := by
  have hend : waitingAfter (waitingAtEnd ts) e.kind = 0 := by
    have hkind := ends_of_dropWhile h
    simp only [placementEnds, List.mem_cons, List.not_mem_nil, or_false] at hkind
    rcases hkind with hk | hk | hk <;> rw [waitingAfter, hk] <;> rfl
  rw [placementRest_terminator, h, placementRest_cons fun h0 => absurd h0 hq, hend]

theorem length_placementRest_le (q : Nat) (ts : List Token) :
    (placementRest q ts).length ≤ ts.length := by
  induction ts generalizing q with
  | nil => exact Nat.le_refl 0
  | cons t ts ih =>
      rw [placementRest]
      split
      · exact Nat.le_refl _
      · exact Nat.le_succ_of_le (ih _)

theorem length_pastSemicolon_le (ts : List Token) : (pastSemicolon ts).length ≤ ts.length := by
  unfold pastSemicolon
  split
  · simp
  · exact Nat.le_refl _

/-- A placement that goes on takes a token, unless a closing brace or the end stops it. -/
theorem length_pastSemicolon_lt (h : nextKind us ∉ [Kind.rightBrace, .endOfInput]) :
    (pastSemicolon (placementRest 0 us)).length < us.length := by
  cases us with
  | nil => exact absurd (by simp) h
  | cons t us =>
      by_cases hk : t.kind = .semicolon
      · rw [placementRest_ends (by simp [hk, placementEnds]), pastSemicolon, if_pos (by simp [hk])]
        simp
      · have hends : t.kind ∉ placementEnds := by
          simp only [nextKind_cons, List.mem_cons, List.not_mem_nil, or_false, not_or] at h
          simp [placementEnds, hk, h]
        rw [placementRest_cons fun _ => hends]
        have h₁ := length_pastSemicolon_le (placementRest (waitingAfter 0 t.kind) us)
        have h₂ := length_placementRest_le (waitingAfter 0 t.kind) us
        rw [List.length_cons]
        omega

/-- The options end at the terminator exactly if it is not swallowed. -/
theorem pastSemicolon_eq_iff (ts : List Token) :
    pastSemicolon (placementRest 0 ts) = afterTerminator ts ↔ ¬ Swallows ts := by
  unfold afterTerminator
  by_cases hq : waitingAtEnd ts = 0
  · have hstop : nextKind (ts.dropWhile (!endsPlacement ·)) ∈ placementEnds := by
      cases hd : ts.dropWhile (!endsPlacement ·) with
      | nil => decide
      | cons e us => exact ends_of_dropWhile hd
    rw [placementRest_terminator, hq, placementRest_ends hstop]
    exact iff_of_true rfl fun h => h.1 hq
  · cases hd : ts.dropWhile (!endsPlacement ·) with
    | nil =>
        rw [placementRest_terminator, hd]
        refine iff_of_true rfl fun h => ?_
        obtain ⟨-, e, us, he, -⟩ := h
        rw [hd] at he
        cases he
    | cons e us =>
        rw [placementRest_swallow hq hd]
        by_cases hk : e.kind = .semicolon
        · have hpast : pastSemicolon (e :: us) = us := if_pos hk
          rw [hpast]
          by_cases hnext : nextKind us ∈ [Kind.rightBrace, .endOfInput]
          · have hends : nextKind us ∈ placementEnds := List.mem_cons_of_mem _ hnext
            have hne : nextKind us ≠ .semicolon := by
              intro h
              rw [h] at hnext
              exact absurd hnext (by decide)
            rw [placementRest_ends hends, pastSemicolon, if_neg hne]
            refine iff_of_true rfl fun h => ?_
            obtain ⟨-, e', us', he, hlater⟩ := h
            rw [hd] at he
            cases he
            exact hlater hk hnext
          · refine iff_of_false (fun h => ?_) fun h => h ⟨hq, e, us, hd, fun _ => hnext⟩
            exact absurd (congrArg List.length h) (Nat.ne_of_lt (length_pastSemicolon_lt hnext))
        · have hpast : pastSemicolon (e :: us) = e :: us := if_neg hk
          rw [hpast]
          refine iff_of_false (fun h => ?_) fun h => h ⟨hq, e, us, hd, fun hk' => absurd hk' hk⟩
          have h₁ := length_pastSemicolon_le (placementRest 0 us)
          have h₂ := length_placementRest_le 0 us
          rw [h, List.length_cons] at h₁
          omega

end

/-- **Where a placement ends**: unless it faults at a number that cannot be read, it ends after its
terminator exactly if no option word swallows it; a placement that swallows its terminator goes on
as if it started behind it. -/
theorem placement_terminator {s : Parser} {t : Token} {ts : List Token} (hs : s.shift = 0)
    (hr : s.rest = t :: ts) :
    (∃ f s', Parse.placement s = .error f s' ∧ s.Misread f) ∨
    ∃ p s', Parse.placement s = .ok p s' ∧ (s'.rest = afterTerminator ts ↔ ¬ Swallows ts) ∧
      ∀ e us, waitingAtEnd ts ≠ 0 → ts.dropWhile (!endsPlacement ·) = e :: us →
        s'.rest = pastSemicolon (placementRest 0 us) := by
  cases h : Parse.placement s with
  | error f s' => exact .inl ⟨f, s', rfl, (Forward.error statement_placement.toForward hs h).2⟩
  | ok p s' =>
      have hrest := rest_placement hs h
      rw [hr, List.drop_one, List.tail_cons] at hrest
      refine .inr ⟨p, s', rfl, ?_, fun e us hq hd => ?_⟩
      · rw [hrest]
        exact pastSemicolon_eq_iff ts
      · rw [hrest, placementRest_swallow hq hd]

/-- A token without a place. -/
def bareToken (k : Kind) (value : String) : Token := ⟨k, value, .start, .start⟩

/-- A placement that ends in two option words, the second of which is taken for the argument of the
first. -/
def turnedPlacement : List Token :=
  [bareToken .useWord "use", bareToken .identifier "M", bareToken .rotateWord "rotate",
   bareToken .atWord "at", bareToken .semicolon ";", bareToken .roomWord "room"]

theorem placement_terminator_turned : ∃ p s',
    Parse.placement (Parser.ofTokens turnedPlacement) = .ok p s' ∧
      s'.rest = [bareToken .roomWord "room"] := by
  rcases placement_terminator (s := Parser.ofTokens turnedPlacement) rfl rfl with
    ⟨f, s', -, u, hu, hk, -⟩ | ⟨p, s', hrun, hends, -⟩
  · have hkinds : ∀ v ∈ (Parser.ofTokens turnedPlacement).rest, v.kind ≠ .number := by decide
    exact absurd hk (hkinds u hu)
  · exact ⟨p, s', hrun, hends.mpr fun h => h.1 (by decide)⟩

/-- A placement whose option word swallows the semicolon, and the word of the statement after it. -/
def openPlacement : List Token :=
  [bareToken .useWord "use", bareToken .atWord "at", bareToken .semicolon ";",
   bareToken .roomWord "room"]

/-- A drawing with such a placement and a room after it. -/
def swallowedRoom : String :=
  "@draw T" ++ Text.braced "@canvas 1 x 1;use M at;room a at(0,0)size(1,1);"

/-- A placement may go on after its terminator, and the room that follows is lost without a
complaint. -/
theorem not_placement_terminator :
    (¬ ∀ (s s' : Parser) (t : Token) (ts : List Token) (p : Drawing.Placement), s.shift = 0 →
      s.rest = t :: ts → t.kind = .useWord → Parse.placement s = .ok p s' →
        s'.rest = afterTerminator ts) ∧
    ((tokenize swallowedRoom).toOption.bind fun tokens =>
      (parse tokens).toOption.map fun parsed => (parsed.drawing.rooms, parsed.messages)) =
        some ([], []) := by
  constructor
  · intro hall
    cases h : Parse.placement (Parser.ofTokens openPlacement) with
    | error f s' =>
        obtain ⟨-, u, hu, hk, -⟩ := Forward.error statement_placement.toForward rfl h
        have hkinds : ∀ v ∈ (Parser.ofTokens openPlacement).rest, v.kind ≠ .number := by decide
        exact hkinds u hu hk
    | ok p s' =>
        have hends := hall _ s' _ _ p rfl rfl rfl h
        rw [rest_placement rfl h] at hends
        exact absurd hends (by decide)
  · decide +kernel

end FloorPlan
