import FloorPlan.Proofs.Grammar.Placements

/-! # Where imports and exports end

An import or an export ends at the first semicolon outside the braces that it opens.  The draw
block, the end of input and a brace that closes an outer block end it before that, and are left
for what comes next (`reservedDecl_end`).

`FirstStop ts j` says this of the tokens from the keyword on, by the braces among the first `j` of
them.  Skipping counts braces as it goes; its invariant is that the count is the `braceDepth` of
what was passed, so it finds the first stop (`firstStop_append`).  What an import or an export reads
before it skips holds no brace and no stop (`Within`), so the statement ends where skipping from its
keyword would end (`Finishes`). -/

namespace FloorPlan

/-! ### Stops -/

/-- The braces that are opened, less those that are closed. -/
def braceDepth (ts : List Token) : Int :=
  (ts.countP (·.kind = .leftBrace) : Int) - ts.countP (·.kind = .rightBrace)

theorem braceDepth_append (ts us : List Token) :
    braceDepth (ts ++ us) = braceDepth ts + braceDepth us := by
  simp only [braceDepth, List.countP_append]
  omega

/-- A statement does not go on over the token at index `j`: the draw block and the end of input stop
it at any depth, a semicolon and a closing brace outside the braces opened before them. -/
def StopsAt (ts : List Token) (j : Nat) : Prop :=
  ∃ t ∈ ts[j]?, t.kind ∈ [Kind.atDraw, .endOfInput] ∨
    t.kind ∈ [Kind.semicolon, .rightBrace] ∧ braceDepth (ts.take j) = 0

instance (ts : List Token) (j : Nat) : Decidable (StopsAt ts j) :=
  inferInstanceAs (Decidable (∃ t ∈ ts[j]?, _))

/-- The first token that a statement does not go over is at index `j`. -/
structure FirstStop (ts : List Token) (j : Nat) : Prop where
  stops : StopsAt ts j
  first : ∀ i < j, ¬ StopsAt ts i

/-- Where the statement at index `i` ends: past its first stop if that is a semicolon, and on it
otherwise. -/
inductive StatementEnd (ts : List Token) (i : Nat) : Nat → Prop
  | past {j : Nat} (stop : FirstStop (ts.drop i) j)
      (kind : nextKind (ts.drop (i + j)) = .semicolon) : StatementEnd ts i (i + j + 1)
  | on {j : Nat} (stop : FirstStop (ts.drop i) j)
      (kind : nextKind (ts.drop (i + j)) ≠ .semicolon) : StatementEnd ts i (i + j)

theorem FirstStop.unique {ts : List Token} {j k : Nat} (hj : FirstStop ts j)
    (hk : FirstStop ts k) : j = k := by
  rcases Nat.lt_trichotomy j k with hlt | heq | hgt
  · exact absurd hj.stops (hk.first j hlt)
  · exact heq
  · exact absurd hk.stops (hj.first k hgt)

/-- A statement ends at one index. -/
theorem StatementEnd.unique {ts : List Token} {i m n : Nat} (hm : StatementEnd ts i m)
    (hn : StatementEnd ts i n) : m = n := by
  cases hm with
  | past hj hkj =>
      cases hn with
      | past hk _ => rw [hj.unique hk]
      | on hk hkk => exact absurd (hj.unique hk ▸ hkj) hkk
  | on hj hkj =>
      cases hn with
      | past hk hkk => exact absurd (hj.unique hk ▸ hkk) hkj
      | on hk _ => rw [hj.unique hk]

/-! ### Skipping finds the first stop -/

section

variable {passed ts : List Token} {t e : Token} {depth : Nat}

theorem stopsAt_length : StopsAt (passed ++ t :: ts) passed.length ↔
    t.kind ∈ [Kind.atDraw, .endOfInput] ∨
      t.kind ∈ [Kind.semicolon, .rightBrace] ∧ braceDepth passed = 0 := by
  simp [StopsAt]

theorem endsStatement_iff (hdepth : braceDepth passed = depth) :
    endsStatement depth t.kind = true ↔ StopsAt (passed ++ t :: ts) passed.length := by
  rw [stopsAt_length, hdepth]
  unfold endsStatement
  cases t.kind <;> simp

/-- A closing brace that does not end the statement closes one of the braces counted. -/
theorem braceDepth_concat (hdepth : braceDepth passed = depth)
    (hgo : endsStatement depth t.kind = false) :
    braceDepth (passed ++ [t]) = depthAfter depth t.kind := by
  rw [braceDepth_append, hdepth]
  unfold endsStatement at hgo
  unfold depthAfter braceDepth
  cases hk : t.kind <;> simp [hk] at hgo ⊢
  omega

/-- Behind tokens that do not stop it, with their depth as its count, skipping goes on to the first
stop. -/
theorem firstStop_append (he : e.kind = .endOfInput) (hdepth : braceDepth passed = depth)
    (hpassed : ∀ i < passed.length, ¬ StopsAt (passed ++ (ts ++ [e])) i) :
    FirstStop (passed ++ (ts ++ [e])) (passed.length + Parse.statementWidth depth ts) := by
  -- by induction on the tokens ahead; one that is no stop joins those passed
  induction ts generalizing passed depth with
  | nil =>
      refine ⟨?_, hpassed⟩
      exact stopsAt_length.mpr (.inl (by simp [he]))
  | cons t ts ih =>
      rw [statementWidth_cons]
      cases hends : endsStatement depth t.kind with
      | true => exact ⟨(endsStatement_iff hdepth).mp hends, hpassed⟩
      | false =>
          have hgo : ¬ StopsAt (passed ++ (t :: ts ++ [e])) passed.length := by
            rw [List.cons_append, ← endsStatement_iff hdepth, hends]
            exact Bool.false_ne_true
          have hnext : ∀ i < (passed ++ [t]).length,
              ¬ StopsAt (passed ++ [t] ++ (ts ++ [e])) i := by
            intro i hi
            rw [List.append_assoc]
            rcases Nat.lt_succ_iff_lt_or_eq.mp (by simpa using hi) with hlt | rfl
            · exact hpassed i hlt
            · exact hgo
          have h := ih (braceDepth_concat hdepth hends) hnext
          simpa [Nat.add_assoc] using h

theorem firstStop_statementWidth (he : e.kind = .endOfInput) (ts : List Token) :
    FirstStop (ts ++ [e]) (Parse.statementWidth 0 ts) := by
  have h : FirstStop ([] ++ (ts ++ [e])) (0 + Parse.statementWidth 0 ts) :=
    firstStop_append he rfl fun i hi => absurd hi (Nat.not_lt_zero i)
  rwa [List.nil_append, Nat.zero_add] at h

end

/-! ### Skipping -/

/-- The number of tokens up to the end of a statement, its semicolon included. -/
def skippedWidth (ts : List Token) : Nat :=
  let w := Parse.statementWidth 0 ts
  if nextKind (ts.drop w) = .semicolon then w + 1 else w

theorem statementWidth_le_length (depth : Nat) (ts : List Token) :
    Parse.statementWidth depth ts ≤ ts.length := by
  induction ts generalizing depth with
  | nil => exact Nat.le_refl 0
  | cons t ts ih =>
      have hle := ih (depthAfter depth t.kind)
      rw [statementWidth_cons, List.length_cons]
      split <;> omega

theorem skippedWidth_le_length (ts : List Token) : skippedWidth ts ≤ ts.length := by
  have hle := statementWidth_le_length 0 ts
  unfold skippedWidth
  dsimp only
  split
  · next hk =>
      obtain ⟨t, us, hdrop, -⟩ := eq_cons_of_nextKind hk (by decide)
      have hlen := congrArg List.length hdrop
      simp only [List.length_drop, List.length_cons] at hlen
      omega
  · exact hle

theorem skipStatement_move (s : Parser) :
    Parse.skipStatement s = .ok () (s.move (skippedWidth s.rest)) := by
  rw [Parse.skipStatement_run]
  unfold skippedWidth
  by_cases hk : nextKind (s.rest.drop (Parse.statementWidth 0 s.rest)) = .semicolon
  · rw [Parse.discard_ok (Parse.accept?_some (by simp [hk])), Parser.move_move]
    simp only [if_pos hk]
  · rw [Parse.discard_ok (Parse.accept?_none (by simpa using hk))]
    simp only [if_neg hk]

/-- The ending token shows what the end of the list shows. -/
theorem nextKind_concat {e : Token} (he : e.kind = .endOfInput) (ts : List Token) :
    nextKind (ts ++ [e]) = nextKind ts := by
  cases ts with
  | nil => exact he
  | cons t ts => rfl

/-- Skipping from index `i` ends where the statement there ends. -/
theorem statementEnd_skippedWidth {e : Token} (he : e.kind = .endOfInput) {ts : List Token}
    {i : Nat} (hi : i ≤ ts.length) :
    StatementEnd (ts ++ [e]) i (i + skippedWidth (ts.drop i)) := by
  have hstop := firstStop_statementWidth he (ts.drop i)
  rw [← List.drop_append_of_le_length hi] at hstop
  have hle : i + Parse.statementWidth 0 (ts.drop i) ≤ ts.length := by
    have hwidth := statementWidth_le_length 0 (ts.drop i)
    rw [List.length_drop] at hwidth
    omega
  have hnext : nextKind ((ts ++ [e]).drop (i + Parse.statementWidth 0 (ts.drop i))) =
      nextKind ((ts.drop i).drop (Parse.statementWidth 0 (ts.drop i))) := by
    rw [List.drop_append_of_le_length hle, nextKind_concat he, List.drop_drop]
  unfold skippedWidth
  by_cases hk : nextKind ((ts.drop i).drop (Parse.statementWidth 0 (ts.drop i))) = .semicolon
  · simp only [if_pos hk]
    exact .past hstop (hnext.trans hk)
  · simp only [if_neg hk]
    exact .on hstop fun h => hk (hnext.symm.trans h)

/-! ### What is read before skipping -/

/-- Whether tokens of a kind have no part in where a statement ends. -/
def Kind.isIdle (k : Kind) : Bool :=
  k ∉ [Kind.semicolon, .leftBrace, .rightBrace, .atDraw, .endOfInput]

theorem passed_idle {k : Kind} (h : k.isIdle = true) (depth : Nat) :
    endsStatement depth k = false ∧ depthAfter depth k = depth := by
  revert h
  cases k <;> simp [Kind.isIdle, endsStatement, depthAfter]

theorem skippedWidth_idle {ts : List Token} (h : (nextKind ts).isIdle = true) :
    skippedWidth ts = 1 + skippedWidth (ts.drop 1) := by
  cases ts with
  | nil => cases h
  | cons t ts =>
      obtain ⟨hgo, hdepth⟩ := passed_idle h 0
      have hwidth : Parse.statementWidth 0 (t :: ts) = 1 + Parse.statementWidth 0 ts := by
        rw [statementWidth_cons, ← nextKind_cons t ts, hgo, hdepth]
        rfl
      have hdrop : (t :: ts).drop (1 + Parse.statementWidth 0 ts) =
          ts.drop (Parse.statementWidth 0 ts) := by
        rw [Nat.add_comm, List.drop_succ_cons]
      unfold skippedWidth
      simp only [hwidth, hdrop, List.drop_one, List.tail_cons]
      split <;> omega

/-- The step reports nothing, and takes only tokens that have no part in where a statement ends. -/
structure Within {α : Type} (p : Parse α) : Prop where
  run : ∀ s, ∃ a n, p s = .ok a (s.move n) ∧
    skippedWidth s.rest = n + skippedWidth (s.rest.drop n)

namespace Within

variable {α β : Type} {p : Parse α} {k l : Kind} {ks : List Kind}

theorem bind {q : α → Parse β} (hp : Within p) (hq : ∀ a, Within (q a)) : Within (p >>= q) := by
  constructor
  intro s
  obtain ⟨a, m, hpa, hm⟩ := hp.run s
  obtain ⟨b, n, hqb, hn⟩ := (hq a).run (s.move m)
  refine ⟨b, m + n, ?_, ?_⟩
  · rw [Parse.bind_ok hpa, hqb, Parser.move_move]
  · rw [Parser.move_rest, List.drop_drop] at hn
    rw [hm, hn, Nat.add_assoc]

theorem pure (a : α) : Within (Pure.pure a : Parse α) :=
  ⟨fun s => ⟨a, 0, rfl, by simp⟩⟩

theorem accept? (hks : ∀ k ∈ ks, k.isIdle = true) : Within (Parse.accept? ks) := by
  constructor
  intro s
  by_cases hk : nextKind s.rest ∈ ks
  · exact ⟨_, 1, Parse.accept?_some hk, skippedWidth_idle (hks _ hk)⟩
  · exact ⟨none, 0, Parse.accept?_none hk, by simp⟩

theorem accepts (hks : ∀ k ∈ ks, k.isIdle = true) : Within (Parse.accepts ks) :=
  (accept? hks).bind fun _ => .pure _

theorem identifier? : Within Parse.identifier? := (accept? (by decide)).bind fun _ => .pure _

theorem valueAfter (hk : k.isIdle = true) (hl : l.isIdle = true) :
    Within (Parse.valueAfter k l) := by
  constructor
  intro s
  unfold Parse.valueAfter
  by_cases hn : nextKind s.rest = k
  · rw [Parse.bind_ok (Parse.acceptsBefore_some hn)]
    have hone : skippedWidth s.rest = 1 + skippedWidth (s.rest.drop 1) :=
      skippedWidth_idle (hn ▸ hk)
    cases hsees : (s.move 1).sees [l] with
    | true =>
        have hnext : nextKind (s.rest.drop 1) = l := by simpa using Parser.sees_iff.mp hsees
        have htwo := skippedWidth_idle (hnext ▸ hl)
        refine ⟨some (s.move 1).current.value, 2, ?_, ?_⟩
        · rw [if_pos rfl, Parse.bind_ok (Parse.take_run _), Parser.move_move]
          rfl
        · rw [hone, htwo, List.drop_drop, ← Nat.add_assoc]
    | false => exact ⟨none, 1, rfl, hone⟩
  · rw [Parse.bind_ok (Parse.acceptsBefore_none hn)]
    exact ⟨none, 0, rfl, by simp⟩

end Within

/-- The step reports nothing, and leaves the parser where skipping would leave it. -/
structure Finishes {α : Type} (p : Parse α) : Prop where
  run : ∀ s, s.shift = 0 → ∃ a, p s = .ok a (s.move (skippedWidth s.rest))

namespace Finishes

variable {α β : Type}

/-- Skipping, and what the statement gives. -/
theorem skip (start : Position) (f : Span → α) : Finishes (do
    Parse.skipStatement
    return f (← Parse.spanFrom start)) := by
  constructor
  intro s hs
  have hspan := Parse.spanFrom_run (s := s.move (skippedWidth s.rest)) hs start
  exact ⟨_, (Parse.bind_ok (skipStatement_move s)).trans (Parse.bind_ok hspan)⟩

theorem before {p : Parse α} {q : α → Parse β} (hp : Within p) (hq : ∀ a, Finishes (q a)) :
    Finishes (p >>= q) := by
  constructor
  intro s hs
  obtain ⟨a, n, hpa, hn⟩ := hp.run s
  obtain ⟨b, hqb⟩ := (hq a).run (s.move n) hs
  refine ⟨b, ?_⟩
  rw [Parse.bind_ok hpa, hqb, Parser.move_rest, Parser.move_move, hn]

/-- A keyword in front is passed over. -/
theorem keyword {q : Token → Parse β} (hq : ∀ t, Finishes (q t)) {s : Parser} (hs : s.shift = 0)
    (hk : (nextKind s.rest).isIdle = true) :
    ∃ a, (Parse.take >>= q) s = .ok a (s.move (skippedWidth s.rest)) := by
  obtain ⟨a, hqa⟩ := (hq s.current).run (s.move 1) hs
  refine ⟨a, ?_⟩
  rw [Parse.bind_ok (Parse.take_run s), hqa, Parser.move_rest, Parser.move_move,
    skippedWidth_idle hk]

end Finishes

section

variable {s : Parser}

theorem importDecl_run (hs : s.shift = 0) (hk : nextKind s.rest = .importWord) :
    ∃ d, Parse.importDecl s = .ok d (s.move (skippedWidth s.rest)) :=
  Finishes.keyword (fun _ => .before .identifier? fun _ =>
    .before (.valueAfter rfl rfl) fun _ => .before (.valueAfter rfl rfl) fun _ =>
      .skip _ _) hs (hk ▸ rfl)

theorem exportDecl_run (hs : s.shift = 0) (hk : nextKind s.rest = .exportWord) :
    ∃ d, Parse.exportDecl s = .ok d (s.move (skippedWidth s.rest)) :=
  Finishes.keyword (fun _ => .before (.accepts (by decide)) fun _ => .before .identifier? fun _ =>
    .skip _ _) hs (hk ▸ rfl)

end

/-! ### Positions -/

namespace Parser

/-- A parser of the tokens at an index, with the problems found before. -/
def atIndex (ts : List Token) (i : Nat) (ds : Diagnostics) : Parser :=
  { (ofTokens ts).seek i with messages := ds }

variable {ts : List Token} {i n : Nat}

theorem ofTokens_tokens (ts : List Token) :
    (ofTokens ts).tokens = (ofTokens ts).rest ++ [(ofTokens ts).ending] := by
  obtain ⟨hpast, -, hshift⟩ := ofTokens_start ts
  rw [tokens_of_shift hshift, hpast]
  rfl

/-- Up to the ending token, the tokens before the index have been taken. -/
theorem atIndex_eq (hi : i ≤ (ofTokens ts).rest.length) (ds : Diagnostics) :
    atIndex ts i ds = { (ofTokens ts).move i with messages := ds } := by
  obtain ⟨hpast, -, hshift⟩ := ofTokens_start ts
  have hmin : min i (ofTokens ts).rest.length = i := Nat.min_eq_left hi
  simp [atIndex, seek, move, ofTokens_tokens, hpast, hshift, hmin]

theorem atIndex_shift (hi : i ≤ (ofTokens ts).rest.length) (ds : Diagnostics) :
    (atIndex ts i ds).shift = 0 := by
  rw [atIndex_eq hi]
  exact (ofTokens_start ts).2.2

theorem atIndex_rest (hi : i ≤ (ofTokens ts).rest.length) (ds : Diagnostics) :
    (atIndex ts i ds).rest = (ofTokens ts).rest.drop i := by
  rw [atIndex_eq hi]
  rfl

theorem atIndex_move (h : i + n ≤ (ofTokens ts).rest.length) (ds : Diagnostics) :
    (atIndex ts i ds).move n = atIndex ts (i + n) ds := by
  rw [atIndex_eq h, ← move_move, atIndex_eq (Nat.le_of_add_right_le h)]
  rfl

end Parser

/-! ### The ends of imports and exports -/

section

variable {ts : List Token} {i : Nat} {t : Token}

/-- A parser at the index of a token stands before it. -/
theorem nextKind_atIndex (ht : (Parser.ofTokens ts).tokens[i]? = some t)
    (hi : i ≤ (Parser.ofTokens ts).rest.length) (ds : Diagnostics) :
    nextKind (Parser.atIndex ts i ds).rest = t.kind := by
  have hhead : (((Parser.ofTokens ts).rest ++ [(Parser.ofTokens ts).ending]).drop i).head? =
      some t := by
    rw [List.head?_drop, ← Parser.ofTokens_tokens, ht]
  rw [Parser.atIndex_rest hi, ← nextKind_concat (Parser.ofTokens ts).ending_kind,
    ← List.drop_append_of_le_length hi, nextKind, hhead]
  rfl

/-- Skipping takes a parser at an index to another index. -/
theorem atIndex_skipped (hi : i ≤ (Parser.ofTokens ts).rest.length) (ds : Diagnostics) :
    (Parser.atIndex ts i ds).move (skippedWidth (Parser.atIndex ts i ds).rest) =
      Parser.atIndex ts (i + skippedWidth ((Parser.ofTokens ts).rest.drop i)) ds := by
  have hle := skippedWidth_le_length ((Parser.ofTokens ts).rest.drop i)
  rw [List.length_drop] at hle
  rw [Parser.atIndex_rest hi, Parser.atIndex_move (by omega)]

end

/-- **Where imports and exports end**: wherever such a declaration stands among the tokens and
whatever was found before, it is read without a complaint, and the parser is left at the one index
at which the statement ends. -/
theorem reservedDecl_end (ts : List Token) (i : Nat) (ds : Diagnostics) {t : Token}
    (ht : (Parser.ofTokens ts).tokens[i]? = some t) :
    ∃ n, (∀ m, StatementEnd (Parser.ofTokens ts).tokens i m ↔ m = n) ∧
      (t.kind = .importWord → ∃ d,
        Parse.importDecl (Parser.atIndex ts i ds) = .ok d (Parser.atIndex ts n ds)) ∧
      (t.kind = .exportWord → ∃ d,
        Parse.exportDecl (Parser.atIndex ts i ds) = .ok d (Parser.atIndex ts n ds)) := by
  have hlt := (List.getElem?_eq_some_iff.mp ht).1
  have hi : i ≤ (Parser.ofTokens ts).rest.length := by
    simpa [Parser.ofTokens_tokens, Nat.lt_succ_iff] using hlt
  have hend := statementEnd_skippedWidth (Parser.ofTokens ts).ending_kind hi
  rw [← Parser.ofTokens_tokens] at hend
  have hshift := Parser.atIndex_shift hi ds
  have hkind := nextKind_atIndex ht hi ds
  refine ⟨_, fun m => ⟨fun hm => hm.unique hend, fun hm => hm ▸ hend⟩, fun hk => ?_, fun hk => ?_⟩
  · obtain ⟨d, hd⟩ := importDecl_run hshift (hkind.trans hk)
    exact ⟨d, by rw [hd, atIndex_skipped hi]⟩
  · obtain ⟨d, hd⟩ := exportDecl_run hshift (hkind.trans hk)
    exact ⟨d, by rw [hd, atIndex_skipped hi]⟩

/-- An import with a semicolon in braces, and an export that the draw block cuts off inside an open
brace. -/
def bracedTokens : List Token :=
  [bareToken .importWord "import", bareToken .identifier "A", bareToken .leftBrace Text.leftBrace,
   bareToken .semicolon ";", bareToken .rightBrace Text.rightBrace, bareToken .semicolon ";",
   bareToken .exportWord "export", bareToken .leftBrace Text.leftBrace, bareToken .blank " ",
   bareToken .atDraw "@draw"]

theorem reservedDecl_end_braced :
    (Parser.ofTokens bracedTokens).tokens[0]? = some (bareToken .importWord "import") ∧
      (∃ d, Parse.importDecl (Parser.atIndex bracedTokens 0 []) =
        .ok d (Parser.atIndex bracedTokens 6 [])) ∧
    (Parser.ofTokens bracedTokens).tokens[6]? = some (bareToken .exportWord "export") ∧
      ∃ d, Parse.exportDecl (Parser.atIndex bracedTokens 6 []) =
        .ok d (Parser.atIndex bracedTokens 8 []) := by
  have hfirst : (Parser.ofTokens bracedTokens).tokens[0]? =
    some (bareToken .importWord "import") := by decide
  have hsecond : (Parser.ofTokens bracedTokens).tokens[6]? =
    some (bareToken .exportWord "export") := by decide
  obtain ⟨n, hn, himport, -⟩ := reservedDecl_end bracedTokens 0 [] hfirst
  obtain ⟨m, hm, -, hexport⟩ := reservedDecl_end bracedTokens 6 [] hsecond
  obtain rfl : 6 = n := (hn 6).mp (.past (j := 5) ⟨by decide, by decide⟩ (by decide))
  obtain rfl : 8 = m := (hm 8).mp (.on (j := 2) ⟨by decide, by decide⟩ (by decide))
  exact ⟨hfirst, himport rfl, hsecond, hexport rfl⟩

end FloorPlan
