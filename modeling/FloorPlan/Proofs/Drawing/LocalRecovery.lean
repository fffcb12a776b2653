import FloorPlan.Proofs.Drawing.Insertions

/-! # Recovery in the draw block is local

A token that starts no statement of the draw block is dropped with one error.  Any number of such
tokens behind the end of the canvas or of a statement changes nothing else: the statements around
them are read with the same places and the same problems, in a list that may have errors of its own
(`parse_insert_stray`).

Where nothing follows them, not even an ending token, the place where one is supplied moves, and
with it that of the error that the closing brace is missing. -/

namespace FloorPlan

open Drawing

namespace Token

/-- The token counts, and it neither starts a statement of the draw block nor ends the block. -/
def Stray (t : Token) : Prop :=
  t.kind ∉ [.roomWord, .wallWord, .doorWord, .atGrid, .useWord, .repeatWord, .rightBrace,
    .endOfInput, .blank, .comment]

instance (t : Token) : Decidable t.Stray := inferInstanceAs (Decidable (¬ _))

/-- The error that the token starts no statement of the draw block. -/
def unexpected (t : Token) : Diagnostic :=
  .error .grammar ("Unexpected token in draw body: " ++ t.kind.text) t.span none

theorem Stray.counts {t : Token} (h : t.Stray) : Parser.counts t = true := by
  simp only [Stray, List.mem_cons, not_or] at h
  simp [Parser.counts, h]

end Token

/-! ### Stray tokens -/

section

variable {s : Parser} {t : Token} {ts us : List Token}

/-- A stray token is dropped with an error. -/
theorem bodyItem_stray (h : t.Stray) (hr : s.rest = t :: us) :
    Parse.bodyItem s = .ok none ((s.move 1).report t.unexpected) := by
  have hcurrent := Parser.current_of_rest hr
  have hrun : Parse.bodyItem s = (do
      Parse.complain ("Unexpected token in draw body: " ++ t.kind.text) none
      discard Parse.take
      return none : Parse (Option BodyItem)) s := by
    unfold Parse.bodyItem
    rw [Parse.bind_ok (Parse.get_run s), hcurrent]
    simp only [Token.Stray, List.mem_cons, not_or] at h
    refine congrFun ?_ s
    split
    case h_7 => rfl
    all_goals simp_all
  rw [hrun, ← hcurrent]
  rfl

/-- What one token does, all of them do. -/
theorem turns_stray (h : ∀ t ∈ ts, t.Stray) (hs : s.shift = 0) (hr : s.rest = ts ++ us) :
    Turns blockStops Parse.bodyItem s [] ((s.move ts.length).extend (ts.map Token.unexpected)) := by
  induction ts generalizing s with
  | nil =>
      rw [List.length_nil, Parser.move_zero, List.map_nil, Parser.extend_nil]
      exact .refl s
  | cons t ts ih =>
      have ht := h t List.mem_cons_self
      have hsees : s.sees blockStops = false := by
        simp only [Token.Stray, List.mem_cons, not_or] at ht
        simp [Parser.sees, Parser.current_of_rest hr, blockStops, ht]
      have hrun := bodyItem_stray ht hr
      have hrest := ih (s := (s.move 1).report t.unexpected)
        (fun u hu => h u (List.mem_cons_of_mem t hu)) hs (by simp [hr])
      have hend : (((s.move 1).report t.unexpected).move ts.length).extend (ts.map Token.unexpected) =
          (s.move (t :: ts).length).extend ((t :: ts).map Token.unexpected) := by
        rw [List.length_cons, Nat.add_comm, ← Parser.move_move]
        simp [Parser.move, Parser.report, Parser.extend]
      rw [← hend]
      exact .step hsees hrun (by simp [hr]) hrest

end

/-! ### Where nothing follows -/

theorem ending_nil {s : Parser} (hs : s.shift = 0) (hr : s.rest = []) (start : Position) :
    Parse.ending start s = .ok (s.stretch start) (s.report (.missing .rightBrace s.ending)) := by
  have hcurrent : s.current = s.ending := by simp [Parser.current, hr]
  have hskip : Parse.skip .rightBrace s = .ok () (s.report (.missing .rightBrace s.ending)) :=
    hcurrent ▸ Parse.discard_ok (Parse.expect_missing (by simp [hr, nextKind]))
  have hsees : (s.report (.missing .rightBrace s.ending)).sees [.endOfInput] = true := by
    rw [Parser.sees_iff, Parser.report_rest, hr]
    exact List.mem_singleton.mpr rfl
  unfold Parse.ending Parse.warnTrailing
  rw [Parse.bind_ok hskip, Parse.bind_ok (Parse.spanFrom_run (s := s.report _) hs start)]
  rw [bind_assoc, Parse.bind_ok (Parse.sees_run _ _), hsees]
  rfl

/-- At the end of the tokens the closing brace is missing. -/
theorem blockRest_nil {s : Parser} (hs : s.shift = 0) (hr : s.rest = []) (start : Position)
    (p : Parts) : Parse.blockRest start p s =
      .ok (p.drawing (s.stretch start)) (s.report (.missing .rightBrace s.ending)) := by
  have hsees : s.sees blockStops = true := by
    rw [Parser.sees_iff, hr]
    exact List.mem_cons_of_mem _ List.mem_cons_self
  unfold Parse.blockRest
  rw [Parse.bind_ok (Parse.many_stop hsees), Parse.bind_ok (ending_nil hs hr start)]
  simp only [Parts.add_nil]
  rfl

theorem InBlock.parse_nil {ts : List Token} {p : Parts} {s : Parser}
    (h : InBlock (Parser.ofTokens ts) p s) (hr : s.rest = []) : ∃ span,
      parse ts = .ok ⟨p.drawing span,
        s.messages ++ [.missing .rightBrace (Parser.ofTokens ts).ending]⟩ := by
  have hs₀ := (Parser.ofTokens_start ts).2.2
  have hadv := h.advance hs₀
  refine ⟨s.stretch (Parser.ofTokens ts).current.start, ?_⟩
  unfold parse
  rw [h.drawing, blockRest_nil (hadv.shift hs₀) hr, hadv.onward.ending]
  rfl

/-! ### Local recovery -/

section

variable {before after junk : List Token} {p : Parts} {ds : Diagnostics}

theorem filter_stray (h : ∀ t ∈ junk, t.Stray) : junk.filter Parser.counts = junk :=
  List.filter_eq_self.mpr fun t ht => (h t ht).counts

theorem ofTokens_stray (h : ∀ t ∈ junk, t.Stray) (after : List Token) :
    (Parser.ofTokens (junk ++ after)).rest = junk ++ (Parser.ofTokens after).rest := by
  cases hlast : junk.getLast? with
  | none => rw [List.getLast?_eq_none_iff.mp hlast, List.nil_append, List.nil_append]
  | some t =>
      have ht := h t (List.mem_of_getLast? hlast)
      simp only [Token.Stray, List.mem_cons, not_or] at ht
      have hfilter := filter_stray h
      rw [Parser.ofTokens_rest (hfilter.symm ▸ hlast) ht.2.2.2.2.2.2.2.1, hfilter]

/-- At the end of a list without an ending token, stray tokens only move the place where one is
supplied. -/
theorem parse_stray_end (hpoint : MeetInBlock before after p ds)
    (hafter : after.any Parser.counts = false) (hjunk : ∀ t ∈ junk, t.Stray) :
    ∃ span span', parse (before ++ after) = .ok ⟨p.drawing span,
        ds ++ [.missing .rightBrace (Parser.ofTokens (before ++ after)).ending]⟩ ∧
      parse (before ++ (junk ++ after)) = .ok ⟨p.drawing span', ds ++ junk.map Token.unexpected ++
        [.missing .rightBrace (Parser.ofTokens (before ++ (junk ++ after))).ending]⟩ := by
  obtain ⟨s, hin, rfl, hrest⟩ := hpoint.go
  obtain ⟨s', hin', hmessages', hrest'⟩ := (hpoint.meet (junk ++ after)).go
  rw [Parser.ofTokens_blank hafter] at hrest
  rw [ofTokens_stray hjunk after, Parser.ofTokens_blank hafter] at hrest'
  have hs₀' := (Parser.ofTokens_start (before ++ (junk ++ after))).2.2
  have hin₁ := hin'.turns (turns_stray hjunk ((hin'.advance hs₀').shift hs₀') hrest')
  have hrest₁ : ((s'.move junk.length).extend (junk.map Token.unexpected)).rest = [] := by
    show s'.rest.drop junk.length = []
    rw [hrest', List.drop_left]
  obtain ⟨span, hparse⟩ := hin.parse_nil hrest
  obtain ⟨span', hparse'⟩ := hin₁.parse_nil hrest₁
  refine ⟨span, span', hparse, ?_⟩
  rw [hparse', Parts.add_nil, ← hmessages']
  rfl

/-- **Recovery in the draw block is local**: where stray tokens are put in behind the end of the
canvas or of a statement, the parse ends with the same fault, or it gives the same drawing but for
the stretch of the whole, and one more error for each of these tokens.  If nothing follows them, the
error that the closing brace is missing stands at the ending token that is supplied. -/
theorem parse_insert_stray (hpoint : MeetInBlock before after p ds) (hjunk : ∀ t ∈ junk, t.Stray) :
    (∃ f, parse (before ++ after) = .error f ∧ parse (before ++ (junk ++ after)) = .error f) ∨
    ∃ parsed span late late', parse (before ++ after) = .ok parsed ∧ parsed.messages = ds ++ late ∧
      parse (before ++ (junk ++ after)) =
        .ok ⟨{ parsed.drawing with span }, ds ++ junk.map Token.unexpected ++ late'⟩ ∧
      if after.any Parser.counts then late' = late
      else late = [.missing .rightBrace (Parser.ofTokens (before ++ after)).ending] ∧
        late' = [.missing .rightBrace (Parser.ofTokens (before ++ (junk ++ after))).ending] := by
  cases hafter : after.any Parser.counts with
  | true =>
      have hmid : ReadAs blockStops Parse.bodyItem junk after [] (junk.map Token.unexpected) := by
        have hr := ofTokens_stray hjunk after
        refine ⟨_, turns_stray hjunk (Parser.ofTokens_start _).2.2 hr, ?_, ?_⟩
        · show (Parser.ofTokens (junk ++ after)).rest.drop junk.length = _
          rw [hr, List.drop_left]
        · show (Parser.ofTokens (junk ++ after)).messages ++ _ = _
          rw [(Parser.ofTokens_start _).2.1, List.nil_append]
      rcases parse_insert_block hpoint hafter hmid with
        hfault | ⟨body, span, span', late, hparse, hparse'⟩
      · exact .inl hfault
      · exact .inr ⟨_, span', late, late, hparse, rfl, hparse', rfl⟩
  | false =>
      obtain ⟨span, span', hparse, hparse'⟩ := parse_stray_end hpoint hafter hjunk
      exact .inr ⟨_, span', _, _, hparse, rfl, hparse', rfl, rfl⟩

end

/-- The end of a drawing. -/
def closeSketch : List Token := [inLine .rightBrace Text.rightBrace 30, .ending ⟨1, 31, 30⟩]

/-- Two words that start no statement. -/
def strayWords : List Token := [inLine .identifier "foo" 24, inLine .atDraw "@draw" 27]

theorem parse_insert_stray_sketch :
    (∀ t ∈ strayWords, t.Stray) ∧ ∃ p, MeetInBlock openSketch closeSketch p [] ∧
      ∃ parsed span, parse (openSketch ++ closeSketch) = .ok parsed ∧
        parse (openSketch ++ (strayWords ++ closeSketch)) =
          .ok ⟨{ parsed.drawing with span }, strayWords.map Token.unexpected ++ parsed.messages⟩ := by
  have hjunk : ∀ t ∈ strayWords, t.Stray := by decide
  obtain ⟨p, hpoint⟩ := openSketch_meets closeSketch
  refine ⟨hjunk, p, hpoint, ?_⟩
  rcases parse_insert_stray hpoint hjunk with
    ⟨f, hfault, -⟩ | ⟨parsed, span, late, late', hparse, hmessages, hparse', hlate⟩
  · have hsome : (parse (openSketch ++ closeSketch)).toOption.isSome = true := by decide +kernel
    simp [hfault, Except.toOption] at hsome
  · have hafter : closeSketch.any Parser.counts = true := by decide
    rw [if_pos hafter] at hlate
    refine ⟨parsed, span, hparse, ?_⟩
    rw [hparse', hlate, hmessages, List.nil_append, List.nil_append]

/-- Stray tokens may move a later error: without an ending token, one is supplied behind them. -/
theorem not_parse_insert_stray :
    ¬ ∀ (before junk after : List Token) (p : Parts) (ds : Diagnostics),
      MeetInBlock before after p ds → (∀ t ∈ junk, t.Stray) →
      (∃ f, parse (before ++ after) = .error f ∧ parse (before ++ (junk ++ after)) = .error f) ∨
      ∃ parsed span late, parse (before ++ after) = .ok parsed ∧ parsed.messages = ds ++ late ∧
        parse (before ++ (junk ++ after)) =
          .ok ⟨{ parsed.drawing with span }, ds ++ junk.map Token.unexpected ++ late⟩ := by
  intro hall
  have hmoved : (parse (openSketch ++ [])).toOption.isSome = true ∧
      (parse (openSketch ++ (strayWords ++ []))).toOption.map (·.messages) ≠
        (parse (openSketch ++ [])).toOption.map fun q =>
          strayWords.map Token.unexpected ++ q.messages := by
    decide +kernel
  obtain ⟨p, hpoint⟩ := openSketch_meets []
  rcases hall openSketch strayWords [] p [] hpoint (by decide) with
    ⟨f, hfault, -⟩ | ⟨parsed, span, late, hparse, hmessages, hparse'⟩
  · rw [hfault] at hmoved
    cases hmoved.1
  · apply hmoved.2
    rw [hparse, hparse']
    simp [Except.toOption, hmessages]

end FloorPlan
