import FloorPlan.Proofs.Drawing.Insertions

/-! # Tokens behind the draw block

The parse never looks behind the closing brace of the draw block.  Whatever stands there, the
drawing and the problems found before are the same, and there is one warning at the first token that
counts (`parse_trailing`). -/

namespace FloorPlan

/-- The warning that a token stands behind the draw block. -/
def Token.trailing (t : Token) : Diagnostic :=
  .warning .grammar "Content after the draw block is ignored" t.span

/-- The warning about tokens behind the draw block. -/
def trailingWarning : List Token → Diagnostics
  | [] => []
  | t :: _ => if t.kind = .endOfInput then [] else [t.trailing]

theorem trailingWarning_eq {ts : List Token} (h : ∀ t ∈ ts.head?, t.kind ≠ .endOfInput) :
    trailingWarning ts = (ts.head?.map Token.trailing).toList := by
  cases ts with
  | nil => rfl
  | cons t ts => exact if_neg (h t rfl)

theorem warnTrailing_run (s : Parser) :
    Parse.warnTrailing s = .ok () (s.extend (trailingWarning s.rest)) := by
  have hrun : ∀ ds, (s.sees [.endOfInput] = true ∧ ds = []) ∨
      (s.sees [.endOfInput] = false ∧ ds = [s.current.trailing]) →
      Parse.warnTrailing s = .ok () (s.extend ds) := by
    rintro ds (⟨hsees, rfl⟩ | ⟨hsees, rfl⟩) <;> unfold Parse.warnTrailing <;>
      rw [Parse.bind_ok (Parse.sees_run _ s), hsees]
    · rw [Parser.extend_nil]
      rfl
    · rfl
  apply hrun
  cases hr : s.rest with
  | nil => exact .inl ⟨by simp [Parser.sees_iff, hr, nextKind], rfl⟩
  | cons t ts =>
      have hcurrent := Parser.current_of_rest hr
      by_cases hk : t.kind = .endOfInput
      · exact .inl ⟨by simp [Parser.sees, hcurrent, hk], if_pos hk⟩
      · exact .inr ⟨by simp [Parser.sees, hcurrent, hk], by rw [hcurrent]; exact if_neg hk⟩

/-- A parse that gets to the closing brace of the draw block ends with it. -/
theorem InBlock.parse_brace {ts v : List Token} {p : Parts} {s : Parser} {brace : Token}
    (h : InBlock (Parser.ofTokens ts) p s) (hr : s.rest = brace :: v)
    (hkind : brace.kind = .rightBrace) :
    parse ts = .ok ⟨p.drawing ((s.move 1).stretch (Parser.ofTokens ts).current.start),
      s.messages ++ trailingWarning v⟩ := by
  have hs₀ := (Parser.ofTokens_start ts).2.2
  have hs : (s.move 1).shift = 0 := (h.advance hs₀).shift hs₀
  have hnext : nextKind s.rest = .rightBrace := by rw [hr, ← hkind]; rfl
  have hsees : s.sees blockStops = true := by
    rw [Parser.sees_iff, hnext]
    exact List.mem_cons_self
  have hskip : Parse.skip .rightBrace s = .ok () (s.move 1) :=
    Parse.discard_ok (Parse.expect_some hnext)
  have hmoved : (s.move 1).rest = v := by simp [hr]
  unfold parse
  rw [h.drawing, Parse.blockRest, Parse.bind_ok (Parse.many_stop hsees), Parse.ending, bind_assoc,
    Parse.bind_ok hskip, bind_assoc, Parse.bind_ok (Parse.spanFrom_run hs _), bind_assoc,
    Parse.bind_ok (warnTrailing_run _), hmoved]
  simp only [Parts.add_nil]
  rfl

section

variable {front tail : List Token} {eof eof' : Token}

/-- A list with an ending token at its end. -/
theorem Parser.ofTokens_ended (heof : eof.kind = .endOfInput) (ts : List Token) :
    Parser.ofTokens (ts ++ [eof]) = ⟨[], ts.filter Parser.counts, eof, 0, [], heof⟩ := by
  have hcounts : Parser.counts eof = true := by simp [Parser.counts, heof]
  have hfilter : (ts ++ [eof]).filter Parser.counts = ts.filter Parser.counts ++ [eof] := by
    rw [List.filter_append, List.filter_cons_of_pos hcounts, List.filter_nil]
  unfold Parser.ofTokens
  simp only [hfilter, List.getLast?_concat, dif_pos heof, List.dropLast_concat]

/-- The parse of the tokens and an ending token takes the last of the tokens that counts as the
closing brace of the draw block. -/
def EndsWithBlock (ts : List Token) (eof : Token) : Prop :=
  ∃ p s brace, InBlock (Parser.ofTokens (ts ++ [eof])) p s ∧ s.rest = [brace] ∧
    brace.kind = .rightBrace

/-- **What stands behind the draw block is ignored** with one warning at its first token: the
drawing and the problems found before are the same. -/
theorem parse_trailing (heof : eof.kind = .endOfInput) (heof' : eof'.kind = .endOfInput)
    (h : EndsWithBlock front eof)
    (htail : ∀ t ∈ (tail.filter Parser.counts).head?, t.kind ≠ .endOfInput) :
    ∃ parsed, parse (front ++ [eof]) = .ok parsed ∧
      parse (front ++ tail ++ [eof']) = .ok ⟨parsed.drawing,
        parsed.messages ++ ((tail.filter Parser.counts).head?.map Token.trailing).toList⟩ := by
  obtain ⟨p, s, brace, hin, hrest, hkind⟩ := h
  have hadv := hin.advance (Parser.ofTokens_start (front ++ [eof])).2.2
  have hinstead : (Parser.ofTokens (front ++ [eof])).Instead
      (front.filter Parser.counts ++ tail.filter Parser.counts)
      (Parser.ofTokens (front ++ tail ++ [eof'])) := by
    rw [Parser.ofTokens_ended heof, Parser.ofTokens_ended heof']
    exact ⟨rfl, rfl, rfl, rfl, List.filter_append ..⟩
  -- both lists are the same up to the closing brace, and so both parses get to it
  have hmoved : (s.move 1).rest = [] := by simp [hrest]
  have hupto := hinstead.upto (e := brace) (t := s.move 1)
    (by rw [Parser.ofTokens_ended heof, hmoved, List.append_nil])
    (by rw [hmoved, ← hrest]; exact hadv.onward.suffix)
  rw [hmoved] at hupto
  obtain ⟨s', hin', hs'⟩ := hin.upto (by simp [hkind]) hupto (by simp [hrest])
  have hstretch : ∀ start, (s'.move 1).stretch start = (s.move 1).stretch start := by
    intro start
    rw [Parser.stretch, Parser.stretch, (hs'.instead hrest).past]
  refine ⟨_, hin.parse_brace hrest hkind, ?_⟩
  rw [hin'.parse_brace (hs'.behind hrest) hkind, hstretch, hupto.current, hs'.messages,
    trailingWarning_eq htail]
  simp only [trailingWarning, List.append_nil]

/-- A number that cannot be read, behind a blank. -/
def trailingTokens : List Token := [inLine .blank " " 25, inLine .number "1x" 26]

theorem parse_trailing_sketch : ∃ parsed,
    parse (openSketch ++ [closingBrace] ++ [.ending ⟨1, 25, 24⟩]) = .ok parsed ∧
    parse (openSketch ++ [closingBrace] ++ trailingTokens ++ [.ending ⟨1, 28, 27⟩]) =
      .ok ⟨parsed.drawing, parsed.messages ++ [(inLine .number "1x" 26).trailing]⟩ := by
  obtain ⟨p, hmeets⟩ := openSketch_meets sketchEnd
  obtain ⟨s, hin, -, hrest⟩ := hmeets.go
  have hends : EndsWithBlock (openSketch ++ [closingBrace]) (.ending ⟨1, 25, 24⟩) := by
    refine ⟨p, s, closingBrace, ?_, hrest, rfl⟩
    rw [List.append_assoc]
    exact hin
  exact parse_trailing rfl rfl hends (by decide)

end

end FloorPlan
