import FloorPlan.Proofs.Compiler.Outcomes
import FloorPlan.Proofs.Drawing.Insertions
import FloorPlan.Proofs.Token.Seams

/-! # Reserved statements have no effect

Imports, exports and placements are read and kept, and nothing else comes of them.  A reserved
statement may be put into a source wherever a statement of its place could stand: the drawing gets
one more node there, and every output and every message stays as it was (`compile_reserved`).  Only
behind a token that opens no statement the text must not join the statement to that token. -/

namespace FloorPlan

open Drawing

/-! ### Reserved statements -/

/-- A reserved statement. -/
inductive Reserved where
  | imported (i : Import)
  | exported (e : Export)
  | placement (p : Placement)

namespace Reserved

/-- The words of a reserved statement. -/
inductive Prints : Reserved → List Word → Prop
  | imported (i : Import) : Prints (imported i) (TopItem.imported i).words
  | exported (e : Export) : Prints (exported e) (TopItem.exported e).words
  | placement {p : Placement} {ws : List Word}
      (h : Joined PlacementOption.Prints (placementOptions p) ws) :
      Prints (placement p) (.keyword .useWord :: .name p.source ::
        (optionWords (fun w => [.keyword .dot, .name w]) p.part ++ (ws ++ [.keyword .semicolon])))

/-- The statement may stand where the two lists of tokens meet, and `n` statements of its sort are
read before. -/
inductive Fits (ts us : List Token) : Reserved → Nat → Prop
  | imported {i : Import} {m : Option Module} {top : List TopItem} {ds : Diagnostics}
      (h : MeetInTop ts us m top ds) :
      Fits ts us (imported i) (top.filterMap TopItem.imported?).length
  | exported {e : Export} {m : Option Module} {top : List TopItem} {ds : Diagnostics}
      (h : MeetInTop ts us m top ds) :
      Fits ts us (exported e) (top.filterMap TopItem.exported?).length
  | placement {p : Placement} {q : Parts} {ds : Diagnostics} (h : MeetInBlock ts us q ds) :
      Fits ts us (placement p) (q.body.filterMap BodyItem.placement?).length

end Reserved

/-- The list with one more element behind its first `n`. -/
def insertAt {α : Type} (n : Nat) (a : α) (as : List α) : List α := as.take n ++ a :: as.drop n

theorem insertAt_length {α : Type} (a : α) (as bs : List α) :
    insertAt as.length a (as ++ bs) = as ++ a :: bs := by
  rw [insertAt, List.take_left, List.drop_left]

/-- The drawing with one more reserved statement, behind the first `n` of its sort. -/
def Drawing.withReserved (d : Drawing) (n : Nat) : Reserved → Drawing
  | .imported i => { d with imports := insertAt n i d.imports }
  | .exported e => { d with exports := insertAt n e d.exports }
  | .placement p => { d with placements := insertAt n p d.placements }

/-- The model does not show reserved statements. -/
theorem Drawing.core_withReserved (d : Drawing) (n : Nat) (r : Reserved) :
    (d.withReserved n r).core = d.core := by
  cases r <;> rfl

/-! ### Reading -/

/-- A statement that is read from its words is read before any tokens. -/
theorem Reads.readAs {α : Type} {item : Parse (Option α)} {stops : List Kind} {words : List Word}
    {e : α → α} {a : α} {ws us : List Token}
    (h : Reads item words anyKind fun o => o.map e = some (e a))
    (hopens : Opens words (· ∉ stops)) (hwords : WordTokens words ws)
    (hreg : ∀ t ∈ ws ++ us, Regular t.pair) (p : Position) :
    ∃ b, e b = e a ∧ ReadAs stops item ws (us ++ [Token.ending p]) [b] [] := by
  have hofTokens := Parser.ofTokens_regular (p := p) hreg
  have hus := Parser.ofTokens_regular (p := p) fun t ht => hreg t (List.mem_append_right ws ht)
  obtain ⟨t, ws', rfl, hstops⟩ := hopens ws hwords
  obtain ⟨o, hrun, ho⟩ := h ⟨[], (t :: ws') ++ us, Token.ending p, 0, [], rfl⟩ (t :: ws') us
    ⟨rfl, rfl, hreg⟩ rfl hwords trivial
  obtain ⟨b, rfl, hb⟩ := Option.map_eq_some_iff.mp ho
  refine ⟨b, hb, Parser.move ⟨[], (t :: ws') ++ us, Token.ending p, 0, [], rfl⟩ (t :: ws').length,
    ?_, ?_, rfl⟩
  · rw [← List.append_assoc, hofTokens]
    refine .single (o := some b) ?_ hrun ?_
    · simpa [Parser.sees, Parser.current] using hstops
    · rw [Parser.move_rest, List.length_drop, List.length_append, List.length_cons]
      omega
  · rw [hus]
    simp

section

variable {ts us ws : List Token} {words : List Word} {r : Reserved} {n : Nat} {p : Position}
variable {parsed : Parsed}

/-- A reserved statement ends with a semicolon. -/
theorem Reserved.Prints.last (h : r.Prints words) (hws : WordTokens words ws) :
    ∃ t, ws.getLast? = some t ∧ t.kind = .semicolon := by
  have hend : ∃ front, words = front ++ [.keyword .semicolon] := by
    cases h with
    | imported i =>
        refine ⟨.keyword .importWord :: .name i.name ::
          (optionWords (fun a => [.keyword .asWord, .name a]) i.localName ++
            optionWords (fun s => [.keyword .fromWord, .string s]) i.source), ?_⟩
        simp [TopItem.words]
    | exported e =>
        refine ⟨.keyword .exportWord ::
          ((if e.isDefault then [.keyword .defaultWord] else []) ++ [.name e.name]), ?_⟩
        simp [TopItem.words]
    | @placement p os _ =>
        refine ⟨.keyword .useWord :: .name p.source ::
          (optionWords (fun w => [.keyword .dot, .name w]) p.part ++ os), ?_⟩
        simp
  obtain ⟨front, rfl⟩ := hend
  obtain ⟨us, vs, rfl, -, hvs⟩ := WordTokens.append_iff.mp hws
  obtain ⟨t, rfl, ht, -⟩ := eq_singleton_of_pair hvs.single
  exact ⟨t, List.getLast?_concat, ht⟩

/-- Where a reserved statement may stand, the source does not end. -/
theorem Reserved.Fits.last (h : r.Fits ts us n) (hts : ts.filter Parser.counts = ts) :
    ∀ t ∈ ts.getLast?, t.kind ≠ .endOfInput := by
  intro t ht
  have hends : ∀ {t : Token}, (∃ braced, t.kind = closerKind braced) ∨ t.Foreign →
      t.kind ≠ .endOfInput := by
    rintro t (⟨braced, hkind⟩ | hforeign)
    · exact hkind ▸ (closerKind_ne braced).2
    · rintro hkind
      exact hforeign (by rw [hkind]; decide)
  cases h with
  | imported h => exact hends (h.last (hts.symm ▸ ht))
  | exported h => exact hends (h.last (hts.symm ▸ ht))
  | placement h =>
      obtain ⟨e, he, hkind⟩ := h.last
      rw [hts, ht, Option.some_inj] at he
      exact hends (.inl (he ▸ hkind))

/-- Tokens that the lexer gives count. -/
theorem counts_of_regular {t : Token} (h : Regular t.pair) : Parser.counts t = true := by
  have hproper := h.proper
  simp only [Token.pair, List.mem_cons, not_or] at hproper
  simp [Parser.counts, hproper]

theorem filter_regular (hts : ∀ t ∈ ts, Regular t.pair) : ts.filter Parser.counts = ts :=
  List.filter_eq_self.mpr fun t ht => counts_of_regular (hts t ht)

/-- Every token of a source counts. -/
theorem tokenize_counts {source : String} (h : tokenize source = .ok ts) :
    ∀ t ∈ ts, Parser.counts t = true := by
  obtain ⟨body, p, rfl, hreg⟩ := tokenize_regular h
  intro t ht
  rcases List.mem_append.mp ht with ht | ht
  · exact counts_of_regular (hreg t ht)
  · rw [List.mem_singleton.mp ht]
    rfl

/-- A statement before the draw block is put in between others. -/
theorem parse_topItem (item : TopItem) {m : Option Module} {top : List TopItem} {ds : Diagnostics}
    (hmeet : MeetInTop ts (us ++ [Token.ending p]) m top ds)
    (hopens : Opens item.words fun k => k ∉ topStops ∧ k ≠ .atModule) (hws : WordTokens item.words ws)
    (hreg : ∀ t ∈ ws ++ us, Regular t.pair)
    (hparse : parse (ts ++ (us ++ [Token.ending p])) = .ok parsed) :
    ∃ b more name canvas body span span', b.eraseSpan = item.eraseSpan ∧
      parsed.drawing = (Parts.mk m (top ++ more) name canvas body).drawing span ∧
      parse (ts ++ (ws ++ (us ++ [Token.ending p]))) =
        .ok ⟨(Parts.mk m (top ++ b :: more) name canvas body).drawing span', parsed.messages⟩ := by
  have hstops : Opens item.words (· ∉ topStops) := hopens.mono fun _ hk => hk.1
  obtain ⟨b, hb, hread⟩ := reads_topItem.readAs hstops hws hreg p
  have hmodule :
      nextKind (ws.filter Parser.counts ++ (Parser.ofTokens (us ++ [Token.ending p])).rest) ≠
      .atModule := by
    rw [filter_regular fun t ht => hreg t (List.mem_append_left us ht)]
    obtain ⟨t, ws', rfl, -, hkind⟩ := hopens ws hws
    exact hkind
  rcases parse_insert_top hmeet (by simp [Parser.counts, Token.ending]) hmodule hread with
    ⟨f, hfault, -⟩ | ⟨more, name, canvas, body, span, span', late, hparse₁, hparse'⟩
  · rw [hparse] at hfault
    cases hfault
  · cases hparse.symm.trans hparse₁
    refine ⟨b, more, name, canvas, body, span, span', hb, rfl, ?_⟩
    rw [hparse', List.append_nil]
    rfl

/-- A placement is put in between other statements of the draw block. -/
theorem parse_placement {q : Placement} {parts : Parts} {os : List Word} {ds : Diagnostics}
    (hmeet : MeetInBlock ts (us ++ [Token.ending p]) parts ds)
    (hos : Joined PlacementOption.Prints (placementOptions q) os)
    (hws : WordTokens (.keyword .useWord :: .name q.source ::
      (optionWords (fun w => [.keyword .dot, .name w]) q.part ++ (os ++ [.keyword .semicolon]))) ws)
    (hreg : ∀ t ∈ ws ++ us, Regular t.pair)
    (hparse : parse (ts ++ (us ++ [Token.ending p])) = .ok parsed) :
    ∃ b body span span', b.eraseSpan = (BodyItem.placement q).eraseSpan ∧
      parsed.drawing = (parts.add body).drawing span ∧
      parse (ts ++ (ws ++ (us ++ [Token.ending p]))) =
        .ok ⟨(parts.add (b :: body)).drawing span', parsed.messages⟩ := by
  have huse : Kind.useWord ∉ blockStops := by decide
  obtain ⟨b, hb, hread⟩ := (reads_bodyPlacement hos).readAs (opens_keyword huse) hws hreg p
  rcases parse_insert_block hmeet (by simp [Parser.counts, Token.ending]) hread with
    ⟨f, hfault, -⟩ | ⟨body, span, span', late, hparse₁, hparse'⟩
  · rw [hparse] at hfault
    cases hfault
  · cases hparse.symm.trans hparse₁
    refine ⟨b, body, span, span', hb, rfl, ?_⟩
    rw [hparse', List.append_nil]
    rfl

/-- **Insertion of a reserved statement**: the drawing has one more node. -/
theorem parse_reserved (hfits : r.Fits ts (us ++ [Token.ending p]) n)
    (hprints : r.Prints words) (hws : WordTokens words ws) (hreg : ∀ t ∈ ws ++ us, Regular t.pair)
    (hparse : parse (ts ++ (us ++ [Token.ending p])) = .ok parsed) :
    ∃ parsed', parse (ts ++ (ws ++ (us ++ [Token.ending p]))) = .ok parsed' ∧
      parsed'.drawing.eraseSpans = (parsed.drawing.withReserved n r).eraseSpans ∧
      parsed'.messages = parsed.messages := by
  cases hfits with
  | @imported i m top ds hmeet =>
      cases hprints
      obtain ⟨b, more, name, canvas, body, span, span', hb, hd, hparse'⟩ :=
        parse_topItem (.imported i) hmeet (opens_keyword (by decide)) hws hreg hparse
      refine ⟨_, hparse', ?_, rfl⟩
      cases b with
      | imported i' =>
          have hi : i'.eraseSpan = i.eraseSpan := TopItem.imported.inj hb
          simp [hd, Parts.drawing, withReserved, eraseSpans, List.filterMap_cons, TopItem.unit?,
            TopItem.imported?, TopItem.exported?, insertAt_length, hi]
      | _ => cases hb
  | @exported e m top ds hmeet =>
      cases hprints
      obtain ⟨b, more, name, canvas, body, span, span', hb, hd, hparse'⟩ :=
        parse_topItem (.exported e) hmeet (opens_keyword (by decide)) hws hreg hparse
      refine ⟨_, hparse', ?_, rfl⟩
      cases b with
      | exported e' =>
          have he : e'.eraseSpan = e.eraseSpan := TopItem.exported.inj hb
          simp [hd, Parts.drawing, withReserved, eraseSpans, List.filterMap_cons, TopItem.unit?,
            TopItem.imported?, TopItem.exported?, insertAt_length, he]
      | _ => cases hb
  | @placement q parts ds hmeet =>
      cases hprints with
      | placement hos =>
          obtain ⟨b, body, span, span', hb, hd, hparse'⟩ :=
            parse_placement hmeet hos hws hreg hparse
          refine ⟨_, hparse', ?_, rfl⟩
          cases b with
          | placement q' =>
              have hq : q'.eraseSpan = q.eraseSpan := BodyItem.placement.inj hb
              simp [hd, Parts.drawing, Parts.add, withReserved, eraseSpans, List.filterMap_cons,
                BodyItem.room?, BodyItem.wall?, BodyItem.door?, BodyItem.grid?, BodyItem.copies?,
                BodyItem.placement?, insertAt_length, hq]
          | _ => cases hb

/-- Where a reserved statement may stand in a source, the end of the source is ahead. -/
theorem Reserved.Fits.ahead {source : String} (h : r.Fits ts us n)
    (hsource : tokenize source = .ok (ts ++ us)) :
    ∃ us' p, us = us' ++ [Token.ending p] ∧ ∀ t ∈ ts ++ us', Regular t.pair := by
  have hcounts := tokenize_counts hsource
  have hlast := h.last (List.filter_eq_self.mpr fun t ht => hcounts t (List.mem_append_left us ht))
  obtain ⟨body, p, hbody, hreg⟩ := tokenize_regular hsource
  rcases List.eq_nil_or_concat us with rfl | ⟨us', u, rfl⟩
  · rw [List.append_nil] at hbody
    exact absurd rfl (hlast (Token.ending p) (by rw [hbody, List.getLast?_concat]; rfl))
  · rw [List.concat_eq_append, ← List.append_assoc] at hbody
    obtain ⟨rfl, hu⟩ := List.append_inj' hbody rfl
    cases hu
    exact ⟨us', p, List.concat_eq_append, hreg⟩

/-- **Reserved statements have no effect**: where one is put into a source, the drawing gets one
more node in its list, at its place, and the result is the same, with all outputs, the picture and
the lists of errors and warnings.  Behind the end of a statement the place is set apart by this end;
behind a foreign token something else has to stand there first, as in `foo import N;`. -/
theorem compile_reserved {a b w : String} (hsource : tokenize (a ++ b) = .ok (ts ++ us))
    (hplace : Between a ts us) (hapart : SetApart a ts) (hfits : r.Fits ts us n) (hw : SpeltAs w ws)
    (hprints : r.Prints words) (hws : WordTokens words ws) :
    ∃ tokens parsed parsed', parse (ts ++ us) = .ok parsed ∧ tokenize (a ++ w ++ b) = .ok tokens ∧
      parse tokens = .ok parsed' ∧
      parsed'.drawing.eraseSpans = (parsed.drawing.withReserved n r).eraseSpans ∧
      parsed'.messages.map Diagnostic.eraseSpan = parsed.messages.map Diagnostic.eraseSpan ∧
      ∀ (c c' : Compiler) (verbose verbose' : Bool),
        (c'.compile verbose' (a ++ w ++ b)).1.result = (c.compile verbose (a ++ b)).1.result ∧
        (c'.compile verbose' (a ++ w ++ b)).1.result.map Result.picture? =
          (c.compile verbose (a ++ b)).1.result.map Result.picture? := by
  obtain ⟨us', p, rfl, hreg⟩ := hfits.ahead hsource
  obtain ⟨t, ht, hkind⟩ := hprints.last hws
  have hlast' : ∀ t ∈ ws.getLast?, t.kind ∈ closers := by
    rintro _ h
    cases ht.symm.trans h
    rw [hkind]
    decide
  obtain ⟨tokens, htokens, hpairs⟩ := tokenize_insert hsource (by simp) hplace hapart hw hlast'
  have hwreg : ∀ t ∈ ws, Regular t.pair := by
    obtain ⟨⟨p', hwtokens⟩, -⟩ := hw
    obtain ⟨body, q, hbody, hbodyreg⟩ := tokenize_regular hwtokens
    rwa [(List.append_inj' hbody rfl).1]
  have hallreg : ∀ t ∈ ts ++ (ws ++ us'), Regular t.pair := by
    simp only [List.mem_append] at hreg ⊢
    grind
  obtain ⟨parsed, hparse⟩ := parse_lexed hsource
  obtain ⟨parsed₁, hparse₁, hdrawing₁, hmessages₁⟩ := parse_reserved hfits hprints hws
    (fun t ht => hallreg t (List.mem_append_right ts ht)) hparse
  have hassoc : ts ++ (ws ++ (us' ++ [Token.ending p])) =
      (ts ++ (ws ++ us')) ++ [Token.ending p] := by
    simp only [List.append_assoc]
  rw [hassoc] at hpairs hparse₁
  -- in the new source these tokens stand at other places
  obtain ⟨body, q, rfl, -⟩ := tokenize_regular htokens
  have hbody : body.map Token.pair = (ts ++ (ws ++ us')).map Token.pair := by
    rw [List.map_append, List.map_append] at hpairs
    exact (List.append_inj' hpairs rfl).1
  obtain ⟨parsed₂, parsed', hparse₂, hparse', hdrawing, hmessages⟩ :=
    parse_agree_regular hallreg hbody.symm p q
  cases hparse₁.symm.trans hparse₂
  have hmessages' : parsed'.messages.map Diagnostic.eraseSpan =
      parsed.messages.map Diagnostic.eraseSpan := by rw [← hmessages, hmessages₁]
  have hdrawing' := hdrawing.symm.trans hdrawing₁
  have hcore : parsed'.drawing.core = parsed.drawing.core := by
    rw [Drawing.core_congr hdrawing', Drawing.core_withReserved]
  refine ⟨_, parsed, parsed', hparse, htokens, hparse', hdrawing', hmessages', ?_⟩
  intro c c' verbose verbose'
  rw [Compiler.compile_parsed htokens hparse', Compiler.compile_parsed hsource hparse,
    Parsed.outcome_core hcore hmessages']
  exact ⟨rfl, rfl⟩

end

/-! ### A placement behind a canvas, an import behind a foreign token -/

theorem WordTokens.cons {w : Word} {words : List Word} {t : Token} {ts : List Token}
    (hw : w.Tokens [t.pair]) (h : WordTokens words ts) : WordTokens (w :: words) (t :: ts) :=
  cons_iff.mpr ⟨[t], ts, rfl, hw, h⟩

/-- The tokens of `use M.E at(1,2k);`. -/
def usedPart : List Token :=
  [inLine .useWord "use" 1, inLine .identifier "M" 5, inLine .dot "." 6, inLine .identifier "E" 7,
    inLine .atWord "at" 9, inLine .leftParen "(" 11, inLine .number "1" 12, inLine .comma "," 13,
    inLine .number "2" 14, inLine .identifier "k" 15, inLine .rightParen ")" 16,
    inLine .semicolon ";" 17]

theorem spelt_usedPart : SpeltAs "use M.E at(1,2k);" usedPart := by
  have huse : (tokenize "use M.E at(1,2k);").toOption =
      some (usedPart ++ [.ending ⟨1, 18, 17⟩]) := by decide +kernel
  exact ⟨⟨_, tokenize_of_toOption huse⟩, inLine .semicolon ";" 17, by decide, by decide⟩

theorem prints_usedPart :
    ∃ p words, (Reserved.placement p).Prints words ∧ WordTokens words usedPart := by
  have hread : ∀ v ∈ ["1", "2"], (Number.readFloat? v).isSome = true := by decide +kernel
  obtain ⟨x, hx⟩ := Option.isSome_iff_exists.mp (hread "1" (by decide))
  obtain ⟨y, hy⟩ := Option.isSome_iff_exists.mp (hread "2" (by decide))
  have hprints : (Reserved.placement ⟨"M", some "E", some ⟨x, y, "U"⟩, none, none, none⟩).Prints _ :=
    .placement (.cons (.place (.mk x y none (some "k"))) .nil)
  have hwords : WordTokens [.keyword .useWord, .name "M", .keyword .dot, .name "E", .keyword .atWord,
      .keyword .leftParen, .number x, .keyword .comma, .number y, .name "k", .keyword .rightParen,
      .keyword .semicolon] usedPart :=
    .cons rfl <| .cons rfl <| .cons rfl <| .cons rfl <| .cons rfl <| .cons rfl <|
      .cons ⟨"1", rfl, hx⟩ <| .cons rfl <| .cons ⟨"2", rfl, hy⟩ <| .cons rfl <| .cons rfl <|
        .cons rfl .nil
  exact ⟨_, _, hprints, hwords⟩

/-- The tokens of `import N;`. -/
def importedPart : List Token :=
  [inLine .importWord "import" 1, inLine .identifier "N" 8, inLine .semicolon ";" 9]

theorem spelt_importedPart : SpeltAs "import N;" importedPart := by
  have himport : (tokenize "import N;").toOption = some (importedPart ++ [.ending ⟨1, 10, 9⟩]) := by
    decide +kernel
  exact ⟨⟨_, tokenize_of_toOption himport⟩, inLine .semicolon ";" 9, by decide, by decide⟩

/-- A token that opens no statement. -/
def foreignName : Token := inLine .identifier "foo" 1

theorem compile_reserved_use :
    (∃ us words r n, tokenize (openText ++ Text.rightBrace) = .ok (openSketch ++ us) ∧
      Between openText openSketch us ∧ SetApart openText openSketch ∧
      Reserved.Fits openSketch us r n ∧ SpeltAs "use M.E at(1,2k);" usedPart ∧ r.Prints words ∧
      WordTokens words usedPart ∧
      ((Compiler.ofName "").compile false
          (openText ++ "use M.E at(1,2k);" ++ Text.rightBrace)).1.result =
        ((Compiler.ofName "").compile false (openText ++ Text.rightBrace)).1.result) ∧
    ∃ us words r n, tokenize ("foo " ++ (openText ++ Text.rightBrace)) = .ok ([foreignName] ++ us) ∧
      Between "foo " [foreignName] us ∧ SetApart "foo " [foreignName] ∧
      Reserved.Fits [foreignName] us r n ∧ SpeltAs "import N;" importedPart ∧ r.Prints words ∧
      WordTokens words importedPart ∧
      ((Compiler.ofName "").compile false
          ("foo " ++ "import N;" ++ (openText ++ Text.rightBrace))).1.result =
        ((Compiler.ofName "").compile false ("foo " ++ (openText ++ Text.rightBrace))).1.result := by
  constructor
  · have hsource : (tokenize (openText ++ Text.rightBrace)).toOption =
        some (openSketch ++ sketchEnd) := by decide +kernel
    have hplace : Between openText openSketch sketchEnd :=
      .inl ⟨inLine .semicolon ";" 23, by decide, by decide⟩
    have hapart : SetApart openText openSketch := by
      rintro _ ⟨⟩
      exact .inl (by decide)
    obtain ⟨parts, hmeet⟩ := openSketch_meets sketchEnd
    obtain ⟨p, words, hprints, hwords⟩ := prints_usedPart
    have hfits := Reserved.Fits.placement (p := p) hmeet
    obtain ⟨-, -, -, -, -, -, -, -, hresult⟩ := compile_reserved (tokenize_of_toOption hsource)
      hplace hapart hfits spelt_usedPart hprints hwords
    exact ⟨_, _, _, _, tokenize_of_toOption hsource, hplace, hapart, hfits, spelt_usedPart, hprints,
      hwords, (hresult _ _ _ _).1⟩
  · have hsource : (tokenize ("foo " ++ (openText ++ Text.rightBrace))).toOption.map
        (fun ts => (ts.take 1, ts[1]?)) = some ([foreignName], some (inLine .atDraw "@draw" 5)) := by
      decide +kernel
    obtain ⟨ts, hts, hsplit⟩ := Option.map_eq_some_iff.mp hsource
    obtain ⟨hfront, hnext⟩ := Prod.mk.inj hsplit
    have hts' : tokenize ("foo " ++ (openText ++ Text.rightBrace)) =
        .ok ([foreignName] ++ ts.drop 1) := by
      rw [← hfront, List.take_append_drop]
      exact tokenize_of_toOption hts
    have hplace : Between "foo " [foreignName] (ts.drop 1) :=
      .inr ⟨inLine .atDraw "@draw" 5, by rw [List.head?_drop]; exact hnext, by decide, by decide⟩
    have hapart : SetApart "foo " [foreignName] := by
      rintro _ ⟨⟩
      exact .inr (by decide)
    have hfits := Reserved.Fits.imported (i := ⟨"N", none, none, none⟩)
      (MeetInTop.of_foreign (t := foreignName) (by decide) (by decide) (by decide) (ts.drop 1))
    have hwords : WordTokens [.keyword .importWord, .name "N", .keyword .semicolon] importedPart :=
      .cons rfl <| .cons rfl <| .cons rfl .nil
    have hprints := Reserved.Prints.imported ⟨"N", none, none, none⟩
    obtain ⟨-, -, -, -, -, -, -, -, hresult⟩ := compile_reserved hts' hplace hapart hfits
      spelt_importedPart hprints hwords
    exact ⟨_, _, _, _, hts', hplace, hapart, hfits, spelt_importedPart, hprints, hwords,
      (hresult _ _ _ _).1⟩

end FloorPlan
