import FloorPlan.Proofs.Drawing.Insertions
import FloorPlan.Proofs.Drawing.Reading
import FloorPlan.Proofs.Token.Seams

/-! # Statements in a source

The text of a statement is read as its words (`LexedAs`), which is shown word by word from its end.
A text that ends with a semicolon is read in the same way whatever follows it, so wherever it stands
in a source, the parser that gets there has the words ahead (`Parser.Before.words`). -/

namespace FloorPlan

/-! ### Texts in words -/

/-- The text is read as the words. -/
def LexedAs (cs : List Char) (ws : List Word) : Prop := ∃ ts, Joined Word.Tokens ws ts ∧ Lexes cs ts

/-- Nothing comes next that a number or a word could go on with. -/
def Bounded (cs : List Char) : Prop := ∀ c ∈ cs.head?, isWordChar c = false ∧ c ≠ '.'

section

variable {cs rest : List Char} {ws : List Word}

theorem Apart.bounded (h : Apart cs) : Bounded cs := by
  intro c hc
  refine ⟨h.notMem (fun _ => isBlank_of_isWordChar) c hc, ?_⟩
  rintro rfl
  exact h.head?_ne (by decide) hc

theorem slash_notMem_blanks (h : ∀ c ∈ cs, Text.isBlank c = true) : '/' ∉ cs :=
  fun hs => absurd (h _ hs) (by decide)

theorem slash_notMem_numeral (h : IsNumeral cs) : '/' ∉ cs :=
  fun hs => absurd (h.mem hs) (by decide)

namespace LexedAs

theorem semicolon : LexedAs [';'] [.keyword .semicolon] :=
  ⟨_, .cons rfl .nil, .token (Lexeme.front?_mark rfl (by simp)) .nil⟩

theorem blanks (h : LexedAs rest ws) (hcs : ∀ c ∈ cs, Text.isBlank c = true) :
    LexedAs (cs ++ rest) ws := by
  obtain ⟨ts, hts, hl⟩ := h
  exact ⟨ts, hts, hl.blanks hcs⟩

theorem number {a : String} {x : Float} (h : LexedAs rest ws) (ha : IsNumeral a.toList)
    (hx : Number.readFloat? a = some x) (hrest : ∀ c ∈ rest.head?, c.isDigit = false ∧ c ≠ '.') :
    LexedAs (a.toList ++ rest) (.number x :: ws) := by
  obtain ⟨ts, hts, hl⟩ := h
  have hnumber : (Word.number x).Tokens [(.number, a)] := ⟨a, rfl, hx⟩
  have hlexes := hl.numeral ha hrest
  rw [String.ofList_toList] at hlexes
  exact ⟨_, .cons hnumber hts, hlexes⟩

theorem name {n : String} (h : LexedAs rest ws) (hn : IsName n) (hrest : Bounded rest) :
    LexedAs (n.toList ++ rest) (.name n :: ws) := by
  obtain ⟨ts, hts, hl⟩ := h
  have hname : (Word.name n).Tokens [(.identifier, n)] := rfl
  have hlexes := hl.word hn.1 fun c hc => (hrest c hc).1
  rw [hn.2, String.ofList_toList] at hlexes
  exact ⟨_, .cons hname hts, hlexes⟩

/-- A word that blanks set apart from what comes after it. -/
theorem word {w : Word} (h : LexedAs rest ws) (hw : w.Proper) (hcs : w.Written cs)
    (hrest : Apart rest) : LexedAs (cs ++ rest) (w :: ws) := by
  obtain ⟨ts, hts, hl⟩ := h
  obtain ⟨us, hus, hspells⟩ := Word.spells hw hcs
  exact ⟨_, .cons hus hts, hspells rest ts hrest hl⟩

theorem keyword {k : Kind} (h : LexedAs rest ws) (hk : k ∈ Word.fixedKinds) (hrest : Apart rest) :
    LexedAs (k.text.toList ++ rest) (.keyword k :: ws) := h.word hk rfl hrest

/-- A text without comments that ends with a semicolon is read in the same way whatever follows. -/
theorem closed (h : LexedAs (cs ++ [';']) ws) (hend : ws.getLast? = some (.keyword .semicolon))
    (hslash : '/' ∉ cs) :
    ∃ ts, Joined Word.Tokens ws ts ∧ ∀ after, LexesTo (cs ++ ';' :: after) ts after := by
  obtain ⟨ts, hts, hl⟩ := h
  obtain ⟨front, rfl⟩ := List.getLast?_eq_some_iff.mp hend
  obtain ⟨us, vs, rfl, -, hvs⟩ := Joined.append_iff.mp hts
  obtain ⟨ps, _, rfl, hps, hnil⟩ := Joined.cons_iff.mp hvs
  have hlast : (us ++ (ps ++ [])).getLast? = some (.semicolon, Kind.semicolon.text) := by
    rw [List.append_nil, show ps = _ from hps, List.getLast?_concat]
  rw [Joined.nil_iff.mp hnil] at hl hts
  exact ⟨_, hts, fun after => hl.closed hslash hlast (by decide) after⟩

end LexedAs

end

/-! ### Places before a text -/

namespace Parser

/-- Where a source has a text with tokens of its own, the parser has them ahead. -/
theorem Advance.ahead {a w b : String} {tokens : List Token} {s : Parser} {t : Token}
    {ps : List (Kind × String)} (hsource : tokenize (a ++ w ++ b) = .ok tokens)
    (hadv : (ofTokens tokens).Advance s) (hnext : s.rest.head? = some t)
    (hplace : t.start.offset = a.length) (hlexes : LexesTo (w.toList ++ b.toList) ps b.toList) :
    s.Steady ∧ ∃ ws vs, s.rest = ws ++ vs ∧ ws.map Token.pair = ps := by
  obtain ⟨body, p, rfl, hreg⟩ := tokenize_regular hsource
  rw [ofTokens_regular hreg] at hadv
  have hsteady : s.Steady := hadv.onward.steady ⟨rfl, rfl, hreg⟩
  refine ⟨hsteady, ?_⟩
  obtain ⟨us, hus⟩ := List.head?_eq_some_iff.mp hnext
  have hsplit : body = s.past.reverse ++ t :: us := hus ▸ hadv.split rfl
  rw [hsplit, List.append_assoc, List.cons_append] at hsource
  obtain ⟨c, hcursor, hpos, htokens⟩ := Cursor.before hsource (by simp)
  have hrest : c.rest = w.toList ++ b.toList := by
    rw [String.append_assoc, String.toList_append, String.toList_append] at hcursor
    exact hcursor.rest_eq (by rw [hpos, hplace, String.length_toList])
  obtain ⟨ws, vs, n, hws, hps, hvs⟩ := hlexes.tokens hrest htokens
  obtain ⟨vs', q, rfl, -⟩ := Cursor.lexes_of_tokens hvs
  rw [← List.cons_append, ← List.append_assoc] at hws
  exact ⟨ws, vs', hus.trans (List.append_inj' hws rfl).1, hps⟩

/-- The parser stands before one of the texts, somewhere in a source. -/
def Before (s : Parser) (text : List Char → Prop) : Prop :=
  ∃ before w after tokens t, text w.toList ∧ tokenize (before ++ w ++ after) = .ok tokens ∧
    (ofTokens tokens).Advance s ∧ s.rest.head? = some t ∧ t.start.offset = before.length

/-- The parser stands before words. -/
def BeforeWords (s : Parser) (ws : List Word) : Prop :=
  s.Steady ∧ ∃ ts rest, s.rest = ts ++ rest ∧ WordTokens ws ts

/-- Before texts that are read as words, up to a semicolon of their own. -/
theorem Before.words {s : Parser} {text : List Char → Prop} {ws : List Word} (h : s.Before text)
    (hend : ws.getLast? = some (.keyword .semicolon))
    (htext : ∀ cs, text cs → LexedAs cs ws ∧ ∃ ds, cs = ds ++ [';'] ∧ '/' ∉ ds) :
    s.BeforeWords ws := by
  obtain ⟨before, w, after, tokens, t, hw, hsource, hadv, hnext, hplace⟩ := h
  obtain ⟨hlexed, ds, hds, hslash⟩ := htext _ hw
  rw [hds] at hlexed
  obtain ⟨ps, hps, hlexes⟩ := hlexed.closed hend hslash
  have hall := hlexes after.toList
  rw [← List.singleton_append, ← List.append_assoc, ← hds] at hall
  obtain ⟨hsteady, ts, rest, hrest, rfl⟩ := hadv.ahead hsource hnext hplace hall
  exact ⟨hsteady, ts, rest, hrest, hps⟩

end Parser

end FloorPlan
