import FloorPlan.Proofs.Token.Tiling

/-! # Lexing what was written

A lexeme is the kind and value of a token that some source has.  Lexemes are words, numerals, marks
and strings with any value (`IsLexeme.spelled`).  Each is written in one way: a string in double
quotes, any other lexeme as its value.  With gaps between them, written lexemes are read as they
were (`lexes_items`), so lexing undoes writing (`tokenize_render`). -/

namespace FloorPlan

/-! ### Lexemes -/

/-- Some source has a token with this kind and value, and it is not the ending token. -/
def IsLexeme (p : Kind × String) : Prop :=
  ∃ source ts, tokenize source = .ok ts ∧ p ∈ ts.map Token.pair ∧ p.1 ≠ .endOfInput

/-- A string, a numeral, a word or a mark. -/
inductive IsSpelled : Kind × String → Prop
  | string (s : String) : IsSpelled (.string, s)
  | number {cs : List Char} (h : IsNumeral cs) : IsSpelled (.number, String.ofList cs)
  | word {cs : List Char} (h : IsWord cs) : IsSpelled (wordKind cs, String.ofList cs)
  | mark {c : Char} {k : Kind} (h : Kind.ofMark? c = some k) : IsSpelled (k, String.ofList [c])

/-- Every token of a text is a string, a numeral, a word or a mark. -/
theorem Lexes.spelled {cs : List Char} {ts : List (Kind × String)} (h : Lexes cs ts) :
    ∀ p ∈ ts, IsSpelled p := by
  induction h with
  | nil => intro p hp; cases hp
  | gap _ _ ih => exact ih
  | @token c cs v k n ts hf _ ih =>
      intro p hp
      rcases List.mem_cons.mp hp with rfl | hp
      · rcases Lexeme.front?_token hf with
          ⟨-, rfl⟩ | ⟨hd, rfl, rfl, rfl⟩ | ⟨hc, rfl, rfl, rfl⟩ | ⟨hk, rfl, -⟩
        · exact .string _
        · exact .number (Lexeme.isNumeral_take hd cs)
        · exact .word (word_take hc).1
        · exact .mark hk
      · exact ih p hp

theorem IsLexeme.spelled {p : Kind × String} (h : IsLexeme p) : IsSpelled p := by
  obtain ⟨source, ts, hts, hmem, hkind⟩ := h
  obtain ⟨body, q, rfl, hlexes⟩ := Cursor.lexes_of_tokens hts
  rw [List.map_append, List.mem_append] at hmem
  rcases hmem with hmem | hmem
  · exact hlexes.spelled p hmem
  · rw [List.map_singleton, List.mem_singleton] at hmem
    exact absurd (by rw [hmem]; rfl) hkind

/-- The text of a lexeme. -/
def written (p : Kind × String) : List Char :=
  if p.1 = .string then quoted p.2.toList else p.2.toList

theorem written_of_ne {k : Kind} (h : k ≠ .string) (cs : List Char) :
    written (k, String.ofList cs) = cs := by
  rw [written, if_neg h, String.toList_ofList]

/-! ### Gaps between lexemes -/

/-- Nothing, a blank or a slash comes next. -/
def Parted (cs : List Char) : Prop := ∀ c ∈ cs.head?, Text.isBlank c = true ∨ c = '/'

theorem Parted.notMem {p : Char → Bool} {cs : List Char} (h : Parted cs)
    (hblank : ∀ c, p c = true → Text.isBlank c = false) (hslash : p '/' = false) :
    ∀ c ∈ cs.head?, p c = false := by
  intro c hc
  rcases h c hc with hb | rfl
  · cases hp : p c with
    | false => rfl
    | true =>
        rw [hblank c hp] at hb
        cases hb
  · exact hslash

namespace IsGap

variable {gap : List Char}

/-- A gap parts what stands before it from what comes after it. -/
theorem parted (h : IsGap gap) (hne : gap ≠ []) (rest : List Char) : Parted (gap ++ rest) := by
  intro c hc
  cases h with
  | nil => exact absurd rfl hne
  | blank hb _ =>
      cases hc
      exact .inl hb
  | comment _ _ =>
      cases hc
      exact .inr rfl

/-- A gap in front of a text changes nothing. -/
theorem lexes (h : IsGap gap) {cs : List Char} {ts : List (Kind × String)} (hl : Lexes cs ts) :
    Lexes (gap ++ cs) ts := by
  induction h with
  | nil => exact hl
  | blank hc _ ih => exact ih.blank hc
  | @comment body gap hbody _ ih =>
      have htext : '/' :: '*' :: (body ++ '*' :: '/' :: gap) ++ cs =
          '/' :: '*' :: (body ++ '*' :: '/' :: (gap ++ cs)) := by simp
      have hwidth : commentWidth ('/' :: '*' :: (body ++ '*' :: '/' :: (gap ++ cs))) =
          body.length + 2 + 2 := by
        show 2 + closingWidth (body ++ '*' :: '/' :: (gap ++ cs)) = _
        rw [closingWidth_closed hbody]
        omega
      have hfront : Lexeme.front? '/' ('*' :: (body ++ '*' :: '/' :: (gap ++ cs))) =
          some (.gap (body.length + 2 + 2)) := by
        have hslash : Text.isBlank '/' = false := by decide
        rw [← hwidth]
        simp [Lexeme.front?, hslash]
      rw [htext]
      refine .gap hfront ?_
      have hdrop : body ++ '*' :: '/' :: (gap ++ cs) = (body ++ ['*', '/']) ++ (gap ++ cs) := by simp
      have hlen : body.length + 2 = (body ++ ['*', '/']).length := by simp
      rw [List.drop_succ_cons, List.drop_succ_cons, hdrop, hlen, List.drop_left]
      exact ih

end IsGap

/-! ### Written lexemes -/

/-- A token in front of a text, as far as it goes. -/
theorem Lexes.front {c : Char} {cs v rest : List Char} {k : Kind} {ts : List (Kind × String)}
    (hf : Lexeme.front? c (cs ++ rest) = some (.token k v (c :: cs).length)) (hl : Lexes rest ts) :
    Lexes (c :: cs ++ rest) ((k, String.ofList v) :: ts) := by
  have hrest : Lexes ((c :: (cs ++ rest)).drop (c :: cs).length) ts := by
    rwa [← List.cons_append, List.drop_left]
  exact .token hf hrest

theorem Lexes.numeral {cs rest : List Char} {ts : List (Kind × String)} (h : IsNumeral cs)
    (hnext : ∀ c ∈ rest.head?, c.isDigit = false ∧ c ≠ '.') (hl : Lexes rest ts) :
    Lexes (cs ++ rest) ((.number, String.ofList cs) :: ts) := by
  obtain ⟨d, ds, rfl, hd⟩ := h.head
  refine .front ?_ hl
  rw [Lexeme.front?_digit hd, Lexeme.verbatim, ← List.cons_append, numberWidth_front h hnext,
    List.take_left]

theorem Lexes.word {cs rest : List Char} {ts : List (Kind × String)} (h : IsWord cs)
    (hnext : ∀ c ∈ rest.head?, isWordChar c = false) (hl : Lexes rest ts) :
    Lexes (cs ++ rest) ((wordKind cs, String.ofList cs) :: ts) := by
  obtain ⟨c, ds, rfl, hc⟩ := h.head
  refine .front ?_ hl
  rw [Lexeme.front?_word hc, Lexeme.verbatim, ← List.cons_append, wordWidth_front h hnext,
    List.take_left]

/-- A written lexeme is read as one token if it is parted from what comes after it. -/
theorem IsSpelled.lexes {p : Kind × String} (h : IsSpelled p) {rest : List Char}
    {ts : List (Kind × String)} (hrest : Parted rest) (hl : Lexes rest ts) :
    Lexes (written p ++ rest) (p :: ts) := by
  cases h with
  | string s =>
      have hf : Lexeme.front? '"' ((s.toList.flatMap escape ++ ['"']) ++ rest) =
          some (.token .string s.toList (quoted s.toList).length) := by
        rw [Lexeme.front?_quote]
        simp only [stringFront, List.append_assoc, List.cons_append, List.nil_append,
          stringTail_escape, quoted, List.length_append, List.length_cons, List.length_nil]
      have hlexes := Lexes.front hf hl
      rwa [String.ofList_toList] at hlexes
  | @number cs hnum =>
      rw [written_of_ne (by decide)]
      have hnext : ∀ c ∈ rest.head?, c.isDigit = false ∧ c ≠ '.' := by
        intro c hc
        refine ⟨hrest.notMem (fun _ => isBlank_of_isDigit) (by decide) c hc, fun hdot => ?_⟩
        rcases hrest c hc with hb | hb
        · rw [hdot] at hb
          exact absurd hb (by decide)
        · rw [hdot] at hb
          exact absurd hb (by decide)
      exact .numeral hnum hnext hl
  | @word cs hword =>
      rw [written_of_ne (wordKind_ne_string cs)]
      exact .word hword (hrest.notMem (fun _ => isBlank_of_isWordChar) (by decide)) hl
  | @mark c k hmark =>
      rw [written_of_ne (ofMark?_plain hmark).1]
      refine .front (Lexeme.front?_mark hmark fun hstar => ?_) hl
      rcases hrest '*' hstar with hb | hb
      · exact absurd hb (by decide)
      · exact absurd hb (by decide)

/-! ### Texts -/

/-- A lexeme and the text that is put after it. -/
abbrev Item := (Kind × String) × List Char

/-- A text with a gap in front and the written lexemes after it. -/
def render (gap : List Char) (items : List Item) : List Char :=
  gap ++ items.flatMap fun item => written item.1 ++ item.2

/-- Gaps in front of, between and after the lexemes. Only those at the ends may be empty. -/
structure Gapped (gap : List Char) (items : List Item) : Prop where
  front : IsGap gap
  gaps : ∀ item ∈ items, IsGap item.2
  apart : ∀ item ∈ items.dropLast, item.2 ≠ []

theorem Gapped.tail {gap : List Char} {item : Item} {items : List Item}
    (h : Gapped gap (item :: items)) : Gapped [] items := by
  refine ⟨.nil, fun i hi => h.gaps i (List.mem_cons_of_mem item hi), fun i hi => h.apart i ?_⟩
  cases items with
  | nil => cases hi
  | cons j items => exact List.mem_cons_of_mem item hi

/-- The text after a lexeme parts it from the next one. -/
theorem Gapped.parted {gap : List Char} {item : Item} {items : List Item}
    (h : Gapped gap (item :: items)) (hnil : items = [] ∨ item.2 ≠ []) :
    Parted (item.2 ++ items.flatMap fun i => written i.1 ++ i.2) := by
  have hgap := h.gaps item (by simp)
  by_cases hempty : item.2 = []
  · rcases hnil with rfl | hne
    · rw [hempty]
      intro c hc
      cases hc
    · exact absurd hempty hne
  · exact hgap.parted hempty _

theorem lexes_items {gap : List Char} {items : List Item} (hgapped : Gapped gap items)
    (hspelled : ∀ item ∈ items, IsSpelled item.1) :
    Lexes (render gap items) (items.map (·.1)) := by
  refine hgapped.front.lexes ?_
  induction items generalizing gap with
  | nil => exact .nil
  | cons item items ih =>
      have hothers := ih hgapped.tail fun i hi => hspelled i (List.mem_cons_of_mem item hi)
      have hparted : Parted (item.2 ++ items.flatMap fun i => written i.1 ++ i.2) := by
        apply hgapped.parted
        cases items with
        | nil => exact .inl rfl
        | cons j items => exact .inr (hgapped.apart item (by simp))
      rw [List.flatMap_cons, List.map_cons, List.append_assoc]
      exact (hspelled item (by simp)).lexes hparted ((hgapped.gaps item (by simp)).lexes hothers)

theorem tokenize_items {gap : List Char} {items : List Item} (hgapped : Gapped gap items)
    (hlexemes : ∀ item ∈ items, IsLexeme item.1) :
    ∃ us, tokenize (String.ofList (render gap items)) = .ok us ∧
      us.map Token.pair = items.map (·.1) ++ [(.endOfInput, "")] := by
  have hlexes := lexes_items hgapped fun item hi => (hlexemes item hi).spelled
  have hrest : (Cursor.ofSource (String.ofList (render gap items))).rest = render gap items :=
    String.toList_ofList
  obtain ⟨body, p, hbody, hpairs⟩ := Cursor.tokens_of_lexes hlexes _ hrest
  refine ⟨body ++ [Token.ending p], hbody, ?_⟩
  rw [List.map_append, hpairs]
  rfl

/-- **Lexing undoes writing**: lexemes written with gaps between them are read as they were; in
particular the tokens of a source, written again, are read again. -/
theorem tokenize_render :
    (∀ gap items, Gapped gap items → (∀ item ∈ items, IsLexeme item.1) →
      ∃ us, tokenize (String.ofList (render gap items)) = .ok us ∧
        us.map Token.pair = items.map (·.1) ++ [(.endOfInput, "")]) ∧
    (∀ source ts gap items, tokenize source = .ok ts → Gapped gap items →
      items.map (·.1) ++ [(.endOfInput, "")] = ts.map Token.pair →
      ∃ us, tokenize (String.ofList (render gap items)) = .ok us ∧
        us.map Token.pair = ts.map Token.pair) := by
  refine ⟨fun gap items => tokenize_items, ?_⟩
  intro source ts gap items hts hgapped hpairs
  have hlexemes : ∀ item ∈ items, IsLexeme item.1 := by
    intro item hi
    have hmem : item.1 ∈ items.map (·.1) := List.mem_map_of_mem hi
    refine ⟨source, ts, hts, ?_, fun hkind => ?_⟩
    · rw [← hpairs]
      exact List.mem_append_left _ hmem
    · -- only the last token of the source ends the input
      obtain ⟨body, p, rfl, hregular⟩ := tokenize_regular hts
      rw [List.map_append, List.map_singleton] at hpairs
      have hbody : items.map (·.1) = body.map Token.pair :=
        (List.append_inj' hpairs rfl).1
      rw [hbody] at hmem
      obtain ⟨t, ht, he⟩ := List.mem_map.mp hmem
      have hproper := (hregular t ht).proper
      rw [he, hkind] at hproper
      exact hproper (by decide)
  rw [← hpairs]
  exact tokenize_items hgapped hlexemes

/-- Marks with comments glued to them, a string full of marks, and an at sign before a number. -/
def gluedItems : List Item :=
  [((.slash, "/"), "/**/".toList), ((.star, "*"), "/*/*/".toList),
   ((.string, "a\"\\*/\n"), "/*x**/ ".toList), ((.identifier, "@"), "\t".toList),
   ((.number, "1.5"), [])]

theorem tokenize_render_glued :
    Gapped " /*a*/".toList gluedItems ∧ (∀ item ∈ gluedItems, IsLexeme item.1) ∧
      ∃ us, tokenize (String.ofList (render " /*a*/".toList gluedItems)) = .ok us ∧
        us.map Token.pair = gluedItems.map (·.1) ++ [(.endOfInput, "")] := by
  have hcomment : ∀ body : List Char, ¬ ['*', '/'] <:+: body →
      IsGap ('/' :: '*' :: (body ++ ['*', '/'])) := fun body hbody => .comment hbody .nil
  have hgapped : Gapped " /*a*/".toList gluedItems := by
    refine ⟨.blank (by decide) (hcomment ['a'] (by decide)), ?_, by decide⟩
    simp only [gluedItems, List.forall_mem_cons, List.not_mem_nil, false_implies, implies_true,
      and_true]
    refine ⟨hcomment [] (by decide), hcomment ['/'] (by decide), ?_, ?_, .nil⟩
    · have hbody : ¬ ['*', '/'] <:+: ['x', '*'] := by decide
      exact .comment hbody (.blank (by decide) .nil)
    · exact .blank (by decide) .nil
  have hlexemes : ∀ item ∈ gluedItems, IsLexeme item.1 := by
    have hpairs : (tokenize "/ * 'a\"\\\\*/\n' @ 1.5").toOption.map (·.map Token.pair) =
        some (gluedItems.map (·.1) ++ [(.endOfInput, "")]) := by decide +kernel
    have hkinds : ∀ item ∈ gluedItems, item.1.1 ≠ .endOfInput := by decide
    cases hts : tokenize "/ * 'a\"\\\\*/\n' @ 1.5" with
    | error e => simp [hts, Except.toOption] at hpairs
    | ok ts =>
        rw [hts] at hpairs
        have hsame : ts.map Token.pair = gluedItems.map (·.1) ++ [(.endOfInput, "")] :=
          Option.some_inj.mp hpairs
        refine fun item hi => ⟨_, ts, hts, ?_, hkinds item hi⟩
        rw [hsame]
        exact List.mem_append_left _ (List.mem_map_of_mem hi)
  exact ⟨hgapped, hlexemes, tokenize_render.1 _ _ hgapped hlexemes⟩

end FloorPlan
