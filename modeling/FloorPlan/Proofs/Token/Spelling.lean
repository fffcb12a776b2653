import FloorPlan.Proofs.Token.Regular

/-! # How tokens are spelled

`Spells text ts` says that a text is read as the tokens `ts`, if nothing or a blank comes after
it; what follows the blank is then read on its own.  Texts with blanks between them are read one
after the other (`Spaced.spells`), and each lexeme is read as one token: words, numerals, marks
and strings.  Hexadecimal digits fall apart into numbers and identifiers, but nothing of them is
lost (`spells_hex`). -/

namespace FloorPlan

/-! ### Classes of characters -/

theorem isAlpha_iff {c : Char} : c.isAlpha = true ↔
    (65 ≤ c.toNat ∧ c.toNat ≤ 90) ∨ (97 ≤ c.toNat ∧ c.toNat ≤ 122) := by
  have h : c.isAlpha = (decide ((65 : UInt32) ≤ c.val ∧ c.val ≤ 90) ||
      (decide ((97 : UInt32) ≤ c.val) && decide (c.val ≤ 122))) := rfl
  simp only [h, Bool.or_eq_true, Bool.and_eq_true, decide_eq_true_eq, UInt32.le_iff_toNat_le]
  exact Iff.rfl

theorem isBlank_of_isWordStart {c : Char} (h : isWordStart c = true) : Text.isBlank c = false := by
  rcases (Bool.or_eq_true _ _).mp h with h | h
  · have hc := isAlpha_iff.mp h
    simp [Text.isBlank, Text.Ranges.contains, Text.blankRanges]
    omega
  · rw [of_decide_eq_true h]
    decide

theorem isBlank_of_isWordChar {c : Char} (h : isWordChar c = true) : Text.isBlank c = false := by
  simp only [isWordChar, Bool.or_eq_true, decide_eq_true_eq] at h
  rcases h with (h | h) | rfl
  · exact isBlank_of_isWordStart h
  · exact isBlank_of_isDigit h
  · decide

theorem isDigit_of_isWordStart {c : Char} (h : isWordStart c = true) : c.isDigit = false := by
  refine Bool.eq_false_iff.mpr fun hd => ?_
  have hc := isDigit_toNat hd
  rcases (Bool.or_eq_true _ _).mp h with h | h
  · have := isAlpha_iff.mp h
    omega
  · rw [of_decide_eq_true h] at hd
    cases hd

/-! ### Fronts -/

namespace Lexeme

variable {c : Char} {cs : List Char}

theorem front?_blank (h : Text.isBlank c = true) :
    front? c cs = some (gap (1 + (cs.takeWhile Text.isBlank).length)) := by
  rw [front?, if_pos h]

theorem front?_quote : front? '"' cs = some (token .string (stringFront ('"' :: cs)).1
    (stringFront ('"' :: cs)).2) := by
  simp [front?, show Text.isBlank '"' = false by decide, isQuote]

theorem front?_digit (h : c.isDigit = true) :
    front? c cs = some (verbatim (fun _ => .number) (numberWidth (c :: cs)) (c :: cs)) := by
  have hslash : c ≠ '/' := by
    rintro rfl
    cases h
  have hquote : isQuote c = false := by
    refine Bool.eq_false_iff.mpr fun hq => ?_
    simp only [isQuote, Bool.or_eq_true, decide_eq_true_eq] at hq
    rcases hq with rfl | rfl <;> cases h
  simp [front?, isBlank_of_isDigit h, hslash, hquote, h]

theorem front?_word (h : isWordStart c = true ∨ c = '@') :
    front? c cs = some (verbatim wordKind (wordWidth (c :: cs)) (c :: cs)) := by
  have hblank : Text.isBlank c = false := by
    rcases h with h | rfl
    · exact isBlank_of_isWordStart h
    · decide
  have hslash : c ≠ '/' := by
    rintro rfl
    exact absurd h (by decide)
  have hquote : isQuote c = false := by
    refine Bool.eq_false_iff.mpr fun hq => ?_
    simp only [isQuote, Bool.or_eq_true, decide_eq_true_eq] at hq
    rcases hq with rfl | rfl <;> exact absurd h (by decide)
  have hdigit : c.isDigit = false := by
    rcases h with h | rfl
    · exact isDigit_of_isWordStart h
    · decide
  simp [front?, hblank, hslash, hquote, hdigit, h]

/-- A slash is a mark unless it opens a comment. -/
theorem front?_mark {k : Kind} (h : Kind.ofMark? c = some k) (hcs : cs.head? ≠ some '*') :
    front? c cs = some (token k [c] 1) := by
  have hmarks : ∀ e ∈ Kind.marks, Text.isBlank e.1 = false ∧ isQuote e.1 = false ∧
      e.1.isDigit = false ∧ isWordStart e.1 = false ∧ e.1 ≠ '@' := by
    decide
  obtain ⟨hb, hq, hd, hw, ha⟩ := hmarks _ (Kind.mem_of_lookup h)
  simp only at hb hq hd hw ha
  simp [front?, hb, hcs, hq, hd, hw, ha, h]

end Lexeme

/-! ### Texts that are read on their own -/

/-- Nothing or a blank comes next. -/
def Apart (cs : List Char) : Prop := ∀ c ∈ cs.head?, Text.isBlank c = true

/-- The text is read as the tokens `ts` in front of anything that is apart from it. -/
def Spells (text : List Char) (ts : List (Kind × String)) : Prop :=
  ∀ rest us, Apart rest → Lexes rest us → Lexes (text ++ rest) (ts ++ us)

/-- A text made of texts for the items, with blanks between them. -/
inductive Spaced {α : Type} (text : α → List Char → Prop) : List α → List Char → Prop
  | nil {gap : List Char} (hgap : ∀ c ∈ gap, Text.isBlank c = true) : Spaced text [] gap
  | cons {a : α} {as : List α} {gap cs rest : List Char}
      (hgap : ∀ c ∈ gap, Text.isBlank c = true) (first : text a cs) (others : Spaced text as rest)
      (apart : Apart rest) : Spaced text (a :: as) (gap ++ (cs ++ rest))

/-- Tokens made of tokens for the items. -/
inductive Joined {α β : Type} (tokens : α → List β → Prop) : List α → List β → Prop
  | nil : Joined tokens [] []
  | cons {a : α} {as : List α} {ts us : List β} (first : tokens a ts) (others : Joined tokens as us) :
      Joined tokens (a :: as) (ts ++ us)

theorem takeWhile_front {α : Type} {p : α → Bool} {l rest : List α} (hl : ∀ a ∈ l, p a = true)
    (hrest : ∀ a ∈ rest.head?, p a = false) : (l ++ rest).takeWhile p = l := by
  rw [List.takeWhile_append_of_pos hl]
  cases rest with
  | nil => simp
  | cons a rest => simp [hrest a (by simp)]

/-- A run that stops before `a` does not depend on what follows `a`. -/
theorem takeWhile_upto {α : Type} {p : α → Bool} {a : α} {l rest rest' : List α}
    (h : ((l ++ a :: rest).takeWhile p).length ≤ l.length) :
    (l ++ a :: rest').takeWhile p = (l ++ a :: rest).takeWhile p := by
  induction l with
  | nil =>
      cases ha : p a with
      | true => simp [ha] at h
      | false => simp [ha]
  | cons b l ih =>
      cases hb : p b with
      | true =>
          simp only [List.cons_append, List.takeWhile_cons, hb, if_true, List.length_cons,
            Nat.add_le_add_iff_right] at h ⊢
          rw [ih h]
      | false => simp [hb]

namespace Apart

variable {cs : List Char}

theorem notMem {p : Char → Bool} (h : Apart cs) (hp : ∀ c, p c = true → Text.isBlank c = false) :
    ∀ c ∈ cs.head?, p c = false := by
  intro c hc
  refine Bool.eq_false_iff.mpr fun hpc => ?_
  have hblank := hp c hpc
  rw [h c hc] at hblank
  cases hblank

theorem head?_ne (h : Apart cs) {c : Char} (hc : Text.isBlank c = false) : cs.head? ≠ some c := by
  intro he
  rw [h c (by simp [he])] at hc
  cases hc

end Apart

/-- A blank in front changes nothing. -/
theorem Lexes.blank {c : Char} {cs : List Char} {ts : List (Kind × String)}
    (hc : Text.isBlank c = true) (h : Lexes cs ts) : Lexes (c :: cs) ts := by
  have hgap : ∀ m, (cs.takeWhile Text.isBlank).length = m → Lexes (cs.drop m) ts →
      Lexes (c :: cs) ts := by
    intro m hm hl
    refine .gap (Lexeme.front?_blank hc) ?_
    rwa [hm, Nat.add_comm, List.drop_succ_cons]
  cases cs with
  | nil => exact hgap 0 rfl h
  | cons d cs =>
      by_cases hd : Text.isBlank d = true
      · -- the gap before `d` and the gap from `d` on are one
        have hm : ((d :: cs).takeWhile Text.isBlank).length =
            1 + (cs.takeWhile Text.isBlank).length := by
          rw [List.takeWhile_cons_of_pos hd, List.length_cons, Nat.add_comm]
        have hf : Lexeme.front? d cs = some (.gap (1 + (cs.takeWhile Text.isBlank).length)) :=
          Lexeme.front?_blank hd
        cases h with
        | gap hf' hl =>
            rw [hf] at hf'
            cases hf'
            exact hgap _ hm hl
        | token hf' _ =>
            rw [hf] at hf'
            cases hf'
      · exact hgap 0 (by rw [List.takeWhile_cons_of_neg hd]; rfl) h

theorem Lexes.blanks {gap cs : List Char} {ts : List (Kind × String)}
    (hgap : ∀ c ∈ gap, Text.isBlank c = true) (h : Lexes cs ts) : Lexes (gap ++ cs) ts := by
  induction gap with
  | nil => exact h
  | cons c gap ih => exact .blank (hgap c (by simp)) (ih fun d hd => hgap d (by simp [hd]))

namespace Spells

variable {a b : List Char} {ts us : List (Kind × String)}

theorem nil : Spells [] [] := fun _ _ _ h => h

theorem append (ha : Spells a ts) (hb : Spells b us) (hapart : Apart b) :
    Spells (a ++ b) (ts ++ us) := by
  intro rest vs hrest hl
  rw [List.append_assoc, List.append_assoc]
  refine ha _ _ ?_ (hb rest vs hrest hl)
  cases b with
  | nil => exact hrest
  | cons c b => exact hapart

theorem blanks (h : Spells b us) (ha : ∀ c ∈ a, Text.isBlank c = true) : Spells (a ++ b) us := by
  intro rest vs hrest hl
  rw [List.append_assoc]
  exact (h rest vs hrest hl).blanks ha

/-- A token in front of a text, if it ends there whatever is apart from the text. -/
theorem token {c : Char} {cs v : List Char} {k : Kind}
    (h : ∀ rest, Apart rest →
      Lexeme.front? c (cs ++ b ++ rest) = some (.token k v (c :: cs).length))
    (hb : Spells b us) : Spells (c :: cs ++ b) ((k, String.ofList v) :: us) := by
  intro rest vs hrest hl
  have hdrop : (c :: (cs ++ b ++ rest)).drop (c :: cs).length = b ++ rest := by
    rw [List.append_assoc, ← List.cons_append, List.drop_left]
  have hl' : Lexes ((c :: (cs ++ b ++ rest)).drop (c :: cs).length) (us ++ vs) := by
    rw [hdrop]
    exact hb rest vs hrest hl
  exact .token (h rest hrest) hl'

theorem single {c : Char} {cs v : List Char} {k : Kind}
    (h : ∀ rest, Apart rest →
      Lexeme.front? c (cs ++ rest) = some (.token k v (c :: cs).length)) :
    Spells (c :: cs) [(k, String.ofList v)] := by
  have ht : Spells (c :: cs ++ []) [(k, String.ofList v)] := token (by simpa using h) nil
  simpa using ht

end Spells

/-- Texts with blanks between them are read one after the other. -/
theorem Spaced.spells {α : Type} {text : α → List Char → Prop}
    {tokens : α → List (Kind × String) → Prop} {as : List α} {cs : List Char}
    (h : Spaced text as cs)
    (hread : ∀ a ∈ as, ∀ cs, text a cs → ∃ ts, tokens a ts ∧ Spells cs ts) :
    ∃ ts, Joined tokens as ts ∧ Spells cs ts := by
  induction h with
  | nil hgap =>
      refine ⟨[], .nil, ?_⟩
      simpa using Spells.nil.blanks hgap
  | @cons a as gap cs rest hgap hfirst _ hapart ih =>
      obtain ⟨ts, hts, hcs⟩ := hread a (by simp) cs hfirst
      obtain ⟨us, hus, hrest⟩ := ih fun b hb => hread b (by simp [hb])
      exact ⟨ts ++ us, .cons hts hus, (hcs.append hrest hapart).blanks hgap⟩

/-! ### Numbers -/

theorem digitsWidth_front {ds rest : List Char} (hd : ∀ d ∈ ds, d.isDigit = true)
    (hrest : ∀ c ∈ rest.head?, c.isDigit = false) : digitsWidth (ds ++ rest) = ds.length := by
  rw [digitsWidth, takeWhile_front hd hrest]

/-- A numeral ends where neither a digit nor a point comes after it. -/
theorem numberWidth_front {cs rest : List Char} (h : IsNumeral cs)
    (hrest : ∀ c ∈ rest.head?, c.isDigit = false ∧ c ≠ '.') :
    numberWidth (cs ++ rest) = cs.length := by
  have hdigit : ∀ c ∈ rest.head?, c.isDigit = false := fun c hc => (hrest c hc).1
  cases h with
  | whole _ hd =>
      unfold numberWidth
      simp only [digitsWidth_front hd hdigit, List.drop_left]
      split
      · exact absurd rfl (hrest '.' (by simp)).2
      · rfl
  | @point ds es _ hd hne he =>
      have hpoint : ∀ c ∈ ('.' :: (es ++ rest)).head?, c.isDigit = false := by simp
      have hes : es.length ≠ 0 := fun h => hne (List.length_eq_zero_iff.mp h)
      unfold numberWidth
      simp only [List.append_assoc, List.cons_append, digitsWidth_front hd hpoint, List.drop_left,
        digitsWidth_front he hdigit, hes, if_false, List.length_append, List.length_cons]
      omega

theorem spells_numeral {cs : List Char} (h : IsNumeral cs) :
    Spells cs [(.number, String.ofList cs)] := by
  obtain ⟨d, ds, rfl, hd⟩ := h.head
  refine .single fun rest hrest => ?_
  have hnext : ∀ c ∈ rest.head?, c.isDigit = false ∧ c ≠ '.' := by
    intro c hc
    refine ⟨hrest.notMem (fun _ => isBlank_of_isDigit) c hc, ?_⟩
    rintro rfl
    exact hrest.head?_ne (by decide) hc
  rw [Lexeme.front?_digit hd, Lexeme.verbatim, ← List.cons_append, numberWidth_front h hnext,
    List.take_left]

/-! ### Words -/

/-- A word: letters, digits, underscores and hyphens after a letter or an underscore.  An at sign
may stand in front of such characters, or of digits alone. -/
inductive IsWord : List Char → Prop
  | plain {c : Char} {cs : List Char} (hc : isWordStart c = true)
      (hcs : ∀ d ∈ cs, isWordChar d = true) : IsWord (c :: cs)
  | marked {cs : List Char} (hcs : ∀ d ∈ cs, isWordChar d = true)
      (hhead : ∀ d ∈ cs.head?, d.isDigit = false) : IsWord ('@' :: cs)
  | hierarchy {ds : List Char} (hne : ds ≠ []) (hds : ∀ d ∈ ds, d.isDigit = true) :
      IsWord ('@' :: ds)

theorem isWord_iff {c : Char} {cs : List Char} :
    IsWord (c :: cs) ↔ (isWordStart c = true ∧ cs.all isWordChar = true) ∨
      (c = '@' ∧ ((cs.all isWordChar = true ∧ cs.head?.any Char.isDigit = false) ∨
        (cs ≠ [] ∧ cs.all Char.isDigit = true))) := by
  simp only [List.all_eq_true, Option.any_eq_false]
  constructor
  · intro h
    cases h with
    | plain hc hcs => exact .inl ⟨hc, hcs⟩
    | marked hcs hhead => exact .inr ⟨rfl, .inl ⟨hcs, by simpa using hhead⟩⟩
    | hierarchy hne hds => exact .inr ⟨rfl, .inr ⟨hne, hds⟩⟩
  · rintro (⟨hc, hcs⟩ | ⟨rfl, ⟨hcs, hhead⟩ | ⟨hne, hds⟩⟩)
    · exact .plain hc hcs
    · exact .marked hcs (by simpa using hhead)
    · exact .hierarchy hne hds

instance : DecidablePred IsWord
  | [] => isFalse nofun
  | _ :: _ => decidable_of_iff _ isWord_iff.symm

/-- An identifier: a word that is no keyword and no section mark. -/
def IsName (w : String) : Prop := IsWord w.toList ∧ wordKind w.toList = .identifier

instance : DecidablePred IsName := fun w =>
  inferInstanceAs (Decidable (IsWord w.toList ∧ wordKind w.toList = .identifier))

theorem isWordChar_of_isDigit {c : Char} (h : c.isDigit = true) : isWordChar c = true := by
  simp [isWordChar, h]

theorem isWordChar_of_isWordStart {c : Char} (h : isWordStart c = true) : isWordChar c = true := by
  simp [isWordChar, h]

/-- The characters of a word. -/
theorem IsWord.mem {cs : List Char} (h : IsWord cs) {c : Char} (hc : c ∈ cs) :
    isWordChar c = true ∨ c = '@' := by
  cases h with
  | plain hd hcs =>
      rcases List.mem_cons.mp hc with rfl | hc
      · exact .inl (isWordChar_of_isWordStart hd)
      · exact .inl (hcs c hc)
  | marked hcs _ =>
      rcases List.mem_cons.mp hc with rfl | hc
      · exact .inr rfl
      · exact .inl (hcs c hc)
  | hierarchy _ hds =>
      rcases List.mem_cons.mp hc with rfl | hc
      · exact .inr rfl
      · exact .inl (isWordChar_of_isDigit (hds c hc))

/-- A word ends where no character of a word comes after it. -/
theorem wordWidth_front {cs rest : List Char} (h : IsWord cs)
    (hrest : ∀ c ∈ rest.head?, isWordChar c = false) : wordWidth (cs ++ rest) = cs.length := by
  have hdigit : ∀ c ∈ rest.head?, c.isDigit = false := by
    intro c hc
    refine Bool.eq_false_iff.mpr fun hd => ?_
    have hw := hrest c hc
    rw [isWordChar_of_isDigit hd] at hw
    cases hw
  cases h with
  | @plain c cs hc hcs =>
      have hat : c ≠ '@' := by
        rintro rfl
        cases hc
      have hall : ∀ d ∈ c :: cs, isWordChar d = true := by
        simpa using ⟨isWordChar_of_isWordStart hc, hcs⟩
      rw [List.cons_append, wordWidth, if_neg hat, ← List.cons_append, takeWhile_front hall hrest]
  | @marked cs hcs hhead =>
      have hzero : digitsWidth (cs ++ rest) = 0 := by
        have hnone : ∀ c ∈ (cs ++ rest).head?, c.isDigit = false := by
          cases cs with
          | nil => simpa using hdigit
          | cons d cs => simpa using hhead
        have hnil : ∀ d ∈ ([] : List Char), d.isDigit = true := by simp
        exact digitsWidth_front hnil hnone
      rw [List.cons_append, wordWidth, if_pos rfl, if_pos hzero, takeWhile_front hcs hrest,
        List.length_cons, Nat.add_comm]
  | @hierarchy ds hne hds =>
      have hlen : digitsWidth (ds ++ rest) = ds.length := digitsWidth_front hds hdigit
      have hpos : ds.length ≠ 0 := fun h => hne (List.length_eq_zero_iff.mp h)
      rw [List.cons_append, wordWidth, if_pos rfl, hlen, if_neg hpos, List.length_cons,
        Nat.add_comm]

theorem IsWord.head {cs : List Char} (h : IsWord cs) :
    ∃ c ds, cs = c :: ds ∧ (isWordStart c = true ∨ c = '@') := by
  cases h with
  | plain hc _ => exact ⟨_, _, rfl, .inl hc⟩
  | marked _ _ => exact ⟨_, _, rfl, .inr rfl⟩
  | hierarchy _ _ => exact ⟨_, _, rfl, .inr rfl⟩

theorem spells_word {cs : List Char} (h : IsWord cs) :
    Spells cs [(wordKind cs, String.ofList cs)] := by
  obtain ⟨c, ds, rfl, hc⟩ := h.head
  refine .single fun rest hrest => ?_
  have hnext : ∀ c ∈ rest.head?, isWordChar c = false :=
    hrest.notMem fun _ => isBlank_of_isWordChar
  rw [Lexeme.front?_word hc, Lexeme.verbatim, ← List.cons_append, wordWidth_front h hnext,
    List.take_left]

theorem spells_name {w : String} (h : IsName w) : Spells w.toList [(.identifier, w)] := by
  have hw := spells_word h.1
  rwa [h.2, String.ofList_toList] at hw

/-! ### Marks -/

theorem spells_mark {c : Char} {k : Kind} (h : Kind.ofMark? c = some k) :
    Spells [c] [(k, String.ofList [c])] := by
  refine .single fun rest hrest => ?_
  exact Lexeme.front?_mark h (hrest.head?_ne (by decide))

/-! ### Strings -/

/-- A character inside double quotes. -/
def escape (c : Char) : List Char := if c = '\\' ∨ c = '"' then ['\\', c] else [c]

/-- A text in double quotes. -/
def quoted (cs : List Char) : List Char := '"' :: (cs.flatMap escape ++ ['"'])

theorem stringTail_escape (cs rest : List Char) :
    stringTail '"' (cs.flatMap escape ++ '"' :: rest) = (cs, (cs.flatMap escape).length + 1) := by
  induction cs with
  | nil =>
      rw [List.flatMap_nil, List.nil_append, stringTail.eq_def]
      simp
  | cons c cs ih =>
      rw [List.flatMap_cons, List.append_assoc]
      by_cases hc : c = '\\' ∨ c = '"'
      · have hu : unescape c = c := by rcases hc with rfl | rfl <;> rfl
        rw [escape, if_pos hc, List.cons_append, List.cons_append, List.nil_append,
          stringTail.eq_def]
        simp only
        rw [if_neg (by decide), if_pos trivial]
        simp only [ih, hu, List.length_append, List.length_cons, List.length_nil]
        rw [Prod.mk.injEq]
        exact ⟨rfl, by omega⟩
      · obtain ⟨hback, hquote⟩ := not_or.mp hc
        rw [escape, if_neg hc, List.cons_append, List.nil_append, stringTail.eq_def]
        simp only
        rw [if_neg hquote, if_neg hback]
        simp only [ih, List.length_append, List.length_cons, List.length_nil]
        rw [Prod.mk.injEq]
        exact ⟨rfl, by omega⟩

theorem spells_string (s : String) : Spells (quoted s.toList) [(.string, s)] := by
  have hs : Spells (quoted s.toList) [(.string, String.ofList s.toList)] := by
    refine .single fun rest _ => ?_
    rw [Lexeme.front?_quote]
    simp only [stringFront, List.append_assoc, List.cons_append, List.nil_append,
      stringTail_escape, List.length_append, List.length_cons, List.length_nil]
  rwa [String.ofList_toList] at hs

/-! ### Colors -/

theorem isHexDigit_iff {c : Char} : c.isHexDigit = true ↔ c.isDigit = true ∨
    (97 ≤ c.toNat ∧ c.toNat ≤ 102) ∨ (65 ≤ c.toNat ∧ c.toNat ≤ 70) := by
  have h : c.isHexDigit = (c.isDigit || (decide ((97 : UInt32) ≤ c.val) && decide (c.val ≤ 102)) ||
      (decide ((65 : UInt32) ≤ c.val) && decide (c.val ≤ 70))) := rfl
  simp only [h, Bool.or_eq_true, Bool.and_eq_true, decide_eq_true_eq, UInt32.le_iff_toNat_le,
    or_assoc]
  exact Iff.rfl

theorem isWordStart_of_isHexDigit {c : Char} (h : c.isHexDigit = true) (hd : c.isDigit = false) :
    isWordStart c = true := by
  have hc : c.isAlpha = true := by
    have hrange := (isHexDigit_iff.mp h).resolve_left (Bool.eq_false_iff.mp hd)
    rw [isAlpha_iff]
    omega
  simp [isWordStart, hc]

theorem isWordChar_of_isHexDigit {c : Char} (h : c.isHexDigit = true) : isWordChar c = true := by
  by_cases hd : c.isDigit = true
  · exact isWordChar_of_isDigit hd
  · exact isWordChar_of_isWordStart (isWordStart_of_isHexDigit h (by simpa using hd))

/-- No keyword is made of hexadecimal digits. -/
theorem wordKind_hex {cs : List Char} (h : ∀ c ∈ cs, c.isHexDigit = true) :
    wordKind cs = .identifier := by
  have hwords : ∀ e ∈ Kind.words, e.1.toList.all Char.isHexDigit = false := by decide
  have hfree : Kind.ofWord (String.ofList cs) = .identifier := by
    rcases Kind.ofWord_cases (String.ofList cs) with hk | hk
    · exact hk
    · have hall := hwords _ hk
      rw [String.toList_ofList, List.all_eq_true.mpr h] at hall
      cases hall
  unfold wordKind
  split
  · next d ds =>
      have hat := h '@' (by simp)
      cases hat
  · exact hfree

/-- The tokens that the digits of a color fall apart into. -/
structure HexParts (cs : List Char) (ts : List (Kind × String)) : Prop where
  kinds : ∀ t ∈ ts, t.1 ∈ [Kind.number, .identifier]
  join : ts.flatMap (·.2.toList) = cs

theorem HexParts.cons {ds cs : List Char} {k : Kind} {ts : List (Kind × String)}
    (hk : k ∈ [Kind.number, .identifier]) (h : HexParts cs ts) :
    HexParts (ds ++ cs) ((k, String.ofList ds) :: ts) := by
  refine ⟨fun t ht => ?_, ?_⟩
  · rcases List.mem_cons.mp ht with rfl | ht
    · exact hk
    · exact h.kinds t ht
  · rw [List.flatMap_cons, h.join, String.toList_ofList]

/-- One token of a color: the longest run of a class of characters. -/
theorem spells_hex_run {p : Char → Bool} {k : Kind} {c : Char} {cs : List Char}
    (hk : k ∈ [Kind.number, .identifier]) (hc : p c = true)
    (hp : ∀ d, p d = true → Text.isBlank d = false)
    (hcs : ∀ d ∈ c :: cs, d.isHexDigit = true ∨ Text.isBlank d = true)
    (htoken : ∀ ds rest, (∀ d ∈ c :: ds, p d = true ∧ d.isHexDigit = true) →
      (∀ d ∈ rest.head?, p d = false ∧ d ≠ '.') →
      Lexeme.front? c (ds ++ rest) = some (.token k (c :: ds) (c :: ds).length))
    (htail : ∃ ts, Spells (cs.dropWhile p) ts ∧
      HexParts ((cs.dropWhile p).filter (!Text.isBlank ·)) ts) :
    ∃ ts, Spells (c :: cs) ts ∧ HexParts ((c :: cs).filter (!Text.isBlank ·)) ts := by
  obtain ⟨ts, hts, hparts⟩ := htail
  have hsplit : c :: cs = (c :: cs.takeWhile p) ++ cs.dropWhile p := by simp
  have hrun : ∀ d ∈ c :: cs.takeWhile p, p d = true := by
    simpa using ⟨hc, fun d hd => List.all_eq_true.mp List.all_takeWhile d hd⟩
  have hhex : ∀ d ∈ c :: cs.takeWhile p, d.isHexDigit = true := by
    intro d hd
    have hmem : d ∈ c :: cs := by
      rw [hsplit]
      exact List.mem_append_left _ hd
    refine (hcs d hmem).resolve_right fun hb => ?_
    rw [hp d (hrun d hd)] at hb
    cases hb
  -- what comes after the run is a character of the color or is apart from it
  have hnext : ∀ rest, Apart rest → ∀ d ∈ (cs.dropWhile p ++ rest).head?, p d = false ∧ d ≠ '.' := by
    intro rest hrest d hd
    cases htail : cs.dropWhile p with
    | nil =>
        rw [htail] at hd
        refine ⟨hrest.notMem hp d hd, ?_⟩
        rintro rfl
        exact hrest.head?_ne (by decide) hd
    | cons e tail =>
        rw [htail] at hd
        cases hd
        have hnot := List.head?_dropWhile_not p cs
        rw [htail] at hnot
        refine ⟨hnot, ?_⟩
        rintro rfl
        have hmem : '.' ∈ c :: cs := by
          rw [hsplit, htail]
          simp
        exact absurd (hcs '.' hmem) (by decide)
  refine ⟨(k, String.ofList (c :: cs.takeWhile p)) :: ts, ?_, ?_⟩
  · rw [hsplit]
    refine .token (fun rest hrest => ?_) hts
    rw [List.append_assoc]
    exact htoken _ _ (fun d hd => ⟨hrun d hd, hhex d hd⟩) (hnext rest hrest)
  · have hfilter : (c :: cs.takeWhile p).filter (!Text.isBlank ·) = c :: cs.takeWhile p :=
      List.filter_eq_self.mpr fun d hd => by simp [hp d (hrun d hd)]
    rw [hsplit, List.filter_append, hfilter]
    exact hparts.cons hk

/-- Hexadecimal digits, with or without blanks, are read as numbers and identifiers. -/
theorem spells_hex {cs : List Char}
    (h : ∀ c ∈ cs, c.isHexDigit = true ∨ Text.isBlank c = true) :
    ∃ ts, Spells cs ts ∧ HexParts (cs.filter (!Text.isBlank ·)) ts := by
  generalize hm : cs.length = m
  induction m using Nat.strongRecOn generalizing cs with
  | ind m ih =>
      cases cs with
      | nil => exact ⟨[], .nil, by simp, rfl⟩
      | cons c cs =>
          have htail : ∀ p, ∃ ts, Spells (cs.dropWhile p) ts ∧
              HexParts ((cs.dropWhile p).filter (!Text.isBlank ·)) ts := by
            intro p
            have hsuffix : cs.dropWhile p <:+ cs := List.dropWhile_suffix p
            have hlt : (cs.dropWhile p).length < m := by
              have := hsuffix.length_le
              simp only [List.length_cons] at hm
              omega
            exact ih _ hlt (fun d hd => h d (List.mem_cons_of_mem c (hsuffix.subset hd))) rfl
          by_cases hblank : Text.isBlank c = true
          · obtain ⟨ts, hts, hparts⟩ := ih cs.length (by simp [← hm])
              (fun d hd => h d (by simp [hd])) rfl
            have hgap : ∀ d ∈ [c], Text.isBlank d = true := by simpa using hblank
            exact ⟨ts, hts.blanks hgap, by simpa [hblank] using hparts⟩
          · have hhex := (h c (by simp)).resolve_right hblank
            by_cases hd : c.isDigit = true
            · refine spells_hex_run (p := Char.isDigit) (k := .number) (by simp) hd
                (fun _ => isBlank_of_isDigit) h (fun ds rest hds hrest => ?_) (htail _)
              have hnum : IsNumeral (c :: ds) := .whole (by simp) fun d hd => (hds d hd).1
              rw [Lexeme.front?_digit hd, Lexeme.verbatim, ← List.cons_append,
                numberWidth_front hnum hrest, List.take_left]
            · have hstart := isWordStart_of_isHexDigit hhex (by simpa using hd)
              refine spells_hex_run (p := isWordChar) (k := .identifier) (by simp)
                (isWordChar_of_isWordStart hstart) (fun _ => isBlank_of_isWordChar) h
                (fun ds rest hds hrest => ?_) (htail _)
              have hword : IsWord (c :: ds) := .plain hstart fun d hd => (hds d (by simp [hd])).1
              rw [Lexeme.front?_word (.inl hstart), Lexeme.verbatim, ← List.cons_append,
                wordWidth_front hword fun d hd => (hrest d hd).1, List.take_left,
                wordKind_hex fun d hd => (hds d hd).2]

end FloorPlan
