import FloorPlan.Proofs.Token.Lexing
import FloorPlan.Proofs.Number.Numeral
import FloorPlan.Drawing.Parser

/-! # What the parser may rely on in the tokens of a source

`Lexeme.front?_token` lists the fronts that are tokens.  From it follows that every token of a
source is `Regular`: it counts for the grammar, it does not end the input, a number is a numeral,
the word between two sizes is `x`, and only words and strings look like it. -/

namespace FloorPlan

/-! ### Kinds of words and marks -/

namespace Kind

theorem mem_of_lookup {α β : Type} [BEq α] [LawfulBEq α] {a : α} {b : β} {l : List (α × β)}
    (h : l.lookup a = some b) : (a, b) ∈ l := by
  obtain ⟨l₁, l₂, rfl, -⟩ := List.lookup_eq_some_iff.mp h
  simp

/-- A word is an identifier or stands in the table. -/
theorem ofWord_cases (w : String) : ofWord w = .identifier ∨ (w, ofWord w) ∈ words := by
  unfold ofWord
  cases h : words.lookup w with
  | none => exact .inl rfl
  | some k => exact .inr (mem_of_lookup h)

end Kind

/-- A word is a section mark, an identifier or stands in the table. -/
theorem wordKind_cases (w : List Char) :
    wordKind w = .hierarchy ∨ wordKind w = .identifier ∨
      (String.ofList w, wordKind w) ∈ Kind.words := by
  have hw := Kind.ofWord_cases (String.ofList w)
  unfold wordKind
  split
  · split
    · exact .inl rfl
    · exact .inr hw
  · exact .inr hw

/-! ### The fronts that are tokens -/

namespace Lexeme

/-- A token is a string, a number, a word or a mark. -/
theorem front?_token {c : Char} {cs v : List Char} {k : Kind} {n : Nat}
    (h : front? c cs = some (.token k v n)) :
    (isQuote c = true ∧ k = .string) ∨
      (c.isDigit = true ∧ k = .number ∧ n = numberWidth (c :: cs) ∧ v = (c :: cs).take n) ∨
      ((isWordStart c = true ∨ c = '@') ∧ k = wordKind v ∧ n = wordWidth (c :: cs) ∧
        v = (c :: cs).take n) ∨
      (Kind.ofMark? c = some k ∧ v = [c] ∧ n = 1) := by
  unfold front? at h
  split at h
  · cases h
  · split at h
    · cases h
    · split at h
      · next hq => cases h; exact .inl ⟨hq, rfl⟩
      · split at h
        · next hd => cases h; exact .inr (.inl ⟨hd, rfl, rfl, rfl⟩)
        · split at h
          · next hw => cases h; exact .inr (.inr (.inl ⟨hw, rfl, rfl, rfl⟩))
          · obtain ⟨k', hk, he⟩ := Option.map_eq_some_iff.1 h
            cases he
            exact .inr (.inr (.inr ⟨hk, rfl, rfl⟩))

/-- The number at the front of a text is a numeral. -/
theorem isNumeral_take {c : Char} (h : c.isDigit = true) (cs : List Char) :
    IsNumeral ((c :: cs).take (numberWidth (c :: cs))) := by
  have hds : ∀ l : List Char, ∀ d ∈ l.takeWhile Char.isDigit, d.isDigit = true :=
    fun l => List.all_eq_true.mp List.all_takeWhile
  have htake : ∀ l : List Char, l.take (digitsWidth l) = l.takeWhile Char.isDigit :=
    fun l => (List.prefix_iff_eq_take.mp (List.takeWhile_prefix _)).symm
  have hpos := digitsWidth_pos h cs
  generalize c :: cs = l at hpos
  have hne : l.takeWhile Char.isDigit ≠ [] := List.ne_nil_of_length_pos hpos
  have hwhole : IsNumeral (l.take (digitsWidth l)) := by
    rw [htake]
    exact .whole hne (hds l)
  unfold numberWidth
  simp only
  split
  · next ds hdrop =>
      split
      · exact hwhole
      · next hz =>
          rw [Nat.add_assoc, List.take_add, hdrop, htake, Nat.add_comm 1, List.take_succ_cons, htake]
          exact .point hne (hds l) (fun e => hz (by rw [digitsWidth, e]; rfl)) (hds ds)
  · exact hwhole

end Lexeme

/-! ### Regular tokens -/

/-- What holds of the kind and value of every token of a source. -/
structure Regular (p : Kind × String) : Prop where
  /-- It is no gap and does not end the input. -/
  proper : p.1 ∉ [Kind.blank, .comment, .endOfInput]
  /-- A number is a numeral. -/
  numeral : p.1 = .number → IsNumeral p.2.toList
  /-- The word between two sizes is `x`. -/
  times : p.1 = .xWord → p.2 = "x"
  /-- Only words and strings have the text `x` or `X`. -/
  spelled : p.2 = "x" ∨ p.2 = "X" → p.1 ∈ [Kind.xWord, .identifier, .string]

theorem regular_of_word {v : List Char} : Regular (wordKind v, String.ofList v) := by
  have hspelled : String.ofList v = "x" ∨ String.ofList v = "X" →
      wordKind v ∈ [Kind.xWord, .identifier, .string] := by
    rintro (he | he)
    · have hv : v = ['x'] := String.ofList_inj.mp he
      rw [hv]
      decide
    · have hv : v = ['X'] := String.ofList_inj.mp he
      rw [hv]
      decide
  have hwords : ∀ e ∈ Kind.words, e.2 ∉ [Kind.blank, .comment, .endOfInput] ∧ e.2 ≠ .number ∧
      (e.2 = .xWord → e.1 = "x") := by
    decide
  rcases wordKind_cases v with hw | hw | hw
  · rw [hw] at hspelled ⊢
    exact ⟨by simp, nofun, nofun, hspelled⟩
  · rw [hw] at hspelled ⊢
    exact ⟨by simp, nofun, nofun, hspelled⟩
  · obtain ⟨hp, hn, ht⟩ := hwords _ hw
    exact ⟨hp, fun he => absurd he hn, ht, hspelled⟩

theorem regular_of_numeral {v : List Char} (h : IsNumeral v) :
    Regular (.number, String.ofList v) := by
  obtain ⟨d, ds, rfl, hd⟩ := h.head
  refine ⟨by simp, fun _ => by rwa [String.toList_ofList], nofun, ?_⟩
  rintro (he | he)
  · have hx : d :: ds = ['x'] := String.ofList_inj.mp he
    cases hx
    cases hd
  · have hx : d :: ds = ['X'] := String.ofList_inj.mp he
    cases hx
    cases hd

theorem regular_of_mark {c : Char} {k : Kind} (h : Kind.ofMark? c = some k) :
    Regular (k, String.ofList [c]) := by
  have hmarks : ∀ e ∈ Kind.marks, e.2 ∉ [Kind.blank, .comment, .endOfInput] ∧ e.2 ≠ .number ∧
      e.2 ≠ .xWord ∧ String.ofList [e.1] ≠ "x" ∧ String.ofList [e.1] ≠ "X" := by
    decide
  obtain ⟨hp, hn, hx, h₁, h₂⟩ := hmarks _ (Kind.mem_of_lookup h)
  exact ⟨hp, fun he => absurd he hn, fun he => absurd he hx, fun he => (he.elim h₁ h₂).elim⟩

theorem regular_of_front? {c : Char} {cs v : List Char} {k : Kind} {n : Nat}
    (h : Lexeme.front? c cs = some (.token k v n)) : Regular (k, String.ofList v) := by
  rcases Lexeme.front?_token h with
    ⟨-, rfl⟩ | ⟨hd, rfl, rfl, rfl⟩ | ⟨-, rfl, -, -⟩ | ⟨hk, rfl, -⟩
  · exact ⟨by simp, nofun, nofun, by simp⟩
  · exact regular_of_numeral (Lexeme.isNumeral_take hd cs)
  · exact regular_of_word
  · exact regular_of_mark hk

/-- Every token of a text is regular. -/
theorem Lexes.regular {cs : List Char} {ts : List (Kind × String)} (h : Lexes cs ts) :
    ∀ p ∈ ts, Regular p := by
  induction h with
  | nil => intro p hp; cases hp
  | gap _ _ ih => exact ih
  | token hf _ ih =>
      intro p hp
      rcases List.mem_cons.mp hp with rfl | hp
      · exact regular_of_front? hf
      · exact ih p hp

/-- The tokens of a source are regular, and the ending token comes after them. -/
theorem tokenize_regular {source : String} {ts : List Token} (h : tokenize source = .ok ts) :
    ∃ body p, ts = body ++ [Token.ending p] ∧ ∀ t ∈ body, Regular t.pair := by
  obtain ⟨body, p, he, hl⟩ := Cursor.lexes_of_tokens h
  exact ⟨body, p, he, fun t ht => hl.regular _ (List.mem_map_of_mem ht)⟩

end FloorPlan
