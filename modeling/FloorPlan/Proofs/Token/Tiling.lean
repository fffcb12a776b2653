import FloorPlan.Proofs.Token.Order
import FloorPlan.Proofs.Token.Spelling

/-! # Tokens and gaps make up the source

The text between two tokens is a gap: blanks and closed comments.  Only the gap at the end of a
source may end with a comment that is not closed.  `Tiles cs i ts` says that the text `cs` is made
up, from the offset `i` on, of gaps and the tokens `ts`.  The cursor reads such tokens
(`Cursor.tiles_tokens`), and the tokens of a source tile it from its start (`tokenize_tiling`). -/

namespace FloorPlan

/-! ### Gaps -/

/-- Blanks and closed comments. -/
inductive IsGap : List Char → Prop
  | nil : IsGap []
  | blank {c : Char} {cs : List Char} (hc : Text.isBlank c = true) (hcs : IsGap cs) : IsGap (c :: cs)
  | comment {body cs : List Char} (hbody : ¬ ['*', '/'] <:+: body) (hcs : IsGap cs) :
      IsGap ('/' :: '*' :: (body ++ '*' :: '/' :: cs))

/-- A comment that is not closed. -/
def IsOpenComment (cs : List Char) : Prop := ∃ body, cs = '/' :: '*' :: body ∧ ¬ ['*', '/'] <:+: body

/-- A gap that may end with a comment that is not closed. -/
def IsLastGap (cs : List Char) : Prop :=
  ∃ gap tail, cs = gap ++ tail ∧ IsGap gap ∧ (tail = [] ∨ IsOpenComment tail)

namespace IsGap

variable {as bs : List Char}

theorem append (ha : IsGap as) (hb : IsGap bs) : IsGap (as ++ bs) := by
  induction ha with
  | nil => exact hb
  | blank hc _ ih => exact .blank hc ih
  | @comment body cs hbody _ ih =>
      have hassoc : '/' :: '*' :: (body ++ '*' :: '/' :: cs) ++ bs =
          '/' :: '*' :: (body ++ '*' :: '/' :: (cs ++ bs)) := by simp
      rw [hassoc]
      exact .comment hbody ih

theorem of_blanks (h : ∀ c ∈ as, Text.isBlank c = true) : IsGap as := by
  induction as with
  | nil => exact .nil
  | cons c as ih =>
      apply IsGap.blank
      · exact h c (by simp)
      · exact ih fun d hd => h d (by simp [hd])

theorem lastGap (h : IsGap as) : IsLastGap as := ⟨as, [], by simp, h, .inl rfl⟩

theorem append_lastGap (ha : IsGap as) (hb : IsLastGap bs) : IsLastGap (as ++ bs) := by
  obtain ⟨gap, tail, rfl, hgap, htail⟩ := hb
  exact ⟨as ++ gap, tail, by simp, ha.append hgap, htail⟩

end IsGap

theorem IsOpenComment.lastGap {cs : List Char} (h : IsOpenComment cs) : IsLastGap cs :=
  ⟨[], cs, rfl, .nil, .inr h⟩

/-! ### Comments -/

theorem not_closes_cons {c : Char} {cs : List Char} (h : ¬ ['*', '/'] <:+: c :: cs) :
    ¬ (c = '*' ∧ cs.head? = some '/') ∧ ¬ ['*', '/'] <:+: cs := by
  refine ⟨fun ⟨hc, hhead⟩ => h ?_, fun hcs => h ?_⟩
  · obtain ⟨ds, rfl⟩ := List.head?_eq_some_iff.mp hhead
    exact ⟨[], ds, by simp [hc]⟩
  · exact hcs.trans (List.suffix_cons c cs).isInfix

/-- A comment ends with the first closing mark. -/
theorem closingWidth_closed {body : List Char} (h : ¬ ['*', '/'] <:+: body) (rest : List Char) :
    closingWidth (body ++ '*' :: '/' :: rest) = body.length + 2 := by
  induction body with
  | nil => rfl
  | cons c body ih =>
      obtain ⟨hhead, hbody⟩ := not_closes_cons h
      have hopen : ¬ (c = '*' ∧ (body ++ '*' :: '/' :: rest).head? = some '/') := by
        cases body with
        | nil => simp
        | cons d body => simpa using hhead
      rw [List.cons_append, closingWidth, if_neg hopen, ih hbody, List.length_cons]
      omega

/-- The text of a comment is closed by a mark, or it takes the rest of the text. -/
theorem closingWidth_cases (cs : List Char) :
    (∃ body rest, cs = body ++ '*' :: '/' :: rest ∧ ¬ ['*', '/'] <:+: body ∧
      closingWidth cs = body.length + 2) ∨
    (¬ ['*', '/'] <:+: cs ∧ closingWidth cs = cs.length) := by
  induction cs with
  | nil => exact .inr ⟨by simp, rfl⟩
  | cons c cs ih =>
      by_cases hclose : c = '*' ∧ cs.head? = some '/'
      · obtain ⟨rfl, hhead⟩ := hclose
        obtain ⟨ds, rfl⟩ := List.head?_eq_some_iff.mp hhead
        exact .inl ⟨[], ds, rfl, by simp, rfl⟩
      · have hwidth : closingWidth (c :: cs) = 1 + closingWidth cs := by
          rw [closingWidth, if_neg hclose]
        -- a closing mark in `c :: body` that is not in `body` starts with `c`
        have hinner : ∀ ds, cs.head? = ds.head? ∨ ds = [] → ¬ ['*', '/'] <:+: ds →
            ¬ ['*', '/'] <:+: c :: ds := by
          intro ds hhead hds hc
          rcases List.infix_cons_iff.mp hc with hfront | hinner
          · obtain ⟨es, he⟩ := hfront
            cases he
            rcases hhead with hhead | hnil
            · exact hclose ⟨rfl, hhead⟩
            · cases hnil
          · exact hds hinner
        rcases ih with ⟨body, rest, rfl, hbody, hw⟩ | ⟨hcs, hw⟩
        · refine .inl ⟨c :: body, rest, rfl, hinner body ?_ hbody, ?_⟩
          · cases body with
            | nil => exact .inr rfl
            | cons d body => exact .inl rfl
          · rw [hwidth, hw, List.length_cons]
            omega
        · refine .inr ⟨hinner cs (.inl rfl) hcs, ?_⟩
          rw [hwidth, hw, List.length_cons]
          omega

/-- The front of a text that is no token is a gap, or a comment that takes the rest of the text. -/
theorem Lexeme.front?_gap {c : Char} {cs : List Char} {n : Nat} (h : front? c cs = some (.gap n)) :
    IsGap ((c :: cs).take n) ∨ (IsOpenComment (c :: cs) ∧ (c :: cs).drop n = []) := by
  unfold front? at h
  split at h
  · next hblank =>
      cases h
      left
      rw [Nat.add_comm, List.take_succ_cons,
        ← List.prefix_iff_eq_take.mp (List.takeWhile_prefix Text.isBlank)]
      exact .blank hblank (.of_blanks (List.all_eq_true.mp List.all_takeWhile))
  · split at h
    · next hopen =>
        cases h
        obtain ⟨rfl, hhead⟩ := hopen
        obtain ⟨ds, rfl⟩ := List.head?_eq_some_iff.mp hhead
        have hwidth : commentWidth ('/' :: '*' :: ds) = closingWidth ds + 2 := Nat.add_comm _ _
        rw [hwidth]
        rcases closingWidth_cases ds with ⟨body, rest, rfl, hbody, hw⟩ | ⟨hds, hw⟩
        · left
          have htext : body ++ '*' :: '/' :: rest = (body ++ ['*', '/']) ++ rest := by simp
          have hlen : body.length + 2 = (body ++ ['*', '/']).length := by simp
          rw [hw, List.take_succ_cons, List.take_succ_cons, htext, hlen, List.take_left]
          exact .comment hbody .nil
        · right
          refine ⟨⟨ds, rfl, hds⟩, ?_⟩
          rw [hw, List.drop_succ_cons, List.drop_succ_cons, List.drop_length]
    · split at h
      · cases h
      · split at h
        · cases h
        · split at h
          · cases h
          · obtain ⟨k, -, he⟩ := Option.map_eq_some_iff.1 h
            cases he

/-! ### Words -/

/-- The kinds of keywords and identifiers. -/
def Kind.isWord (k : Kind) : Bool := k = .identifier || (Kind.words.map (·.2)).contains k

/-- The longest front of a class of characters ends before a character outside the class. -/
theorem head?_drop_takeWhile {p : Char → Bool} (cs : List Char) :
    ∀ d ∈ (cs.drop (cs.takeWhile p).length).head?, p d = false := by
  intro d hd
  have hsplit : cs.takeWhile p ++ cs.dropWhile p = cs := List.takeWhile_append_dropWhile
  have hdrop : (cs.takeWhile p ++ cs.dropWhile p).drop (cs.takeWhile p).length = cs.dropWhile p :=
    List.drop_left
  rw [hsplit] at hdrop
  have hnot := List.head?_dropWhile_not p cs
  rw [← hdrop, hd] at hnot
  exact hnot

theorem take_takeWhile_length {p : Char → Bool} (cs : List Char) :
    cs.take (cs.takeWhile p).length = cs.takeWhile p :=
  (List.prefix_iff_eq_take.mp (List.takeWhile_prefix p)).symm

/-- The word at the front of a text is as long as it can be, section marks apart. -/
theorem word_take {c : Char} {cs : List Char} (hc : isWordStart c = true ∨ c = '@') :
    IsWord ((c :: cs).take (wordWidth (c :: cs))) ∧
      (wordKind ((c :: cs).take (wordWidth (c :: cs))) = .hierarchy ∨
        ∀ d ∈ ((c :: cs).drop (wordWidth (c :: cs))).head?, isWordChar d = false) := by
  have hchars : ∀ d ∈ cs.takeWhile isWordChar, isWordChar d = true :=
    List.all_eq_true.mp List.all_takeWhile
  by_cases hat : c = '@'
  · subst hat
    by_cases hdigits : digitsWidth cs = 0
    · have hwidth : wordWidth ('@' :: cs) = (cs.takeWhile isWordChar).length + 1 := by
        rw [wordWidth, if_pos rfl, if_pos hdigits, Nat.add_comm]
      have hhead : ∀ d ∈ (cs.takeWhile isWordChar).head?, d.isDigit = false := by
        cases cs with
        | nil => simp
        | cons d ds =>
            cases hd : d.isDigit with
            | false => cases hw : isWordChar d <;> simp [hw, hd]
            | true => simp [digitsWidth, hd] at hdigits
      rw [hwidth, List.take_succ_cons, List.drop_succ_cons, take_takeWhile_length]
      exact ⟨.marked hchars hhead, .inr (head?_drop_takeWhile cs)⟩
    · have hwidth : wordWidth ('@' :: cs) = (cs.takeWhile Char.isDigit).length + 1 := by
        rw [wordWidth, if_pos rfl, if_neg hdigits, Nat.add_comm, digitsWidth]
      have hds : ∀ d ∈ cs.takeWhile Char.isDigit, d.isDigit = true :=
        List.all_eq_true.mp List.all_takeWhile
      have hne : cs.takeWhile Char.isDigit ≠ [] := fun hnil => hdigits (by simp [digitsWidth, hnil])
      rw [hwidth, List.take_succ_cons, take_takeWhile_length]
      obtain ⟨d, ds, he⟩ := List.exists_cons_of_ne_nil hne
      refine ⟨.hierarchy hne hds, .inl ?_⟩
      have hd := hds d (by simp [he])
      simp [he, wordKind, hd]
  · have hstart := hc.resolve_right hat
    have hwidth : wordWidth (c :: cs) = ((c :: cs).takeWhile isWordChar).length := by
      rw [wordWidth, if_neg hat]
    have hword : (c :: cs).takeWhile isWordChar = c :: cs.takeWhile isWordChar :=
      List.takeWhile_cons_of_pos (isWordChar_of_isWordStart hstart)
    rw [hwidth, take_takeWhile_length]
    exact ⟨by rw [hword]; exact .plain hstart hchars, .inr (head?_drop_takeWhile (c :: cs))⟩

/-! ### Slices -/

/-- The characters of a text between two offsets. -/
def slice (cs : List Char) (i j : Nat) : List Char := (cs.take j).drop i

/-- The cursor stands in the text `cs`, at the offset that its position names. -/
structure Cursor.In (cs : List Char) (c : Cursor) : Prop where
  text : c.past.reverse ++ c.rest = cs
  offset : c.pos.offset = c.past.length

namespace Cursor.In

variable {cs : List Char} {c : Cursor}

theorem ofSource (source : String) : (Cursor.ofSource source).In source.toList := ⟨rfl, rfl⟩

theorem move (h : c.In cs) (n : Nat) : (c.move n).In cs := by
  constructor
  · rw [← h.text]
    simp [Cursor.move]
  · rw [move_offset, h.offset]
    simp [Cursor.move]
    omega

theorem drop_eq (h : c.In cs) : cs.drop c.pos.offset = c.rest := by
  rw [← h.text, h.offset, ← List.length_reverse, List.drop_left]

theorem length_eq (h : c.In cs) : cs.length = c.pos.offset + c.rest.length := by
  rw [← h.text, h.offset, List.length_append, List.length_reverse]

/-- The text that a move goes over. -/
theorem slice_move (h : c.In cs) (n : Nat) :
    slice cs c.pos.offset (c.move n).pos.offset = c.rest.take n := by
  rw [slice, List.drop_take, h.drop_eq, move_offset, Nat.add_sub_cancel_left, List.take_eq_take_iff]
  omega

end Cursor.In

theorem slice_append {cs : List Char} {i j k : Nat} (hij : i ≤ j) (hjk : j ≤ k) :
    slice cs i k = slice cs i j ++ slice cs j k := by
  have hwidth : k - i = (j - i) + (k - j) := by omega
  have hstart : i + (j - i) = j := by omega
  unfold slice
  rw [List.drop_take, List.drop_take, List.drop_take, hwidth, List.take_add, List.drop_drop, hstart]

/-! ### Tokens in their places -/

/-- The token `t` stands in the text `cs`. -/
structure Token.Stands (cs : List Char) (t : Token) : Prop where
  /-- It takes at least one character. -/
  wide : t.start.offset < t.stop.offset
  /-- It is no gap and does not end the input. -/
  proper : t.kind ∉ [Kind.blank, .comment, .endOfInput]
  /-- Its value is the text between its ends, strings apart. -/
  verbatim : t.kind ≠ .string → t.value.toList = slice cs t.start.offset t.stop.offset
  /-- A string starts with a quotation mark. -/
  quoted : t.kind = .string →
    ∃ q, (slice cs t.start.offset t.stop.offset).head? = some q ∧ isQuote q = true
  /-- No character of a word comes after a word. -/
  whole : t.kind.isWord = true → ∀ c ∈ (cs.drop t.stop.offset).head?, isWordChar c = false

theorem wordKind_ne_string (w : List Char) : wordKind w ≠ .string := by
  have hwords : ∀ e ∈ Kind.words, e.2 ≠ .string := by decide
  rcases wordKind_cases w with h | h | h
  · rw [h]; decide
  · rw [h]; decide
  · exact hwords _ h

theorem ofMark?_plain {c : Char} {k : Kind} (h : Kind.ofMark? c = some k) :
    k ≠ .string ∧ k.isWord = false := by
  have hmarks : ∀ e ∈ Kind.marks, e.2 ≠ .string ∧ e.2.isWord = false := by decide
  exact hmarks _ (Kind.mem_of_lookup h)

namespace Cursor

variable {cs : List Char} {c : Cursor} {ts : List Token}

/-- A token that the cursor reads stands in the text. -/
theorem stands_scan {ch : Char} {rest v : List Char} {k : Kind} {n : Nat} (hc : c.In cs)
    (hr : c.rest = ch :: rest) (hf : Lexeme.front? ch rest = some (.token k v n)) :
    (c.scan k v n).1.Stands cs := by
  have hn : 0 < n := Lexeme.width_pos hf
  have hslice : slice cs c.pos.offset (c.move n).pos.offset = (ch :: rest).take n := by
    rw [hc.slice_move, hr]
  have hnext : cs.drop (c.move n).pos.offset = (ch :: rest).drop n := by
    rw [(hc.move n).drop_eq, move_rest, hr]
  constructor
  · show c.pos.offset < (c.move n).pos.offset
    rw [move_offset, hr, List.length_cons]
    omega
  · exact (regular_of_front? hf).proper
  · intro hk
    show (String.ofList v).toList = slice cs c.pos.offset (c.move n).pos.offset
    rw [hslice, String.toList_ofList]
    rcases Lexeme.front?_token hf with ⟨-, hs⟩ | ⟨-, -, -, hv⟩ | ⟨-, -, -, hv⟩ | ⟨-, rfl, rfl⟩
    · exact absurd hs hk
    · exact hv
    · exact hv
    · rfl
  · intro hk
    show ∃ q, (slice cs c.pos.offset (c.move n).pos.offset).head? = some q ∧ _
    obtain ⟨m, rfl⟩ := Nat.exists_eq_succ_of_ne_zero (Nat.pos_iff_ne_zero.mp hn)
    rw [hslice, List.take_succ_cons]
    have hk' : k = .string := hk
    rcases Lexeme.front?_token hf with ⟨hq, -⟩ | ⟨-, hnum, -⟩ | ⟨-, hword, -⟩ | ⟨hmark, -⟩
    · exact ⟨ch, rfl, hq⟩
    · rw [hnum] at hk'
      cases hk'
    · exact absurd (hword.symm.trans hk') (wordKind_ne_string v)
    · exact absurd hk' (ofMark?_plain hmark).1
  · intro hword
    show ∀ d ∈ (cs.drop (c.move n).pos.offset).head?, _
    have hword' : k.isWord = true := hword
    rw [hnext]
    rcases Lexeme.front?_token hf with ⟨-, rfl⟩ | ⟨-, rfl, -⟩ | ⟨hstart, hk, rfl, rfl⟩ | ⟨hmark, -⟩
    · cases hword'
    · cases hword'
    · refine (word_take hstart).2.resolve_left fun hh => ?_
      rw [hk, hh] at hword'
      cases hword'
    · rw [(ofMark?_plain hmark).2] at hword'
      cases hword'

end Cursor

/-! ### Tiles -/

/-- From the offset `i` on, the text `cs` is made of gaps and of the tokens `ts`, the ending token
last. -/
inductive Tiles (cs : List Char) : Nat → List Token → Prop
  | ending {i : Nat} {p : Position} (hp : p.offset = cs.length) (hle : i ≤ cs.length)
      (hgap : IsLastGap (slice cs i cs.length)) : Tiles cs i [Token.ending p]
  | token {i : Nat} {t : Token} {ts : List Token} (hle : i ≤ t.start.offset)
      (hgap : IsGap (slice cs i t.start.offset)) (first : t.Stands cs)
      (others : Tiles cs t.stop.offset ts) : Tiles cs i (t :: ts)

namespace Tiles

variable {cs : List Char} {i j : Nat} {t u : Token} {ts : List Token}

/-- A gap in front changes nothing. -/
theorem gap (h : Tiles cs j ts) (hij : i ≤ j) (hgap : IsGap (slice cs i j)) : Tiles cs i ts := by
  cases h with
  | ending hp hle hlast =>
      refine .ending hp (by omega) ?_
      rw [slice_append hij hle]
      exact hgap.append_lastGap hlast
  | token hle hfirst hstands hothers =>
      refine .token (by omega) ?_ hstands hothers
      rw [slice_append hij hle]
      exact hgap.append hfirst

/-- A token stands in the text, or it is the ending token. -/
theorem mem (h : Tiles cs i ts) (ht : t ∈ ts) :
    t.Stands cs ∨ ∃ p : Position, p.offset = cs.length ∧ t = Token.ending p := by
  induction h with
  | ending hp =>
      rw [List.mem_singleton] at ht
      exact .inr ⟨_, hp, ht⟩
  | token _ _ hstands _ ih =>
      rcases List.mem_cons.mp ht with rfl | ht
      · exact .inl hstands
      · exact ih ht

/-- Only the last token ends the input. -/
theorem split (h : Tiles cs i ts) : ∃ body p, ts = body ++ [Token.ending p] ∧
    p.offset = cs.length ∧ ∀ t ∈ body, t.Stands cs := by
  induction h with
  | @ending _ p hp => exact ⟨[], p, rfl, hp, by simp⟩
  | @token _ t ts _ _ hstands _ ih =>
      obtain ⟨body, p, rfl, hp, hbody⟩ := ih
      refine ⟨t :: body, p, rfl, hp, fun u hu => ?_⟩
      rcases List.mem_cons.mp hu with rfl | hu
      · exact hstands
      · exact hbody u hu

end Tiles

/-- From the offset `i` to the token `t` there is a gap. Before the ending token it may end with a
comment that is not closed. -/
def GapBefore (cs : List Char) (i : Nat) (t : Token) : Prop :=
  if t.kind = .endOfInput then IsLastGap (slice cs i t.start.offset)
  else IsGap (slice cs i t.start.offset)

namespace Tiles

variable {cs : List Char} {i : Nat} {t u : Token} {ts : List Token}

theorem gapBefore (h : Tiles cs i (t :: ts)) : GapBefore cs i t := by
  unfold GapBefore
  cases h with
  | @ending _ p hp _ hgap =>
      have hkind : (Token.ending p).kind = .endOfInput := rfl
      rw [if_pos hkind]
      show IsLastGap (slice cs i p.offset)
      rwa [hp]
  | token _ hgap hstands _ =>
      have hkind : t.kind ≠ .endOfInput := fun he => hstands.proper (by simp [he])
      rwa [if_neg hkind]

/-- Between two tokens there is a gap. -/
theorem gapBetween {before after : List Token} (h : Tiles cs i (before ++ t :: u :: after)) :
    GapBefore cs t.stop.offset u := by
  induction before generalizing i with
  | nil =>
      cases h with
      | token _ _ _ hothers => exact hothers.gapBefore
  | cons b before ih =>
      rw [List.cons_append] at h
      generalize hts : before ++ t :: u :: after = ts at h
      cases h with
      | ending => simp at hts
      | token _ _ _ hothers =>
          subst hts
          exact ih hothers

end Tiles

namespace Cursor

variable {cs : List Char} {c : Cursor} {ts : List Token}

/-- The tokens ahead of the cursor and the gaps between them make up the text from there on. -/
theorem tiles_tokens (hc : c.In cs) (h : c.tokens.1 = .ok ts) : Tiles cs c.pos.offset ts := by
  generalize hm : c.rest.length = m
  induction m using Nat.strongRecOn generalizing c ts with
  | ind m ih =>
      have hlength := hc.length_eq
      have htail : slice cs c.pos.offset cs.length = c.rest := by
        rw [slice, List.take_length, hc.drop_eq]
      rcases tokens_cases h with ⟨hr, rfl⟩ | ⟨ch, rest, l, hr, hf, hl⟩
      · rw [hr, List.length_nil] at hlength
        refine .ending (by omega) (by omega) ?_
        rw [htail, hr]
        exact IsGap.nil.lastGap
      · have hw := Lexeme.width_pos hf
        rcases hl with ⟨n, rfl, ht⟩ | ⟨k, v, n, us, rfl, ht, rfl⟩
        · have hn : 0 < n := hw
          have hmove := move_offset c n
          rcases Lexeme.front?_gap hf with hgap | ⟨hopen, hdrop⟩
          · have hlt : (c.move n).rest.length < m := by
              rw [move_rest, List.length_drop, hr, List.length_cons]
              rw [hr, List.length_cons] at hm
              omega
            refine (ih _ hlt (hc.move n) ht rfl).gap (by omega) ?_
            rwa [hc.slice_move, hr]
          · -- a comment that is not closed takes the rest of the text
            have hend : (c.move n).rest = [] := by rw [move_rest, hr, hdrop]
            have hstop := (hc.move n).length_eq
            rw [tokens_nil hend] at ht
            cases ht
            rw [hend, List.length_nil] at hstop
            refine .ending (by omega) (by omega) ?_
            rw [htail, hr]
            exact hopen.lastGap
        · have hn : 0 < n := hw
          have hlt : (c.scan k v n).2.rest.length < m := by
            rw [scan_rest, List.length_drop, hr, List.length_cons]
            rw [hr, List.length_cons] at hm
            omega
          refine .token (Nat.le_refl _) ?_ (stands_scan hc hr hf) (ih _ hlt (hc.move n) ht rfl)
          show IsGap (slice cs c.pos.offset c.pos.offset)
          rw [slice, List.drop_eq_nil_of_le (List.length_take_le _ _)]
          exact .nil

end Cursor

/-! ### Sources -/

/-- How tokens make up a text. -/
structure Tiling (cs : List Char) (ts : List Token) : Prop where
  /-- The last token ends the input, stands at the end of the text, and is the only one to do so. -/
  ending : ∃ body last, ts = body ++ [last] ∧ last.kind = .endOfInput ∧
    last.start.offset = cs.length ∧ last.stop.offset = cs.length ∧
    ∀ t ∈ body, t.kind ≠ .endOfInput
  /-- Every other token takes at least one character. -/
  wide : ∀ t ∈ ts, t.kind ≠ .endOfInput → t.start.offset < t.stop.offset
  /-- The tokens come one after the other. -/
  ordered : ts.Pairwise fun t u => t.stop.offset ≤ u.start.offset
  /-- The value of a token is the text between its ends, strings apart. -/
  verbatim : ∀ t ∈ ts, t.kind ≠ .string → t.value.toList = slice cs t.start.offset t.stop.offset
  /-- A string starts with a quotation mark. -/
  quoted : ∀ t ∈ ts, t.kind = .string →
    ∃ q, (slice cs t.start.offset t.stop.offset).head? = some q ∧ isQuote q = true
  /-- No token is a gap. -/
  proper : ∀ t ∈ ts, t.kind ≠ .blank ∧ t.kind ≠ .comment
  /-- Before the first token there is a gap. -/
  gapFirst : ∀ t us, ts = t :: us → GapBefore cs 0 t
  /-- Between a token and the next one there is a gap. -/
  gapBetween : ∀ before t u after, ts = before ++ t :: u :: after → GapBefore cs t.stop.offset u
  /-- No character of a word comes after a keyword or an identifier. -/
  whole : ∀ t ∈ ts, t.kind.isWord = true →
    ∀ c ∈ (cs.drop t.stop.offset).head?, isWordChar c = false

/-- **Tokens tile the source**: every character of a source that can be lexed belongs to one token
or to one gap. -/
theorem tokenize_tiling {source : String} {ts : List Token} (h : tokenize source = .ok ts) :
    Tiling source.toList ts := by
  have htiles : Tiles source.toList 0 ts := Cursor.tiles_tokens (.ofSource source) h
  constructor
  · obtain ⟨body, p, rfl, hp, hbody⟩ := htiles.split
    exact ⟨body, Token.ending p, rfl, rfl, hp, hp, fun t ht he =>
      (hbody t ht).proper (by simp [he])⟩
  · intro t ht hkind
    rcases htiles.mem ht with hstands | ⟨p, -, rfl⟩
    · exact hstands.wide
    · exact absurd rfl hkind
  · exact (tokenize_ordered h).imp fun hbefore => hbefore.2
  · intro t ht hkind
    rcases htiles.mem ht with hstands | ⟨p, hp, rfl⟩
    · exact hstands.verbatim hkind
    · show [] = slice source.toList p.offset p.offset
      rw [slice, List.drop_eq_nil_of_le (List.length_take_le _ _)]
  · intro t ht hkind
    rcases htiles.mem ht with hstands | ⟨p, -, rfl⟩
    · exact hstands.quoted hkind
    · cases hkind
  · intro t ht
    rcases htiles.mem ht with hstands | ⟨p, -, rfl⟩
    · exact ⟨fun he => hstands.proper (by simp [he]), fun he => hstands.proper (by simp [he])⟩
    · exact ⟨nofun, nofun⟩
  · intro t us hts
    rw [hts] at htiles
    exact htiles.gapBefore
  · intro before t u after hts
    rw [hts] at htiles
    exact htiles.gapBetween
  · intro t ht hword
    rcases htiles.mem ht with hstands | ⟨p, -, rfl⟩
    · exact hstands.whole hword
    · cases hword

/-- A source with a comment glued to a mark and a comment at its end that is not closed, and a
source with a string that is not closed. -/
theorem tokenize_tiling_glued :
    (∃ ts, tokenize "@plan//**/x-1 @2a'b\\'';/*/" = .ok ts ∧
      Tiling "@plan//**/x-1 @2a'b\\'';/*/".toList ts) ∧
    ∃ ts, tokenize "\"never closed" = .ok ts ∧ Tiling "\"never closed".toList ts := by
  have hglued : (tokenize "@plan//**/x-1 @2a'b\\'';/*/").toOption.isSome = true := by decide +kernel
  have hopen : (tokenize "\"never closed").toOption.isSome = true := by decide +kernel
  have hok : ∀ source, (tokenize source).toOption.isSome = true → ∃ ts, tokenize source = .ok ts := by
    intro source hs
    cases ht : tokenize source with
    | error e => simp [ht, Except.toOption] at hs
    | ok ts => exact ⟨ts, rfl⟩
  obtain ⟨ts, hts⟩ := hok _ hglued
  obtain ⟨us, hus⟩ := hok _ hopen
  exact ⟨⟨ts, hts, tokenize_tiling hts⟩, us, hus, tokenize_tiling hus⟩

end FloorPlan
