import FloorPlan.Proofs.Token.Positions

/-! # Characters that no token starts with

`Region` tells where a character stands, from the characters before it alone: in a string, in a
comment, or outside of both.  A text is clean if no stray character stands outside.  A token or a
gap is clean, and after it reading starts anew (`Lexeme.front?_clean`), so reading fails exactly at
the first stray character outside of strings and comments (`tokenize_eq_error_iff`).  Nothing after
that character matters. -/

namespace FloorPlan

/-- A character that is no blank and that no token starts with. -/
def isStray (c : Char) : Bool :=
  !(Text.isBlank c || isQuote c || c.isDigit || (isWordStart c || c = '@') ||
    (Kind.ofMark? c).isSome)

/-! ### Regions of a text -/

/-- Where the next character stands. -/
inductive Region where
  /-- Outside of strings and comments, right after a slash or not. -/
  | code (slash : Bool)
  /-- In a string with the given quotation mark. -/
  | string (quote : Char)
  /-- In a string, after a backslash. -/
  | escape (quote : Char)
  /-- In a comment, right after an asterisk of it or not. -/
  | comment (star : Bool)
  deriving DecidableEq, Repr

namespace Region

/-- The region after one more character. -/
def step : Region → Char → Region
  | code slash, c =>
    if slash && c = '*' then comment false else if isQuote c then string c else code (c = '/')
  | string q, c => if c = q then code false else if c = '\\' then escape q else string q
  | escape q, _ => string q
  | comment star, c => if star && c = '/' then code false else comment (c = '*')

/-- The region after more characters. -/
def run (r : Region) (cs : List Char) : Region := cs.foldl step r

/-- The region at the end of a text. -/
def after (cs : List Char) : Region := (code false).run cs

/-- Outside of strings and comments. -/
def isCode : Region → Bool
  | code _ => true
  | _ => false

/-- No stray character stands outside of strings and comments. -/
def clean : Region → List Char → Bool
  | _, [] => true
  | r, c :: cs => !(r.isCode && isStray c) && clean (r.step c) cs

@[simp] theorem run_nil (r : Region) : r.run [] = r := rfl

@[simp] theorem run_cons (r : Region) (c : Char) (cs : List Char) :
    r.run (c :: cs) = (r.step c).run cs := rfl

theorem run_append (r : Region) (as bs : List Char) : r.run (as ++ bs) = (r.run as).run bs := by
  simp [run]

@[simp] theorem clean_nil (r : Region) : r.clean [] = true := rfl

theorem clean_cons (r : Region) (c : Char) (cs : List Char) :
    r.clean (c :: cs) = (!(r.isCode && isStray c) && (r.step c).clean cs) := rfl

theorem clean_append (r : Region) (as bs : List Char) :
    r.clean (as ++ bs) = (r.clean as && (r.run as).clean bs) := by
  induction as generalizing r with
  | nil => simp
  | cons a as ih => simp [clean_cons, ih, Bool.and_assoc]

/-- The characters ahead are seen as from outside of strings and comments. -/
def Settled (r : Region) (cs : List Char) : Prop :=
  ∃ slash, r = code slash ∧ (slash = true → cs.head? ≠ some '*')

theorem Settled.of_code (cs : List Char) : (code false).Settled cs := ⟨false, rfl, nofun⟩

/-- A slash before the characters ahead makes no difference. -/
theorem Settled.eq {r : Region} {as bs : List Char} (h : r.Settled (as ++ bs)) :
    r.clean as = (code false).clean as ∧ (r.run as).isCode = (after as).isCode := by
  obtain ⟨slash, rfl, hslash⟩ := h
  cases as with
  | nil => exact ⟨rfl, rfl⟩
  | cons a as =>
      have hstep : (code slash).step a = (code false).step a := by
        cases slash with
        | false => rfl
        | true =>
            have ha : a ≠ '*' := fun he => hslash rfl (by simp [he])
            simp [step, ha]
      rw [clean_cons, clean_cons, after, run_cons, run_cons, hstep]
      exact ⟨rfl, rfl⟩

end Region

/-! ### Fronts are clean -/

/-- A character that goes on outside of strings and comments. -/
def isOrdinary (c : Char) : Bool := !isStray c && !isQuote c && c != '/'

namespace Region

theorem ordinary {cs : List Char} (h : ∀ c ∈ cs, isOrdinary c = true) :
    (code false).clean cs = true ∧ after cs = code false := by
  induction cs with
  | nil => exact ⟨rfl, rfl⟩
  | cons c cs ih =>
      have hc := h c (by simp)
      simp only [isOrdinary, Bool.and_eq_true, bne_iff_ne, Bool.not_eq_true'] at hc
      have hstep : (code false).step c = code false := by simp [step, hc]
      obtain ⟨hclean, hafter⟩ := ih fun d hd => h d (by simp [hd])
      rw [clean_cons, after, run_cons, hstep]
      exact ⟨by simp [hc.1.1, hclean], hafter⟩

/-- The text of a comment stays in it up to the first closing mark. -/
theorem comment_open {body : List Char} (star : Bool) (hstar : star = true → body.head? ≠ some '/')
    (h : ¬ ['*', '/'] <:+: body) :
    (comment star).clean body = true ∧ ∃ star', (comment star).run body = comment star' := by
  induction body generalizing star with
  | nil => exact ⟨rfl, star, rfl⟩
  | cons c body ih =>
      obtain ⟨hclose, hbody⟩ := not_closes_cons h
      have hstep : (comment star).step c = comment (c = '*') := by
        have hc : ¬ (star = true ∧ c = '/') := fun hc => hstar hc.1 (by simp [hc.2])
        simp [step, hc]
      have hnext : decide (c = '*') = true → body.head? ≠ some '/' := fun hc hhead =>
        hclose ⟨of_decide_eq_true hc, hhead⟩
      obtain ⟨hclean, star', hrun⟩ := ih _ hnext hbody
      rw [clean_cons, run_cons, hstep]
      exact ⟨by simp [isCode, hclean], star', hrun⟩

theorem comment_closed {body : List Char} (h : ¬ ['*', '/'] <:+: body) :
    (comment false).clean (body ++ ['*', '/']) = true ∧
      (comment false).run (body ++ ['*', '/']) = code false := by
  obtain ⟨hclean, star', hrun⟩ := comment_open false nofun h
  rw [clean_append, run_append, hrun, hclean]
  cases star' <;> exact ⟨by decide, by decide⟩

theorem string_tail (q : Char) (cs : List Char) :
    (string q).clean (cs.take (stringTail q cs).2) = true ∧
      (cs.drop (stringTail q cs).2 = [] ∨
        (string q).run (cs.take (stringTail q cs).2) = code false) := by
  fun_induction stringTail q cs with
  | case1 => exact ⟨rfl, .inl rfl⟩
  | case2 cs => exact ⟨by simp [clean_cons, isCode], .inr (by simp [step])⟩
  | case3 hq => exact ⟨by simp [clean_cons, isCode], .inl rfl⟩
  | case4 e es value width htail hq ih =>
      rw [htail] at ih
      have hstep : ((string q).step '\\').step e = string q := by simp [step, hq]
      simp only [List.take_succ_cons, List.drop_succ_cons, clean_cons, run_cons, hstep]
      refine ⟨?_, ih.2⟩
      simpa [isCode, step, hq] using ih.1
  | case5 c cs hq hb value width htail ih =>
      rw [htail] at ih
      have hstep : (string q).step c = string q := by simp [step, hq, hb]
      simp only [List.take_succ_cons, List.drop_succ_cons, clean_cons, run_cons, hstep]
      exact ⟨by simpa [isCode] using ih.1, ih.2⟩

end Region

theorem isOrdinary_of_isBlank {c : Char} (h : Text.isBlank c = true) : isOrdinary c = true := by
  have hquote : isQuote c = false := by
    refine Bool.eq_false_iff.mpr fun hq => ?_
    simp only [isQuote, Bool.or_eq_true, decide_eq_true_eq] at hq
    rcases hq with rfl | rfl <;> exact absurd h (by decide)
  have hslash : c ≠ '/' := by
    rintro rfl
    exact absurd h (by decide)
  simp [isOrdinary, isStray, h, hquote, hslash]

theorem isOrdinary_of_isWordChar {c : Char} (h : isWordChar c = true ∨ c = '@' ∨ c = '.') :
    isOrdinary c = true := by
  have hquote : isQuote c = false := by
    refine Bool.eq_false_iff.mpr fun hq => ?_
    simp only [isQuote, Bool.or_eq_true, decide_eq_true_eq] at hq
    rcases hq with rfl | rfl <;> exact absurd h (by decide)
  have hslash : c ≠ '/' := by
    rintro rfl
    exact absurd h (by decide)
  have hstray : isStray c = false := by
    rcases h with h | rfl | rfl
    · simp only [isWordChar, Bool.or_eq_true, decide_eq_true_eq] at h
      rcases h with (h | h) | rfl
      · simp [isStray, h]
      · simp [isStray, h]
      · decide
    · decide
    · decide
  simp [isOrdinary, hstray, hquote, hslash]

/-- A token or a gap is clean, and after it the text is seen as from outside. -/
def CleanFront (cs : List Char) (n : Nat) : Prop :=
  (Region.code false).clean (cs.take n) = true ∧
    (cs.drop n = [] ∨ (Region.after (cs.take n)).Settled (cs.drop n))

namespace CleanFront

variable {c : Char} {cs : List Char} {n : Nat}

theorem of_ordinary (h : ∀ c ∈ cs.take n, isOrdinary c = true) : CleanFront cs n := by
  obtain ⟨hclean, hafter⟩ := Region.ordinary h
  refine ⟨hclean, .inr ?_⟩
  rw [hafter]
  exact .of_code _

theorem comment (ds : List Char) : CleanFront ('/' :: '*' :: ds) (commentWidth ('/' :: '*' :: ds)) := by
  have hwidth : commentWidth ('/' :: '*' :: ds) = closingWidth ds + 2 := Nat.add_comm _ _
  have hfront : ∀ es, (Region.code false).clean ('/' :: '*' :: es) = (Region.comment false).clean es ∧
      Region.after ('/' :: '*' :: es) = (Region.comment false).run es := fun es => ⟨rfl, rfl⟩
  unfold CleanFront
  rw [hwidth, List.take_succ_cons, List.take_succ_cons, List.drop_succ_cons, List.drop_succ_cons,
    (hfront _).1, (hfront _).2]
  rcases closingWidth_cases ds with ⟨body, rest, rfl, hbody, hw⟩ | ⟨hds, hw⟩
  · have htext : body ++ '*' :: '/' :: rest = (body ++ ['*', '/']) ++ rest := by simp
    have hlen : body.length + 2 = (body ++ ['*', '/']).length := by simp
    obtain ⟨hclean, hrun⟩ := Region.comment_closed hbody
    rw [hw, htext, hlen, List.take_left, hrun]
    exact ⟨hclean, .inr (.of_code _)⟩
  · obtain ⟨hclean, -⟩ := Region.comment_open false nofun hds
    rw [hw, List.take_length, List.drop_length]
    exact ⟨hclean, .inl rfl⟩

theorem string (h : isQuote c = true) : CleanFront (c :: cs) (stringFront (c :: cs)).2 := by
  obtain ⟨hclean, hrest⟩ := Region.string_tail c cs
  have hstep : (Region.code false).step c = .string c := by simp [Region.step, h]
  have hstray : isStray c = false := by simp [isStray, h]
  have hwidth : (stringFront (c :: cs)).2 = (stringTail c cs).2 + 1 := rfl
  unfold CleanFront
  rw [hwidth, List.take_succ_cons, List.drop_succ_cons, Region.clean_cons, Region.after,
    Region.run_cons, hstep, hstray]
  refine ⟨by simpa using hclean, hrest.imp_right fun hrun => ?_⟩
  rw [hrun]
  exact .of_code _

theorem mark {k : Kind} (h : Kind.ofMark? c = some k) (hcs : ¬ (c = '/' ∧ cs.head? = some '*')) :
    CleanFront (c :: cs) 1 := by
  have hmarks : ∀ e ∈ Kind.marks, isQuote e.1 = false := by decide
  have hquote : isQuote c = false := hmarks _ (Kind.mem_of_lookup h)
  have hstray : isStray c = false := by simp [isStray, h]
  have hstep : (Region.code false).step c = .code (c = '/') := by simp [Region.step, hquote]
  unfold CleanFront
  rw [List.take_succ_cons, List.take_zero, List.drop_succ_cons, List.drop_zero, Region.clean_cons,
    Region.after, Region.run_cons, hstep, hstray]
  refine ⟨by simp, .inr ⟨_, rfl, fun hc hhead => hcs ⟨of_decide_eq_true hc, hhead⟩⟩⟩

end CleanFront

namespace Lexeme

theorem number_ordinary {c : Char} (h : c.isDigit = true) (cs : List Char) :
    ∀ d ∈ (c :: cs).take (numberWidth (c :: cs)), isOrdinary d = true := by
  intro d hd
  apply isOrdinary_of_isWordChar
  rcases (isNumeral_take h cs).mem hd with hdigit | hpoint
  · exact .inl (isWordChar_of_isDigit hdigit)
  · exact .inr (.inr hpoint)

theorem word_ordinary {c : Char} (h : isWordStart c = true ∨ c = '@') (cs : List Char) :
    ∀ d ∈ (c :: cs).take (wordWidth (c :: cs)), isOrdinary d = true := by
  intro d hd
  apply isOrdinary_of_isWordChar
  rcases (word_take h).1.mem hd with hword | hat
  · exact .inl hword
  · exact .inr (.inl hat)

/-- The front of a text is clean. -/
theorem front?_clean {c : Char} {cs : List Char} {l : Lexeme} (h : front? c cs = some l) :
    CleanFront (c :: cs) l.width := by
  unfold front? at h
  split at h
  · next hblank =>
      cases h
      apply CleanFront.of_ordinary
      show ∀ d ∈ (c :: cs).take (1 + (cs.takeWhile Text.isBlank).length), _
      rw [Nat.add_comm, List.take_succ_cons, take_takeWhile_length]
      intro d hd
      apply isOrdinary_of_isBlank
      rcases List.mem_cons.mp hd with rfl | hd
      · exact hblank
      · exact List.all_eq_true.mp List.all_takeWhile d hd
  split at h
  · next hopen =>
      cases h
      obtain ⟨rfl, hhead⟩ := hopen
      obtain ⟨ds, rfl⟩ := List.head?_eq_some_iff.mp hhead
      exact CleanFront.comment ds
  next hopen =>
  split at h
  · next hquote =>
      cases h
      exact CleanFront.string hquote
  split at h
  · next hdigit =>
      cases h
      exact CleanFront.of_ordinary (number_ordinary hdigit cs)
  split at h
  · next hword =>
      cases h
      exact CleanFront.of_ordinary (word_ordinary hword cs)
  · obtain ⟨k, hk, rfl⟩ := Option.map_eq_some_iff.1 h
    exact CleanFront.mark hk hopen

theorem front?_eq_none_iff {c : Char} {cs : List Char} : front? c cs = none ↔ isStray c = true := by
  have hslash : ¬ isStray '/' = true := by decide
  unfold front? isStray
  constructor
  · intro h
    split at h
    · cases h
    split at h
    · cases h
    split at h
    · cases h
    split at h
    · cases h
    split at h
    · cases h
    · simp_all
  · intro h
    simp only [Bool.not_eq_true', Bool.or_eq_false_iff, decide_eq_false_iff_not,
      Option.isSome_eq_false_iff, Option.isNone_iff_eq_none] at h
    obtain ⟨⟨⟨⟨hblank, hquote⟩, hdigit⟩, hword, hat⟩, hmark⟩ := h
    have hopen : c ≠ '/' := by
      rintro rfl
      exact absurd hmark (by decide)
    simp [hblank, hquote, hdigit, hword, hat, hmark, hopen]

end Lexeme

/-! ### Reading up to the first stray character -/

theorem Cursor.tokens_stray {c : Cursor} {ch : Char} {cs : List Char} (h : c.rest = ch :: cs)
    (hf : Lexeme.front? ch cs = none) : c.tokens.1 = .error ⟨ch, c.pos⟩ := by
  rw [tokens]
  split
  · next h' => rw [h] at h'; cases h'
  · next h' =>
      obtain ⟨rfl, rfl⟩ := List.cons.inj (h.symm.trans h')
      split <;> simp_all

theorem Cursor.tokens_ok_of_front {c : Cursor} {ch : Char} {cs : List Char} {l : Lexeme}
    {ts : List Token} (h : c.rest = ch :: cs) (hf : Lexeme.front? ch cs = some l)
    (hts : (c.move l.width).tokens.1 = .ok ts) : ∃ us, c.tokens.1 = .ok us := by
  cases l with
  | gap n => exact ⟨ts, (tokens_gap h hf).trans hts⟩
  | token k v n =>
      have hscan : (c.scan k v n).2.tokens.1 = .ok ts := hts
      refine ⟨(c.scan k v n).1 :: ts, ?_⟩
      rw [tokens_token h hf, hscan]
      rfl

theorem Cursor.tokens_error_of_front {c : Cursor} {ch : Char} {cs : List Char} {l : Lexeme}
    {e : LexError} (h : c.rest = ch :: cs) (hf : Lexeme.front? ch cs = some l)
    (he : (c.move l.width).tokens.1 = .error e) : c.tokens.1 = .error e := by
  cases l with
  | gap n => exact (tokens_gap h hf).trans he
  | token k v n =>
      have hscan : (c.scan k v n).2.tokens.1 = .error e := he
      rw [tokens_token h hf, hscan]
      rfl

/-- The text `cs` is clean up to the stray character `c`, which comes after `before`. -/
structure StrayAfter (cs before : List Char) (c : Char) : Prop where
  text : ∃ after, cs = before ++ c :: after
  clean : (Region.code false).clean before = true
  code : (Region.after before).isCode = true
  stray : isStray c = true

namespace StrayAfter

variable {cs before before' : List Char} {c c' : Char}

theorem not_clean (h : StrayAfter cs before c) : (Region.code false).clean cs = false := by
  obtain ⟨after, rfl⟩ := h.text
  have hcode : ((Region.code false).run before).isCode = true := h.code
  rw [Region.clean_append, Region.clean_cons, hcode, h.stray]
  simp

/-- There is only one such character. -/
theorem unique (h : StrayAfter cs before c) (h' : StrayAfter cs before' c') :
    before = before' ∧ c = c' := by
  -- a text that goes on after a stray character is not clean
  have hlonger : ∀ {as bs : List Char} {d : Char}, StrayAfter cs as d →
      (Region.code false).clean (as ++ d :: bs) = false := fun hd =>
    not_clean ⟨⟨_, rfl⟩, hd.clean, hd.code, hd.stray⟩
  obtain ⟨after, hcs⟩ := h.text
  obtain ⟨after', hcs'⟩ := h'.text
  rcases List.append_eq_append_iff.mp (hcs.symm.trans hcs') with ⟨as, rfl, hrest⟩ | ⟨as, rfl, hrest⟩
  · cases as with
    | nil => exact ⟨(List.append_nil _).symm, (List.cons.inj hrest).1⟩
    | cons a as =>
        obtain ⟨rfl, -⟩ := List.cons.inj hrest
        have hclean := h'.clean
        rw [hlonger h] at hclean
        cases hclean
  · cases as with
    | nil => exact ⟨List.append_nil _, (List.cons.inj hrest).1.symm⟩
    | cons a as =>
        obtain ⟨rfl, -⟩ := List.cons.inj hrest
        have hclean := h.clean
        rw [hlonger h'] at hclean
        cases hclean

/-- A stray character in a part of a text behind a clean front. -/
theorem behind {front : List Char} (hclean : (Region.code false).clean front = true)
    (hsettled : (Region.after front).Settled cs) (h : StrayAfter cs before c) :
    StrayAfter (front ++ cs) (front ++ before) c := by
  obtain ⟨after, hcs⟩ := h.text
  rw [hcs] at hsettled
  obtain ⟨hsame, hregion⟩ := hsettled.eq
  refine ⟨⟨after, by rw [hcs, List.append_assoc]⟩, ?_, ?_, h.stray⟩
  · rw [Region.clean_append, hclean]
    exact hsame.trans h.clean
  · rw [Region.after, Region.run_append]
    exact hregion.trans h.code

end StrayAfter

/-- Reading ends at the first stray character, or with the tokens of a clean text. -/
theorem Cursor.tokens_outcome (c : Cursor) :
    ((Region.code false).clean c.rest = true ∧ ∃ ts, c.tokens.1 = .ok ts) ∨
    ∃ before ch, StrayAfter c.rest before ch ∧
      c.tokens.1 = .error ⟨ch, (c.move before.length).pos⟩ := by
  generalize hm : c.rest.length = m
  induction m using Nat.strongRecOn generalizing c with
  | ind m ih =>
      cases hr : c.rest with
      | nil => exact .inl ⟨rfl, _, tokens_nil hr⟩
      | cons ch cs =>
          cases hf : Lexeme.front? ch cs with
          | none =>
              refine .inr ⟨[], ch, ⟨⟨cs, rfl⟩, rfl, rfl, Lexeme.front?_eq_none_iff.mp hf⟩, ?_⟩
              exact tokens_stray hr hf
          | some l =>
              have hw := Lexeme.width_pos hf
              obtain ⟨hclean, hrest⟩ := Lexeme.front?_clean hf
              have hlt : (c.move l.width).rest.length < m := by
                rw [move_rest, List.length_drop, hr, List.length_cons]
                rw [hr, List.length_cons] at hm
                omega
              have hnext : (c.move l.width).rest = (ch :: cs).drop l.width := by rw [move_rest, hr]
              have htext : (ch :: cs).take l.width ++ (ch :: cs).drop l.width = ch :: cs :=
                List.take_append_drop _ _
              have hlater := ih _ hlt (c.move l.width) rfl
              rw [hnext] at hlater
              rcases hlater with ⟨hothers, ts, hts⟩ | ⟨before, d, hstray, herror⟩
              · obtain ⟨us, hus⟩ := tokens_ok_of_front hr hf hts
                refine .inl ⟨?_, us, hus⟩
                rw [← htext, Region.clean_append, hclean]
                rcases hrest with hnil | hsettled
                · rw [hnil]
                  rfl
                · rw [← List.append_nil ((ch :: cs).drop l.width)] at hsettled
                  exact hsettled.eq.1.trans hothers
              · have hne : (ch :: cs).drop l.width ≠ [] := by
                  obtain ⟨after, hafter⟩ := hstray.text
                  rw [hafter]
                  simp
                refine .inr ⟨(ch :: cs).take l.width ++ before, d, ?_, ?_⟩
                · have hbehind := hstray.behind hclean (hrest.resolve_left hne)
                  rwa [htext] at hbehind
                · have hwithin : l.width ≤ (ch :: cs).length := by
                    by_contra hlong
                    exact hne (List.drop_eq_nil_of_le (by omega))
                  rw [tokens_error_of_front hr hf herror, move_move, List.length_append,
                    List.length_take, Nat.min_eq_left hwithin]

/-- The first stray character of a text, with its place. -/
def LexError.First (cs : List Char) (e : LexError) : Prop :=
  ∃ before, StrayAfter cs before e.char ∧ e.position = Position.start.after before

/-- Reading a source fails exactly at its first stray character. -/
theorem tokenize_eq_error_iff {source : String} {e : LexError} :
    tokenize source = .error e ↔ e.First source.toList := by
  have hmove : ∀ before ch, StrayAfter source.toList before ch →
      ((Cursor.ofSource source).move before.length).pos = Position.start.after before := by
    intro before ch h
    obtain ⟨after, hsource⟩ := h.text
    show Position.start.after (source.toList.take before.length) = _
    rw [hsource, List.take_left]
  rcases (Cursor.ofSource source).tokens_outcome with ⟨hclean, ts, hts⟩ | ⟨before, ch, hstray, herror⟩
  · have hok : tokenize source = .ok ts := hts
    rw [hok]
    refine ⟨nofun, ?_⟩
    rintro ⟨before, hstray, -⟩
    have hdirty := hstray.not_clean
    rw [show source.toList = (Cursor.ofSource source).rest from rfl, hclean] at hdirty
    cases hdirty
  · have hfail : tokenize source = .error ⟨ch, Position.start.after before⟩ := by
      rw [← hmove before ch hstray]
      exact herror
    rw [hfail]
    constructor
    · rintro ⟨⟩
      exact ⟨before, hstray, rfl⟩
    · rintro ⟨before', hstray', hposition⟩
      obtain ⟨rfl, rfl⟩ := hstray.unique hstray'
      rw [← hposition]

/-- A source without stray characters can be read. -/
theorem tokenize_isOk_iff {source : String} :
    (∃ ts, tokenize source = .ok ts) ↔ ∀ e : LexError, ¬ e.First source.toList := by
  constructor
  · rintro ⟨ts, hts⟩ e he
    rw [tokenize_eq_error_iff.mpr he] at hts
    cases hts
  · intro h
    cases hrun : tokenize source with
    | ok ts => exact ⟨ts, rfl⟩
    | error e => exact absurd (tokenize_eq_error_iff.mp hrun) (h e)

/-! ### What an error depends on -/

namespace LexError

variable {cs : List Char} {e : LexError}

/-- The first stray character of the front of a text is that of the text. -/
theorem First.append (h : e.First cs) (t : List Char) : e.First (cs ++ t) := by
  obtain ⟨before, hstray, hposition⟩ := h
  obtain ⟨after, hcs⟩ := hstray.text
  exact ⟨before, ⟨⟨after ++ t, by simp [hcs]⟩, hstray.clean, hstray.code, hstray.stray⟩, hposition⟩

/-- An error in the text `cs`: it names a character that is no gap and starts no token, which stands
outside of strings and comments; the text before it can be read, and whatever comes after it, the
error is the same. -/
structure Raised (cs : List Char) (e : LexError) : Prop where
  char : cs[e.position.offset]? = some e.char
  foreign : Text.isBlank e.char = false ∧ isQuote e.char = false ∧ e.char.isDigit = false ∧
    isWordStart e.char = false ∧ e.char ≠ '@' ∧ Kind.ofMark? e.char = none
  outside : (Region.after (cs.take e.position.offset)).isCode = true
  before : ∃ ts, tokenize (String.ofList (cs.take e.position.offset)) = .ok ts
  onward : ∀ t, tokenize (String.ofList (cs.take (e.position.offset + 1) ++ t)) = .error e

theorem First.raised (h : e.First cs) : e.Raised cs := by
  obtain ⟨before, hstray, hposition⟩ := id h
  obtain ⟨after, hcs⟩ := hstray.text
  have hoffset : e.position.offset = before.length := by
    rw [hposition, Position.after_offset]
    exact Nat.zero_add _
  have hfront : cs.take e.position.offset = before := by rw [hoffset, hcs, List.take_left]
  have hnext : cs.take (e.position.offset + 1) = before ++ [e.char] := by
    rw [List.take_add_one, hfront, hoffset, hcs]
    simp
  constructor
  · rw [hoffset, hcs]
    simp
  · have hs := hstray.stray
    simp only [isStray, Bool.not_eq_true', Bool.or_eq_false_iff, decide_eq_false_iff_not,
      Option.isSome_eq_false_iff, Option.isNone_iff_eq_none] at hs
    obtain ⟨⟨⟨⟨hblank, hquote⟩, hdigit⟩, hword, hat⟩, hmark⟩ := hs
    exact ⟨hblank, hquote, hdigit, hword, hat, hmark⟩
  · rw [hfront]
    exact hstray.code
  · rw [hfront, tokenize_isOk_iff, String.toList_ofList]
    rintro e' ⟨before', hstray', -⟩
    have hdirty := hstray'.not_clean
    rw [hstray.clean] at hdirty
    cases hdirty
  · intro t
    rw [tokenize_eq_error_iff, String.toList_ofList, hnext]
    exact ⟨before, ⟨⟨t, by simp⟩, hstray.clean, hstray.code, hstray.stray⟩, hposition⟩

end LexError

/-- **The first error of a source depends on the text before it alone**: so texts that can be read
are closed under prefixes, and in a string or a comment any character can come next. -/
theorem tokenize_raised :
    (∀ source e, tokenize source = .error e → e.Raised source.toList) ∧
    (∀ source ts, tokenize source = .ok ts → ∀ front, front <+: source.toList →
      ∃ us, tokenize (String.ofList front) = .ok us) ∧
    ∀ (cs : List Char) (c : Char), (∃ ts, tokenize (String.ofList cs) = .ok ts) →
      (Region.after cs).isCode = false → ∃ us, tokenize (String.ofList (cs ++ [c])) = .ok us := by
  refine ⟨fun source e h => (tokenize_eq_error_iff.mp h).raised, fun source ts h front hfront => ?_,
    fun cs c h hinside => ?_⟩
  · obtain ⟨tail, htail⟩ := hfront
    rw [tokenize_isOk_iff, String.toList_ofList]
    intro e he
    have hsource := he.append tail
    rw [htail] at hsource
    exact tokenize_isOk_iff.mp ⟨ts, h⟩ e hsource
  · rw [tokenize_isOk_iff, String.toList_ofList] at h ⊢
    rintro e ⟨before, hstray, hposition⟩
    obtain ⟨after, hcs⟩ := hstray.text
    rcases List.eq_nil_or_concat after with rfl | ⟨after', d, rfl⟩
    · -- the stray character is the last one, which stands in a string or a comment
      obtain ⟨rfl, -⟩ := List.append_inj' hcs rfl
      rw [hstray.code] at hinside
      cases hinside
    · rw [List.concat_eq_append, ← List.cons_append, ← List.append_assoc] at hcs
      obtain ⟨rfl, -⟩ := List.append_inj' hcs rfl
      exact h e ⟨before, ⟨⟨after', rfl⟩, hstray.clean, hstray.code, hstray.stray⟩, hposition⟩

/-- A letter that starts no token fails outside of the string and the comment that hold it too. -/
theorem tokenize_raised_accent :
    LexError.Raised "a'é'/*é*/ é;é".toList ⟨'é', ⟨1, 11, 10⟩⟩ ∧
    (∃ us, tokenize (String.ofList "a'é'/*".toList) = .ok us) ∧
    ∃ us, tokenize (String.ofList ("a'é".toList ++ ['é'])) = .ok us := by
  have hok : ∀ source, (tokenize source).toOption.isSome = true → ∃ ts, tokenize source = .ok ts := by
    intro source hs
    cases ht : tokenize source with
    | error e => simp [ht, Except.toOption] at hs
    | ok ts => exact ⟨ts, rfl⟩
  obtain ⟨ts, hts⟩ := hok "a'é'/*é*/" (by decide +kernel)
  refine ⟨tokenize_raised.1 _ _ (by decide +kernel), tokenize_raised.2.1 _ _ hts _ ?_,
    tokenize_raised.2.2 _ _ (hok _ (by decide +kernel)) (by decide +kernel)⟩
  decide +kernel

end FloorPlan
