import FloorPlan.Proofs.Token.Positions
import FloorPlan.Proofs.Token.Rendering
import FloorPlan.Proofs.Token.Strays

/-! # Seams of a source

A source may be cut behind a token (`LexesTo`).  Behind a semicolon or a closing brace such a cut is
a seam: what stands before it is read in the same way whatever follows it (`LexesTo.instead`).
Behind any other token a cut is one if a gap stands before it: a token depends on the one character
that follows it, unless this is a point (`LexesTo.before`).  At a seam a text that ends with a
semicolon of its own can be put in (`tokenize_insert`). -/

namespace FloorPlan

/-! ### Fronts that end before a given character -/

section

variable {e : Char} {x : List Char}

theorem digitsWidth_before {b : List Char} (h : digitsWidth (x ++ e :: b) ≤ x.length)
    (b' : List Char) : digitsWidth (x ++ e :: b') = digitsWidth (x ++ e :: b) :=
  congrArg List.length (takeWhile_upto h)

theorem digitsWidth_le_numberWidth (cs : List Char) : digitsWidth cs ≤ numberWidth cs := by
  unfold numberWidth
  simp only
  split
  · split <;> omega
  · exact Nat.le_refl _

/-- Only behind a point a number looks further ahead. -/
theorem numberWidth_before {b : List Char} (he : e ≠ '.') (h : numberWidth (x ++ e :: b) ≤ x.length)
    (b' : List Char) : numberWidth (x ++ e :: b') = numberWidth (x ++ e :: b) := by
  have hle := Nat.le_trans (digitsWidth_le_numberWidth _) h
  unfold numberWidth at h ⊢
  simp only [digitsWidth_before hle b', List.drop_append_of_le_length hle] at h ⊢
  generalize digitsWidth (x ++ e :: b) = n at h hle ⊢
  have hx : x.length = n + (x.drop n).length := by rw [List.length_drop]; omega
  cases hdrop : x.drop n with
  | nil => simp [he]
  | cons c y =>
      rw [hdrop] at h hx
      simp only [List.cons_append] at h ⊢
      by_cases hc : c = '.'
      · subst hc
        have hy : digitsWidth (y ++ e :: b) ≤ y.length := by
          simp only [List.length_cons] at hx h
          split at h <;> omega
        simp only [digitsWidth_before hy b']
      · simp [hc]

theorem wordWidth_before {c : Char} {b : List Char}
    (h : wordWidth (c :: (x ++ e :: b)) ≤ x.length + 1) (b' : List Char) :
    wordWidth (c :: (x ++ e :: b')) = wordWidth (c :: (x ++ e :: b)) := by
  unfold wordWidth at h ⊢
  by_cases hc : c = '@'
  · simp only [if_pos hc] at h ⊢
    have hdigits : digitsWidth (x ++ e :: b) ≤ x.length := by
      split at h <;> omega
    rw [digitsWidth_before hdigits b']
    by_cases hzero : digitsWidth (x ++ e :: b) = 0
    · rw [if_pos hzero] at h
      have hrun : ((x ++ e :: b).takeWhile isWordChar).length ≤ x.length := by omega
      rw [if_pos hzero, if_pos hzero, takeWhile_upto hrun]
    · rw [if_neg hzero, if_neg hzero]
  · simp only [if_neg hc, ← List.cons_append] at h ⊢
    rw [takeWhile_upto h]

/-- A comment that is closed does not depend on what follows it. -/
theorem closingWidth_before {r : List Char} (hr : r ≠ []) (hle : closingWidth (x ++ r) ≤ x.length)
    (r' : List Char) : closingWidth (x ++ r') = closingWidth (x ++ r) := by
  have hpos : 0 < r.length := List.length_pos_iff.mpr hr
  rcases closingWidth_cases (x ++ r) with ⟨body, rest, htext, hbody, hwidth⟩ | ⟨-, hwidth⟩
  · rw [hwidth] at hle ⊢
    have hfront : body ++ ['*', '/'] <+: x := by
      have htext' : (body ++ ['*', '/']) ++ rest = x ++ r := by
        rw [htext, List.append_assoc]
        rfl
      exact List.prefix_of_prefix_length_le ⟨rest, htext'⟩ ⟨r, rfl⟩ (by simpa using hle)
    obtain ⟨y, rfl⟩ := hfront
    rw [List.append_assoc, List.append_assoc]
    exact closingWidth_closed hbody _
  · rw [hwidth, List.length_append] at hle
    omega

/-- A string that is closed does not depend on what follows it. -/
theorem stringTail_before {q : Char} {r : List Char} (hr : r ≠ [])
    (hle : (stringTail q (x ++ r)).2 ≤ x.length) (r' : List Char) :
    stringTail q (x ++ r') = stringTail q (x ++ r) := by
  generalize htext : x ++ r = cs at hle ⊢
  fun_induction stringTail q cs generalizing x with
  | case1 => exact absurd (List.append_eq_nil_iff.mp htext).2 hr
  | case2 es =>
      rcases List.append_eq_cons_iff.mp htext with ⟨rfl, -⟩ | ⟨y, rfl, -⟩
      · simp at hle
      · rw [List.cons_append]
        unfold stringTail
        exact if_pos rfl
  | case3 hq =>
      rcases List.append_eq_cons_iff.mp htext with ⟨rfl, -⟩ | ⟨y, rfl, hy⟩
      · simp at hle
      · exact absurd (List.append_eq_nil_iff.mp hy.symm).2 hr
  | case4 c es value width htail hq ih =>
      rcases List.append_eq_cons_iff.mp htext with ⟨rfl, -⟩ | ⟨y, rfl, hy⟩
      · simp at hle
      · rcases List.append_eq_cons_iff.mp hy.symm with ⟨rfl, -⟩ | ⟨z, rfl, rfl⟩
        · simp at hle
        · have hle' : width ≤ z.length := by simpa using hle
          have hrest := ih rfl (by rwa [htail])
          rw [List.cons_append, List.cons_append]
          unfold stringTail
          simp only [if_neg hq, hrest, htail, reduceIte]
  | case5 c es hq hslash value width htail ih =>
      rcases List.append_eq_cons_iff.mp htext with ⟨rfl, -⟩ | ⟨y, rfl, rfl⟩
      · simp at hle
      · have hle' : width ≤ y.length := by simpa using hle
        have hrest := ih rfl (by rwa [htail])
        rw [List.cons_append]
        unfold stringTail
        simp only [if_neg hq, if_neg hslash, hrest, htail]

namespace Lexeme

/-- A front that ends before a character other than a point does not depend on what follows it. -/
theorem front?_before {c : Char} {b : List Char} {l : Lexeme} (he : e ≠ '.')
    (h : front? c (x ++ e :: b) = some l) (hle : l.width ≤ x.length + 1) (b' : List Char) :
    front? c (x ++ e :: b') = some l := by
  have htake : ∀ n, n ≤ x.length + 1 → ∀ b, (c :: (x ++ e :: b)).take n = (c :: x).take n := by
    intro n hn b
    rw [← List.cons_append, List.take_append_of_le_length (by simpa using hn)]
  have hhead : (x ++ e :: b').head? = (x ++ e :: b).head? := by cases x <;> rfl
  unfold front? at h ⊢
  rw [hhead]
  by_cases hc : Text.isBlank c = true
  · rw [if_pos hc] at h ⊢
    cases h
    have hrun : ((x ++ e :: b).takeWhile Text.isBlank).length ≤ x.length := by
      simp only [width] at hle
      omega
    rw [takeWhile_upto hrun]
  rw [if_neg hc] at h ⊢
  by_cases hcomment : c = '/' ∧ (x ++ e :: b).head? = some '*'
  · rw [if_pos hcomment] at h ⊢
    cases h
    cases x with
    | nil =>
        simp only [width, commentWidth, List.length_nil] at hle
        omega
    | cons d y =>
        have hclosed : closingWidth (y ++ e :: b) ≤ y.length := by
          simp [width, commentWidth] at hle
          omega
        simp [commentWidth, closingWidth_before (List.cons_ne_nil e b) hclosed (e :: b')]
  rw [if_neg hcomment] at h ⊢
  by_cases hquote : isQuote c = true
  · rw [if_pos hquote] at h ⊢
    cases h
    have hclosed : (stringTail c (x ++ e :: b)).2 ≤ x.length := by
      simp only [width] at hle
      omega
    simp [stringFront, stringTail_before (List.cons_ne_nil e b) hclosed (e :: b')]
  rw [if_neg hquote] at h ⊢
  by_cases hdigit : c.isDigit = true
  · rw [if_pos hdigit] at h ⊢
    cases h
    have hwidth : numberWidth ((c :: x) ++ e :: b) ≤ (c :: x).length := hle
    have hsame := numberWidth_before he hwidth b'
    simp only [List.cons_append] at hwidth hsame
    simp only [verbatim, hsame, htake _ hwidth]
  rw [if_neg hdigit] at h ⊢
  by_cases hword : isWordStart c = true ∨ c = '@'
  · rw [if_pos hword] at h ⊢
    cases h
    have hwidth : wordWidth (c :: (x ++ e :: b)) ≤ x.length + 1 := hle
    simp only [verbatim, wordWidth_before hwidth b', htake _ hwidth]
  · rwa [if_neg hword] at h ⊢

end Lexeme

end

/-- The kinds of closers. -/
def closers : List Kind := [.semicolon, .rightBrace]

/-- A token of the kind of a closer is one, whatever follows it. -/
theorem front?_closer {c : Char} {cs v : List Char} {k : Kind} {n : Nat}
    (h : Lexeme.front? c cs = some (.token k v n)) (hk : k ∈ closers) :
    c ≠ '.' ∧ n = 1 ∧ ∀ cs', Lexeme.front? c cs' = some (.token k v n) := by
  have hwords : ∀ e ∈ Kind.words, e.2 ∉ closers := by decide
  have hmarks : ∀ e ∈ Kind.marks, e.2 ∈ closers → e.1 = ';' ∨ e.1 = '}' := by decide
  rcases Lexeme.front?_token h with ⟨-, rfl⟩ | ⟨-, rfl, -⟩ | ⟨-, rfl, -⟩ | ⟨hmark, rfl, rfl⟩
  · exact absurd hk (by decide)
  · exact absurd hk (by decide)
  · rcases wordKind_cases v with hw | hw | hw
    · exact absurd (hw ▸ hk) (by decide)
    · exact absurd (hw ▸ hk) (by decide)
    · exact absurd hk (hwords _ hw)
  · rcases hmarks _ (Kind.mem_of_lookup hmark) hk with rfl | rfl
    · exact ⟨by decide, rfl, fun _ => h⟩
    · exact ⟨by decide, rfl, fun _ => h⟩

/-! ### Texts up to the end of a token -/

/-- The text has the tokens `ts`, at least one, up to the end of the last of them, where `rest` is
ahead. -/
inductive LexesTo : List Char → List (Kind × String) → List Char → Prop
  | last {c : Char} {cs v : List Char} {k : Kind} {n : Nat} :
      Lexeme.front? c cs = some (.token k v n) →
      LexesTo (c :: cs) [(k, String.ofList v)] ((c :: cs).drop n)
  | gap {c : Char} {cs rest : List Char} {n : Nat} {ts : List (Kind × String)} :
      Lexeme.front? c cs = some (.gap n) → LexesTo ((c :: cs).drop n) ts rest →
      LexesTo (c :: cs) ts rest
  | token {c : Char} {cs v rest : List Char} {k : Kind} {n : Nat} {ts : List (Kind × String)} :
      Lexeme.front? c cs = some (.token k v n) → LexesTo ((c :: cs).drop n) ts rest →
      LexesTo (c :: cs) ((k, String.ofList v) :: ts) rest

/-- A front of a text that goes on over it, with a character other than a point, does not depend on
what follows this character. -/
theorem front?_instead {c e : Char} {cs x b : List Char} {l : Lexeme}
    (hf : Lexeme.front? c cs = some l) (hcs : c :: cs = x ++ e :: b) (he : e ≠ '.')
    (hle : l.width ≤ x.length) (b' : List Char) :
    ∃ cs', x ++ e :: b' = c :: cs' ∧ Lexeme.front? c cs' = some l ∧
      (c :: cs').drop l.width = x.drop l.width ++ e :: b' := by
  have hpos := Lexeme.width_pos hf
  obtain ⟨d, y, rfl⟩ := List.exists_cons_of_length_pos (Nat.lt_of_lt_of_le hpos hle)
  rw [List.cons_append] at hcs
  obtain ⟨rfl, rfl⟩ := List.cons.inj hcs
  refine ⟨y ++ e :: b', rfl, Lexeme.front?_before he hf hle b', ?_⟩
  rw [← List.cons_append, List.drop_append_of_le_length hle]

/-- The text ends, and not with a point. -/
def EndsPlain (a : List Char) : Prop := ∃ x e, a = x ++ [e] ∧ e ≠ '.'

/-- A front of a text that ends in it does not depend on what follows the text. -/
theorem front?_inside {c : Char} {cs a b : List Char} {l : Lexeme}
    (hf : Lexeme.front? c cs = some l) (hcs : c :: cs = a ++ b) (hlt : l.width < a.length)
    (hplain : EndsPlain (a.drop l.width)) :
    EndsPlain a ∧ ∀ b', ∃ cs', a ++ b' = c :: cs' ∧ Lexeme.front? c cs' = some l ∧
      (c :: cs').drop l.width = a.drop l.width ++ b' := by
  obtain ⟨x, e, hdrop, he⟩ := hplain
  have ha : a = (a.take l.width ++ x) ++ [e] := by
    rw [List.append_assoc, ← hdrop, List.take_append_drop]
  have hle : l.width ≤ (a.take l.width ++ x).length := by
    rw [List.length_append, List.length_take]
    omega
  generalize a.take l.width ++ x = y at ha hle
  subst ha
  refine ⟨⟨y, e, rfl, he⟩, fun b' => ?_⟩
  rw [List.append_assoc] at hcs
  obtain ⟨cs', htext, hf', hrest⟩ := front?_instead hf hcs he hle b'
  refine ⟨cs', by rw [List.append_assoc]; exact htext, hf', ?_⟩
  rw [hrest, List.drop_append_of_le_length hle, List.append_assoc]
  rfl

/-- No gap starts with a point. -/
theorem IsGap.head_ne {c : Char} {cs : List Char} (h : IsGap (c :: cs)) : c ≠ '.' := by
  cases h with
  | blank hc _ =>
      rintro rfl
      exact absurd hc (by decide)
  | comment _ _ => decide

namespace LexesTo

variable {cs rest : List Char} {ts us : List (Kind × String)}

theorem lexes (h : LexesTo cs ts rest) (hrest : Lexes rest us) : Lexes cs (ts ++ us) := by
  induction h with
  | last hf => exact .token hf hrest
  | gap hf _ ih => exact .gap hf (ih hrest)
  | token hf _ ih => exact .token hf (ih hrest)

theorem append {rest' : List Char} (h : LexesTo cs ts rest) (h' : LexesTo rest us rest') :
    LexesTo cs (ts ++ us) rest' := by
  induction h with
  | last hf => exact .token hf h'
  | gap hf _ ih => exact .gap hf (ih h')
  | token hf _ ih => exact .token hf (ih h')

theorem ne_nil (h : LexesTo cs ts rest) : ts ≠ [] := by
  induction h with
  | last => exact List.cons_ne_nil _ _
  | gap _ _ ih => exact ih
  | token => exact List.cons_ne_nil _ _

theorem length_lt (h : LexesTo cs ts rest) : rest.length < cs.length := by
  induction h with
  | @last c cs _ _ _ hf =>
      have hpos := Lexeme.width_pos hf
      simp only [Lexeme.width] at hpos
      rw [List.length_drop, List.length_cons]
      omega
  | gap _ _ ih => exact Nat.lt_of_lt_of_le ih (by simp)
  | token _ _ ih => exact Nat.lt_of_lt_of_le ih (by simp)

theorem suffix (h : LexesTo cs ts rest) : rest <:+ cs := by
  induction h with
  | last => exact List.drop_suffix _ _
  | gap _ _ ih => exact ih.trans (List.drop_suffix _ _)
  | token _ _ ih => exact ih.trans (List.drop_suffix _ _)

/-- What a front leaves in front of the rest. -/
theorem drop_eq {a b : List Char} {n : Nat} (h : LexesTo (cs.drop n) ts b) (hcs : cs = a ++ b) :
    n < a.length ∧ cs.drop n = a.drop n ++ b := by
  have hlt := h.length_lt
  rw [List.length_drop, hcs, List.length_append] at hlt
  have hn : n < a.length := by omega
  refine ⟨hn, ?_⟩
  rw [hcs, List.drop_append_of_le_length (Nat.le_of_lt hn)]

/-- Where the rest goes on with a character other than a point, anything else may follow it. -/
theorem before {a b : List Char} {e : Char} (h : LexesTo cs ts (e :: b)) (hcs : cs = a ++ e :: b)
    (he : e ≠ '.') (b' : List Char) : LexesTo (a ++ e :: b') ts (e :: b') := by
  generalize hrest : e :: b = rest at h
  induction h generalizing a with
  | @last c cs v k n hf =>
      have hlength := congrArg List.length hrest
      rw [hcs, List.length_drop, List.length_append, List.length_cons] at hlength
      have hn : n = a.length := by omega
      obtain ⟨cs', htext, hf', hdrop⟩ := front?_instead hf hcs he (Nat.le_of_eq hn) b'
      have hrest' : (c :: cs').drop n = e :: b' := by
        rw [show n = (Lexeme.token k v n).width from rfl, hdrop, Lexeme.width, hn, List.drop_length]
        rfl
      rw [htext, ← hrest']
      exact .last hf'
  | @gap c cs rest n ts hf htail ih =>
      subst hrest
      obtain ⟨hn, hdrop⟩ := htail.drop_eq hcs
      obtain ⟨cs', htext, hf', hdrop'⟩ := front?_instead hf hcs he (Nat.le_of_lt hn) b'
      exact htext ▸ .gap hf' (hdrop' ▸ ih hdrop rfl)
  | @token c cs v rest k n ts hf htail ih =>
      subst hrest
      obtain ⟨hn, hdrop⟩ := htail.drop_eq hcs
      obtain ⟨cs', htext, hf', hdrop'⟩ := front?_instead hf hcs he (Nat.le_of_lt hn) b'
      exact htext ▸ .token hf' (hdrop' ▸ ih hdrop rfl)

/-- Behind a semicolon or a closing brace any other text may follow. -/
theorem instead {a b : List Char} {p : Kind × String} (h : LexesTo cs ts b) (hcs : cs = a ++ b)
    (hlast : ts.getLast? = some p) (hp : p.1 ∈ closers) :
    EndsPlain a ∧ ∀ b', LexesTo (a ++ b') ts b' := by
  induction h generalizing a with
  | @last c cs v k n hf =>
      rw [List.getLast?_singleton, Option.some_inj] at hlast
      rw [← hlast] at hp
      obtain ⟨hc, rfl, hfront⟩ := front?_closer hf hp
      have ha : a = [c] := List.append_cancel_right (hcs.symm.trans rfl)
      subst ha
      exact ⟨⟨[], c, rfl, hc⟩, fun b' => .last (hfront b')⟩
  | @gap c cs rest n ts hf htail ih =>
      obtain ⟨hn, hdrop⟩ := htail.drop_eq hcs
      obtain ⟨hplain, hrest⟩ := ih hdrop hlast
      obtain ⟨hplain', hfront⟩ := front?_inside hf hcs hn hplain
      refine ⟨hplain', fun b' => ?_⟩
      obtain ⟨cs', htext, hf', hdrop'⟩ := hfront b'
      exact htext ▸ .gap hf' (hdrop' ▸ hrest b')
  | @token c cs v rest k n ts hf htail ih =>
      obtain ⟨hn, hdrop⟩ := htail.drop_eq hcs
      rw [List.getLast?_cons_of_ne_nil htail.ne_nil] at hlast
      obtain ⟨hplain, hrest⟩ := ih hdrop hlast
      obtain ⟨hplain', hfront⟩ := front?_inside hf hcs hn hplain
      refine ⟨hplain', fun b' => ?_⟩
      obtain ⟨cs', htext, hf', hdrop'⟩ := hfront b'
      exact htext ▸ .token hf' (hdrop' ▸ hrest b')

/-- **Seams**: behind a closer, or where the rest goes on with a gap, any other text may follow the
gap. -/
theorem seam {a gap b : List Char} (h : LexesTo (a ++ (gap ++ b)) ts (gap ++ b)) (hgap : IsGap gap)
    (hlast : (∀ p ∈ ts.getLast?, p.1 ∈ closers) ∨ gap ≠ []) {rest : List Char}
    (hrest : Lexes rest us) : Lexes (a ++ (gap ++ rest)) (ts ++ us) := by
  have hall := hgap.lexes hrest
  rcases hlast with hlast | hne
  · obtain ⟨p, hp⟩ := Option.ne_none_iff_exists'.mp (mt List.getLast?_eq_none_iff.mp h.ne_nil)
    obtain ⟨-, hinstead⟩ := h.instead rfl hp (hlast p hp)
    exact (hinstead _).lexes hall
  · obtain ⟨e, y, rfl⟩ := List.exists_cons_of_ne_nil hne
    exact (h.before rfl hgap.head_ne (y ++ rest)).lexes hall

end LexesTo

/-! ### Texts without comments -/

/-- A gap without slashes has no comments. -/
theorem IsGap.isBlank {gap : List Char} (h : IsGap gap) (hslash : '/' ∉ gap) {c : Char}
    (hc : c ∈ gap) : Text.isBlank c = true := by
  induction h with
  | nil => cases hc
  | blank hb _ ih =>
      rcases List.mem_cons.mp hc with rfl | hc
      · exact hb
      · exact ih (fun hs => hslash (List.mem_cons_of_mem _ hs)) hc
  | comment _ _ => exact absurd List.mem_cons_self hslash

/-- A text without tokens and slashes is blank. -/
theorem Lexes.isBlank {cs : List Char} (h : Lexes cs []) (hslash : '/' ∉ cs) {c : Char}
    (hc : c ∈ cs) : Text.isBlank c = true := by
  generalize hts : ([] : List (Kind × String)) = ts at h
  induction h with
  | nil => cases hc
  | @gap d cs n _ hf _ ih =>
      have hmem : ∀ {e}, e ∈ (d :: cs).take n ∨ e ∈ (d :: cs).drop n → e ∈ d :: cs := fun he =>
        he.elim List.mem_of_mem_take List.mem_of_mem_drop
      rcases Lexeme.front?_gap hf with hgap | ⟨⟨body, hopen, -⟩, -⟩
      · rw [← List.take_append_drop n (d :: cs), List.mem_append] at hc
        rcases hc with hc | hc
        · exact hgap.isBlank (fun hs => hslash (hmem (.inl hs))) hc
        · exact ih (fun hs => hslash (hmem (.inr hs))) hc hts
      · exact absurd (by rw [hopen]; exact List.mem_cons_self) hslash
  | token => cases hts

/-- Behind the last token of a text there is no other. -/
theorem Lexes.lexesTo {cs : List Char} {ts : List (Kind × String)} (h : Lexes cs ts) (hts : ts ≠ []) :
    ∃ rest, LexesTo cs ts rest ∧ Lexes rest [] := by
  induction h with
  | nil => exact absurd rfl hts
  | gap hf _ ih =>
      obtain ⟨rest, hto, hrest⟩ := ih hts
      exact ⟨rest, .gap hf hto, hrest⟩
  | @token c cs v k n ts hf htail ih =>
      cases ts with
      | nil => exact ⟨_, .last hf, htail⟩
      | cons p ts =>
          obtain ⟨rest, hto, hrest⟩ := ih (List.cons_ne_nil p ts)
          exact ⟨rest, .token hf hto, hrest⟩

/-- A text without slashes that ends with a closer is read in the same way whatever follows. -/
theorem Lexes.closed {cs : List Char} {ts : List (Kind × String)} {p : Kind × String}
    (h : Lexes (cs ++ [';']) ts) (hslash : '/' ∉ cs) (hlast : ts.getLast? = some p)
    (hp : p.1 ∈ closers) (after : List Char) : LexesTo (cs ++ ';' :: after) ts after := by
  have hts : ts ≠ [] := by
    rintro rfl
    cases hlast
  obtain ⟨rest, hto, hrest⟩ := h.lexesTo hts
  have hnil : rest = [] := by
    rcases List.eq_nil_or_concat rest with rfl | ⟨front, e, rfl⟩
    · rfl
    · rw [List.concat_eq_append] at hto hrest
      have hslash' : '/' ∉ front ++ [e] := by
        intro hs
        have hmem := hto.suffix.subset hs
        rw [List.mem_append, List.mem_singleton] at hmem
        exact hmem.elim hslash (by decide)
      obtain ⟨before, hbefore⟩ := hto.suffix
      rw [← List.append_assoc] at hbefore
      have he := List.singleton_inj.mp (List.append_inj' hbefore rfl).2
      exact absurd (he ▸ hrest.isBlank hslash' List.mem_concat_self) (by decide)
  subst hnil
  obtain ⟨-, hinstead⟩ := hto.instead (List.append_nil _).symm hlast hp
  have hafter := hinstead after
  rwa [List.append_assoc] at hafter

/-! ### Cuts between tokens -/

/-- A cursor reads first what the text ahead starts with. -/
theorem LexesTo.tokens {cs rest : List Char} {ps : List (Kind × String)} (h : LexesTo cs ps rest) :
    ∀ {c : Cursor} {ts : List Token}, c.rest = cs → c.tokens.1 = .ok ts →
      ∃ ws vs n, ts = ws ++ vs ∧ ws.map Token.pair = ps ∧ (c.move n).tokens.1 = .ok vs := by
  induction h with
  | @last ch cs v k n hf =>
      intro c ts hr hts
      rw [Cursor.tokens_token hr hf] at hts
      cases hscan : (c.scan k v n).2.tokens.1 with
      | error e => rw [hscan] at hts; cases hts
      | ok us =>
          rw [hscan] at hts
          cases hts
          exact ⟨[_], us, n, rfl, rfl, hscan⟩
  | @gap ch cs rest n ps hf _ ih =>
      intro c ts hr hts
      rw [Cursor.tokens_gap hr hf] at hts
      obtain ⟨ws, vs, m, hws, hpairs, hvs⟩ := ih (by rw [Cursor.move_rest, hr]) hts
      rw [Cursor.move_move] at hvs
      exact ⟨ws, vs, n + m, hws, hpairs, hvs⟩
  | @token ch cs v rest k n ps hf _ ih =>
      intro c ts hr hts
      rw [Cursor.tokens_token hr hf] at hts
      cases hscan : (c.scan k v n).2.tokens.1 with
      | error e => rw [hscan] at hts; cases hts
      | ok us =>
          rw [hscan] at hts
          cases hts
          obtain ⟨ws, vs, m, rfl, rfl, hvs⟩ := ih (by rw [Cursor.scan_rest, hr]) hscan
          exact ⟨_ :: ws, vs, n + m, rfl, rfl, by rw [← Cursor.move_move]; exact hvs⟩

namespace Cursor

variable {c : Cursor} {t : Token} {ts us : List Token}

/-- Before a token of a text the cursor goes over a gap. -/
theorem tokens_cons (h : c.tokens.1 = .ok (t :: ts)) (hts : ts ≠ []) :
    ∃ m n, IsGap (c.rest.take m) ∧ (c.move m).pos = t.start ∧ (c.move m).tokens.1 = .ok (t :: ts) ∧
      (c.move n).pos = t.stop ∧ (c.move n).tokens.1 = .ok ts ∧
      LexesTo c.rest [t.pair] (c.move n).rest := by
  generalize hlen : c.rest.length = len
  induction len using Nat.strongRecOn generalizing c with
  | ind len ih =>
      cases hr : c.rest with
      | nil =>
          rw [tokens_nil hr, Except.ok.injEq, List.cons.injEq] at h
          exact absurd h.2.symm hts
      | cons ch cs =>
          cases hf : Lexeme.front? ch cs with
          | none =>
              rw [tokens_stray hr hf] at h
              cases h
          | some l =>
              have hw := Lexeme.width_pos hf
              cases l with
              | gap w =>
                  have hlt : (c.move w).rest.length < len := by
                    simp only [Lexeme.width] at hw
                    rw [move_rest, List.length_drop, ← hlen, hr, List.length_cons]
                    omega
                  rw [tokens_gap hr hf] at h
                  obtain ⟨m, n, hgap, hstart, hhere, hstop, hrest, hlexes⟩ := ih _ hlt h rfl
                  rw [move_move] at hstart hhere hstop hrest
                  rw [move_move, move_rest, hr] at hlexes
                  refine ⟨w + m, w + n, ?_, hstart, hhere, hstop, hrest, .gap hf hlexes⟩
                  rcases Lexeme.front?_gap hf with hfront | ⟨-, hnil⟩
                  · rw [List.take_add, ← hr, ← move_rest]
                    exact (hr ▸ hfront).append hgap
                  · -- an open comment is the end of the text
                    rw [tokens_nil (by rw [move_rest, hr, hnil]), Except.ok.injEq,
                      List.cons.injEq] at h
                    exact absurd h.2.symm hts
              | token k v n =>
                  have hhere := h
                  rw [tokens_token hr hf] at h
                  cases hscan : (c.scan k v n).2.tokens.1 with
                  | error e => rw [hscan] at h; cases h
                  | ok us =>
                      rw [hscan] at h
                      cases h
                      refine ⟨0, n, .nil, rfl, hhere, rfl, hscan, ?_⟩
                      rw [move_rest, hr]
                      exact .last hf

/-- A cursor that reads tokens gets to the end of the last of them. -/
theorem lexesTo (h : c.tokens.1 = .ok (ts ++ us)) (ht : ts.getLast? = some t) (hus : us ≠ []) :
    ∃ n, (c.move n).tokens.1 = .ok us ∧ (c.move n).pos = t.stop ∧
      LexesTo c.rest (ts.map Token.pair) (c.move n).rest := by
  induction ts generalizing c with
  | nil => cases ht
  | cons t₁ ts ih =>
      obtain ⟨-, n, -, -, -, hstop, hrest, hlexes⟩ := tokens_cons h (by simp [hus])
      cases ts with
      | nil =>
          cases ht
          exact ⟨n, hrest, hstop, hlexes⟩
      | cons t₂ ts =>
          obtain ⟨n', hrest', hstop', hlexes'⟩ := ih hrest (by simpa using ht)
          rw [move_move] at hrest' hstop' hlexes'
          exact ⟨n + n', hrest', hstop', hlexes.append hlexes'⟩

/-- The cursor before a token of a source. -/
theorem before {source : String}
    (h : tokenize source = .ok (ts ++ t :: us)) (hus : us ≠ []) :
    ∃ c : Cursor, c.In source.toList ∧ c.pos = t.start ∧ c.tokens.1 = .ok (t :: us) := by
  have hstart : ∃ c : Cursor, c.In source.toList ∧ c.tokens.1 = .ok (t :: us) := by
    cases hlast : ts.getLast? with
    | none =>
        rw [List.getLast?_eq_none_iff] at hlast
        subst hlast
        exact ⟨_, .ofSource source, h⟩
    | some u =>
        obtain ⟨n, htokens, -⟩ := lexesTo h hlast (List.cons_ne_nil t us)
        exact ⟨_, (Cursor.In.ofSource source).move n, htokens⟩
  obtain ⟨c, hin, htokens⟩ := hstart
  obtain ⟨m, -, -, hpos, hhere, -⟩ := tokens_cons htokens hus
  exact ⟨_, hin.move m, hpos, hhere⟩

/-- The text ahead of a cursor at the end of a front of the text. -/
theorem In.rest_eq {a b : List Char} (h : c.In (a ++ b)) (hoffset : c.pos.offset = a.length) :
    c.rest = b := by
  rw [← h.drop_eq, hoffset, List.drop_left]

theorem In.past_eq {a b : List Char} (h : c.In (a ++ b)) (hoffset : c.pos.offset = a.length) :
    c.past.reverse = a := by
  have htext := h.text
  rw [h.rest_eq hoffset] at htext
  exact List.append_cancel_right htext

/-- The cursor behind tokens of a source. -/
theorem behind {source : String} (h : tokenize source = .ok (ts ++ us)) (hus : us ≠ []) :
    ∃ c : Cursor, c.In source.toList ∧ c.tokens.1 = .ok us ∧ (∀ t ∈ ts.getLast?, c.pos = t.stop) ∧
      ((ts = [] ∧ c.past = []) ∨ LexesTo source.toList (ts.map Token.pair) c.rest) := by
  have hin := Cursor.In.ofSource source
  cases ht : ts.getLast? with
  | none =>
      rw [List.getLast?_eq_none_iff] at ht
      subst ht
      exact ⟨_, hin, h, nofun, .inl ⟨rfl, rfl⟩⟩
  | some t =>
      obtain ⟨n, htokens, hpos, hlexes⟩ := lexesTo h ht hus
      refine ⟨_, hin.move n, htokens, ?_, .inr hlexes⟩
      rintro _ ⟨⟩
      exact hpos

end Cursor

/-- The last of the tokens ends where the text ends. -/
def EndWith (w : String) (ts : List Token) : Prop :=
  ∃ t, ts.getLast? = some t ∧ t.stop.offset = w.length

/-- The place behind the text `a` is directly behind the tokens `ts` or directly before the tokens
`us`. -/
def Between (a : String) (ts us : List Token) : Prop :=
  EndWith a ts ∨ ∃ u, us.head? = some u ∧ u.kind ≠ .endOfInput ∧ u.start.offset = a.length

/-- The last of the tokens is a closer, or the text `a` goes on behind it. -/
def SetApart (a : String) (ts : List Token) : Prop :=
  ∀ t ∈ ts.getLast?, t.kind ∈ closers ∨ t.stop.offset < a.length

/-- The text is read as the tokens, and it ends with the last of them. -/
def SpeltAs (w : String) (ts : List Token) : Prop :=
  (∃ p, tokenize w = .ok (ts ++ [Token.ending p])) ∧ EndWith w ts

section

variable {a b w : String} {ts us ws : List Token}

/-- Both sides of a seam are read on their own. -/
theorem Between.lexes (h : tokenize (a ++ b) = .ok (ts ++ us)) (hplace : Between a ts us)
    (hts : SetApart a ts) (hus : us ≠ []) :
    (∀ rest rs, Lexes rest rs → Lexes (a.toList ++ rest) (ts.map Token.pair ++ rs)) ∧
      ∃ body p, us = body ++ [Token.ending p] ∧ Lexes b.toList (body.map Token.pair) := by
  obtain ⟨c, hin, htokens, hpos, hlexes⟩ := Cursor.behind h hus
  rw [String.toList_append] at hin hlexes
  -- the cursor goes on over a gap up to the place
  have hmove : ∃ m, IsGap (c.rest.take m) ∧ (c.move m).pos.offset = a.length ∧
      (c.move m).tokens.1 = .ok us := by
    rcases hplace with ⟨t, ht, hoffset⟩ | ⟨u, hu, hkind, hoffset⟩
    · exact ⟨0, .nil, (congrArg Position.offset (hpos t ht)).trans hoffset, htokens⟩
    · obtain ⟨us', rfl⟩ := List.head?_eq_some_iff.mp hu
      have hus' : us' ≠ [] := by
        obtain ⟨body, p, hbody, -⟩ := Cursor.lexes_of_tokens htokens
        rintro rfl
        have he : [] ++ [u] = body ++ [Token.ending p] := hbody
        cases (List.append_inj' he rfl).2
        exact hkind rfl
      obtain ⟨m, -, hgap, hstart, hhere, -⟩ := Cursor.tokens_cons htokens hus'
      exact ⟨m, hgap, (congrArg Position.offset hstart).trans hoffset, hhere⟩
  obtain ⟨m, hgap, hoffset, hhere⟩ := hmove
  have hin' := hin.move m
  rw [← String.length_toList] at hoffset
  have hpast : c.past.reverse ++ c.rest.take m = a.toList := by
    rw [← hin'.past_eq hoffset]
    simp [Cursor.move]
  have hrest : c.rest = c.rest.take m ++ b.toList := by
    rw [← hin'.rest_eq hoffset, Cursor.move_rest, List.take_append_drop]
  refine ⟨fun rest rs hlexed => ?_, hin'.rest_eq hoffset ▸ Cursor.lexes_of_tokens hhere⟩
  rw [← hpast, List.append_assoc]
  rcases hlexes with ⟨rfl, hnil⟩ | hlexes
  · rw [hnil]
    exact hgap.lexes hlexed
  · rw [hrest, ← hpast, List.append_assoc] at hlexes
    refine hlexes.seam hgap ?_ hlexed
    cases ht : ts.getLast? with
    | none => exact .inl (by simp [List.getLast?_map, ht])
    | some t =>
        rcases hts t ht with hkind | hlt
        · refine .inl ?_
          rw [List.getLast?_map, ht]
          rintro _ ⟨⟩
          exact hkind
        · refine .inr fun hnil => ?_
          have hlength := congrArg List.length hpast
          rw [hnil, List.append_nil, List.length_reverse, ← hin.offset, hpos t ht] at hlength
          rw [String.length_toList] at hlength
          omega

/-- **Insertion at a seam**: a text with a closer of its own at its end adds its tokens, and the
others keep their kinds and values. -/
theorem tokenize_insert (h : tokenize (a ++ b) = .ok (ts ++ us)) (hus : us ≠ [])
    (hplace : Between a ts us) (hts : SetApart a ts) (hw : SpeltAs w ws)
    (hws : ∀ t ∈ ws.getLast?, t.kind ∈ closers) :
    ∃ tokens, tokenize (a ++ w ++ b) = .ok tokens ∧
      tokens.map Token.pair = (ts ++ (ws ++ us)).map Token.pair := by
  obtain ⟨hfront, body, p, rfl, hb⟩ := Between.lexes h hplace hts hus
  obtain ⟨⟨p', hw⟩, hend⟩ := hw
  rw [← String.append_empty (s := w)] at hw
  obtain ⟨hmid, -⟩ :=
    Between.lexes hw (.inl hend) (fun t ht => .inl (hws t ht)) (List.cons_ne_nil _ _)
  have hall := hfront _ _ (hmid _ _ hb)
  rw [← List.append_assoc, ← String.toList_append, ← String.toList_append] at hall
  obtain ⟨body', p'', htokens, hpairs⟩ := Cursor.tokens_of_lexes hall (.ofSource (a ++ w ++ b)) rfl
  refine ⟨_, htokens, ?_⟩
  simp only [List.map_append, hpairs, List.append_assoc]
  rfl

end

end FloorPlan
