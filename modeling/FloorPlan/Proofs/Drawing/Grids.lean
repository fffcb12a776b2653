import FloorPlan.Proofs.Drawing.Spans
import FloorPlan.Proofs.Token.Rendering

/-! # What the grids and the names of a drawing can hold

The mode and the color of a grid are pasted into the outputs as they stand.  The mode is a word of
the grammar.  The color is an identifier, or a number sign with the numbers and identifiers after
it, so its characters are those of words and numerals (`IsGridStyle`).  So are those of the names of
rooms and of components (`parse_names`).  `Yields P p` says that the results of `p` satisfy `P`
before any tokens of a source; its rules follow those of `Forward`. -/

namespace FloorPlan

open Drawing

/-! ### Results of parsing steps -/

/-- The parser stands before tokens of a source. -/
structure Parser.Spelled (s : Parser) : Prop where
  shift : s.shift = 0
  spelled : ∀ t ∈ s.rest, IsSpelled t.pair

theorem Parser.Spelled.advance {s s' : Parser} (hs : s.Spelled) (h : s.Advance s') : s'.Spelled :=
  ⟨h.shift hs.shift, fun t ht => hs.spelled t (h.onward.suffix.subset ht)⟩

/-- Before tokens of a source, the results of `p` satisfy `P`. -/
def Yields {α : Type} (P : α → Prop) (p : Parse α) : Prop :=
  ∀ s a s', s.Spelled → p s = .ok a s' → P a

namespace Yields

variable {α β : Type} {P : α → Prop} {Q : β → Prop} {p : Parse α} {q : α → Parse β}

theorem bind (hforward : Forward p) (hp : Yields P p) (hq : ∀ a, P a → Yields Q (q a)) :
    Yields Q (p >>= q) := by
  intro s b s' hs h
  obtain ⟨a, t, hpa, hqa⟩ := Parse.bind_eq_ok.mp h
  exact hq a (hp s a t hs hpa) t b s' (hs.advance (hforward.ok hs.shift hpa)) hqa

/-- A step whose result does not matter. -/
theorem after (hforward : Forward p) (hq : ∀ a, Yields Q (q a)) : Yields Q (p >>= q) :=
  .bind (P := fun _ => True) hforward (fun _ _ _ _ _ => trivial) fun a _ => hq a

theorem pure {a : α} (h : P a) : Yields P (Pure.pure a : Parse α) := by
  intro s b s' _ hb
  cases hb
  exact h

theorem ite {c : Prop} [Decidable c] {p' : Parse α} (hp : Yields P p) (hp' : Yields P p') :
    Yields P (if c then p else p') := by
  split
  · exact hp
  · exact hp'

/-- The results of a loop are those of its rounds. -/
theorem many {item : Parse (Option α)} (stops : List Kind) (hforward : Forward item)
    (hitem : Yields (fun o => ∀ a ∈ o, P a) item) :
    Yields (fun as => ∀ a ∈ as, P a) (Parse.many stops item) := by
  intro s as s' hs h
  generalize hm : s.rest.length = m
  induction m using Nat.strongRecOn generalizing s as with
  | ind m ih =>
      rw [Parse.many] at h
      split at h
      · cases h
        exact List.forall_mem_nil _
      · cases hp : item s with
        | error f t => rw [hp] at h; cases h
        | ok o t =>
            have hround : ∀ a ∈ o.toList, P a :=
              fun a ha => hitem s o t hs hp a (Option.mem_toList.mp ha)
            simp only [hp] at h
            split at h
            · next hlt =>
                cases hrest : Parse.many stops item t with
                | error f u => rw [hrest] at h; cases h
                | ok as' u =>
                    rw [hrest] at h
                    cases h
                    have ht := hs.advance (hforward.ok hs.shift hp)
                    have hothers := ih _ (by omega) t as' ht hrest rfl
                    exact List.forall_mem_append.mpr ⟨hround, hothers⟩
            · cases h
              exact hround

end Yields

/-- A token that is taken has one of the given kinds and comes from the source. -/
theorem yields_accept? {ks : List Kind} (hend : .endOfInput ∉ ks) :
    Yields (fun o => ∀ t ∈ o, t.kind ∈ ks ∧ IsSpelled t.pair) (Parse.accept? ks) := by
  intro s o s' hs h
  by_cases hk : nextKind s.rest ∈ ks
  · rw [Parse.accept?_some hk] at h
    cases h
    obtain ⟨t, ts, hr, ht⟩ := eq_cons_of_nextKind rfl fun he => hend (he ▸ hk)
    intro u hu
    cases hu
    rw [Parser.current_of_rest hr, ht]
    exact ⟨hk, hs.spelled t (by simp [hr])⟩
  · rw [Parse.accept?_none hk] at h
    cases h
    exact fun t ht => nomatch ht

theorem yields_takeWhile (c : Token → Bool) :
    Yields (fun ts => ∀ t ∈ ts, c t = true ∧ IsSpelled t.pair) (Parse.takeWhile c) := by
  intro s ts s' hs h
  rw [Parse.takeWhile_run] at h
  cases h
  intro t ht
  exact ⟨List.all_eq_true.mp List.all_takeWhile t ht,
    hs.spelled t ((List.takeWhile_prefix c).subset ht)⟩

/-! ### Modes and colors -/

/-- A character of a color: one of a word or a numeral, or a mark before them. -/
def isColorChar (c : Char) : Bool := isWordChar c || c = '.' || c = '@' || c = '#'

/-- The modes of grids. -/
def gridModeTexts : List String := Parse.modeWords.map Kind.text

/-- What the grammar allows for the mode and the color of a grid. -/
structure IsGridStyle (mode : String) (color : Option String) : Prop where
  mode : mode ∈ gridModeTexts
  color : ∀ text ∈ color, ∀ c ∈ text.toList, isColorChar c = true

/-- A mode word is the text of its kind. -/
theorem IsSpelled.mode {p : Kind × String} (h : IsSpelled p) (hk : p.1 ∈ Parse.modeWords) :
    p.2 ∈ gridModeTexts := by
  have hwords : ∀ e ∈ Kind.words, e.2 ∈ Parse.modeWords → e.1 ∈ gridModeTexts := by decide
  have hmarks : ∀ e ∈ Kind.marks, e.2 ∉ Parse.modeWords := by decide
  cases h with
  | string s => simp [Parse.modeWords] at hk
  | number _ => simp [Parse.modeWords] at hk
  | @word cs _ =>
      rcases wordKind_cases cs with hw | hw | hw
      · simp [hw, Parse.modeWords] at hk
      · simp [hw, Parse.modeWords] at hk
      · exact hwords _ hw hk
  | @mark c k hm => exact absurd hk (hmarks (c, k) (Kind.mem_of_lookup hm))

/-- The kinds of the tokens that make up a color. -/
def colorKinds : List Kind := [.hash, .number, .identifier]

theorem IsSpelled.color {p : Kind × String} (h : IsSpelled p) (hk : p.1 ∈ colorKinds) :
    ∀ c ∈ p.2.toList, isColorChar c = true := by
  have hmarks : ∀ e ∈ Kind.marks, e.2 ∈ colorKinds → isColorChar e.1 = true := by decide
  intro c hc
  cases h with
  | string s => simp [colorKinds] at hk
  | number hn =>
      rw [String.toList_ofList] at hc
      rcases hn.mem hc with hd | rfl
      · simp [isColorChar, isWordChar, hd]
      · rfl
  | word hw =>
      rw [String.toList_ofList] at hc
      rcases hw.mem hc with hc | rfl
      · simp [isColorChar, hc]
      · rfl
  | @mark m k hm =>
      rw [String.toList_ofList, List.mem_singleton] at hc
      rw [hc]
      exact hmarks (m, k) (Kind.mem_of_lookup hm) hk

theorem yields_identifier? :
    Yields (fun o => ∀ text ∈ o, ∀ c ∈ text.toList, isColorChar c = true) Parse.identifier? := by
  refine .bind forward_accept? (yields_accept? (by decide)) fun o ho => .pure ?_
  intro text htext
  obtain ⟨t, ht, rfl⟩ := Option.map_eq_some_iff.mp htext
  obtain ⟨hk, hspelled⟩ := ho t ht
  exact hspelled.color (List.mem_of_mem_tail (List.mem_of_mem_tail hk))

theorem yields_gridColor :
    Yields (fun o => ∀ text ∈ o, ∀ c ∈ text.toList, isColorChar c = true) Parse.gridColor := by
  have hsharp : .endOfInput ∉ [Kind.hash] := by decide
  refine .after forward_accepts fun _ => .ite ?_ (.pure fun text ht => nomatch ht)
  refine .bind forward_accept? (yields_accept? hsharp) fun o ho => ?_
  cases o with
  | none => exact yields_identifier?
  | some t =>
      refine .bind forward_takeWhile (yields_takeWhile _) fun parts hparts => .pure ?_
      intro text htext c hc
      cases htext
      rw [String.toList_join, List.mem_flatMap] at hc
      obtain ⟨value, hvalue, hc⟩ := hc
      -- each piece of the color is the value of a token
      rcases List.mem_cons.mp hvalue with rfl | hvalue
      · obtain ⟨hk, hspelled⟩ := ho t rfl
        have hkind : t.pair.1 ∈ colorKinds := by
          rw [List.mem_singleton] at hk
          simp [Token.pair, hk, colorKinds]
        exact hspelled.color hkind c hc
      · obtain ⟨u, hu, rfl⟩ := List.mem_map.mp hvalue
        obtain ⟨hk, hspelled⟩ := hparts u hu
        have hkind : u.pair.1 ∈ colorKinds :=
          List.mem_cons_of_mem _ (List.contains_iff_mem.mp hk)
        exact hspelled.color hkind c hc

/-! ### Statements -/

theorem yields_grid : Yields (fun g => IsGridStyle g.mode g.color) Parse.grid := by
  have hwords : .endOfInput ∉ Parse.modeWords := by decide
  refine .after forward_take fun _ =>
    .bind forward_accept? (yields_accept? hwords) fun mode hmode => ?_
  refine .after forward_gridSize fun _ =>
    .bind forward_gridColor yields_gridColor fun color hcolor => ?_
  refine .after forward_gridAlpha fun _ => .after forward_skip fun _ =>
    .after (forward_spanFrom _) fun _ => .pure ⟨?_, hcolor⟩
  cases mode with
  | none => exact List.mem_cons_self
  | some t => exact (hmode t rfl).2.mode (hmode t rfl).1

/-- A text of the characters of words, which may be empty. -/
def IsPlainName (name : String) : Prop := ∀ c ∈ name.toList, isColorChar c = true

/-- A token of the given kind, or nothing in its place. -/
theorem yields_expect {k : Kind} (hend : k ≠ .endOfInput) :
    Yields (fun o => ∀ t ∈ o, t.kind = k ∧ IsSpelled t.pair) (Parse.expect k) := by
  have hkinds : Kind.endOfInput ∉ [k] := by simpa using hend.symm
  refine .bind forward_accept? (yields_accept? hkinds) fun o ho => ?_
  cases o with
  | none =>
      exact .after .get fun _ => .after forward_complain fun _ => .pure fun t ht => nomatch ht
  | some t =>
      obtain ⟨hk, hspelled⟩ := ho t rfl
      refine .pure fun t' ht' => ?_
      cases ht'
      exact ⟨List.mem_singleton.mp hk, hspelled⟩

theorem yields_name : Yields IsPlainName (Parse.expectValue .identifier) := by
  refine .bind forward_expect (yields_expect (by decide)) fun o ho => .pure ?_
  cases o with
  | none => exact List.forall_mem_nil _
  | some t =>
      obtain ⟨hk, hspelled⟩ := ho t rfl
      exact hspelled.color (by simp [Token.pair, hk, colorKinds])

theorem yields_room : Yields (fun r => IsPlainName r.id) Parse.room := by
  refine .after forward_take fun _ => .bind forward_expectValue yields_name fun id hid => ?_
  exact .after forward_skip fun _ => .after forward_coordinate fun _ => .after forward_skip fun _ =>
    .after forward_coordinate fun _ => .after forward_roomBody fun _ =>
      .after (forward_spanFrom _) fun _ => .pure hid

theorem yields_copies : Yields (fun r => IsPlainName r.component) Parse.copies := by
  refine .after forward_take fun _ =>
    .bind forward_expectValue yields_name fun component hname => ?_
  exact .after forward_segment fun _ => .after forward_skip fun _ => .after forward_measure fun _ =>
    .after forward_skip fun _ => .after (forward_spanFrom _) fun _ => .pure hname

/-! ### Drawings -/

section

variable {P : Grid → Prop}

/-- A statement of a draw block with plain names, or a grid with the given property. -/
def BodyItem.Fits (P : Grid → Prop) : BodyItem → Prop
  | .room r => IsPlainName r.id
  | .grid g => P g
  | .copies r => IsPlainName r.component
  | .wall _ | .door _ | .placement _ => True

theorem yields_bodyItem (h : Yields P Parse.grid) :
    Yields (fun o => ∀ item ∈ o, BodyItem.Fits P item) Parse.bodyItem := by
  have hitem : ∀ {α : Type} {p : Parse α} {f : α → BodyItem}, Forward p →
      Yields (fun a => BodyItem.Fits P (f a)) p →
      Yields (fun o => ∀ item ∈ o, BodyItem.Fits P item) (p >>= fun a => pure (some (f a))) := by
    intro α p f hp hf
    refine .bind hp hf fun a ha => .pure ?_
    intro item hi
    cases hi
    exact ha
  refine .after .get fun s => ?_
  split
  · exact hitem statement_room.toForward yields_room
  · exact hitem statement_wall.toForward fun _ _ _ _ _ => trivial
  · exact hitem statement_door.toForward fun _ _ _ _ _ => trivial
  · exact hitem statement_grid.toForward h
  · exact hitem statement_placement.toForward fun _ _ _ _ _ => trivial
  · exact hitem statement_copies.toForward yields_copies
  · exact .after forward_complain fun _ => .after (.discard forward_take) fun _ =>
      .pure fun item hi => nomatch hi

/-- A drawing with plain names, whose grids have the given property. -/
structure Drawing.Fits (P : Grid → Prop) (d : Drawing) : Prop where
  rooms : ∀ r ∈ d.rooms, IsPlainName r.id
  grids : ∀ g ∈ d.grids, P g
  repeats : ∀ r ∈ d.repeats, IsPlainName r.component

theorem yields_drawing (h : Yields P Parse.grid) : Yields (Drawing.Fits P) Parse.drawing := by
  refine .after .get fun _ => .after forward_moduleDecl? fun _ =>
    .after (.many _ statement_topItem.toForward) fun _ => .after forward_skip fun _ =>
      .after forward_expectValue fun _ => .after forward_skip fun _ =>
        .after forward_requiredCanvas fun _ => ?_
  refine .bind (.many _ statement_bodyItem.toForward)
    (.many _ statement_bodyItem.toForward (yields_bodyItem h)) fun body hbody => ?_
  refine .after forward_skip fun _ => .after (forward_spanFrom _) fun _ =>
    .after forward_warnTrailing fun _ => .pure ⟨?_, ?_, ?_⟩
  · intro r hr
    obtain ⟨item, hitem, hr⟩ := List.mem_filterMap.mp hr
    cases item <;> cases hr
    exact hbody _ hitem
  · intro g hg
    obtain ⟨item, hitem, hg⟩ := List.mem_filterMap.mp hg
    cases item <;> cases hg
    exact hbody _ hitem
  · intro r hr
    obtain ⟨item, hitem, hr⟩ := List.mem_filterMap.mp hr
    cases item <;> cases hr
    exact hbody _ hitem

/-- What the statement of a grid gives holds of the drawing of a source. -/
theorem fits_of_yields (h : Yields P Parse.grid) {source : String} {tokens : List Token}
    {parsed : Parsed} (htokens : tokenize source = .ok tokens)
    (hparse : parse tokens = .ok parsed) : parsed.drawing.Fits P := by
  obtain ⟨body, p, rfl, hlexes⟩ := Cursor.lexes_of_tokens htokens
  have hregular : ∀ t ∈ body, Regular t.pair :=
    fun t ht => hlexes.regular _ (List.mem_map_of_mem ht)
  have hspelled : ∀ t ∈ body, IsSpelled t.pair :=
    fun t ht => hlexes.spelled _ (List.mem_map_of_mem ht)
  unfold parse at hparse
  rw [Parser.ofTokens_regular hregular] at hparse
  cases hrun : Parse.drawing ⟨[], body, Token.ending p, 0, [], rfl⟩ with
  | error f s' => rw [hrun] at hparse; cases hparse
  | ok d s' =>
      rw [hrun] at hparse
      cases hparse
      exact yields_drawing h _ d s' ⟨rfl, hspelled⟩ hrun

end

section

variable {source : String} {tokens : List Token} {parsed : Parsed}

/-- The grids of a source have modes and colors that the grammar allows. -/
theorem parse_grids (htokens : tokenize source = .ok tokens) (hparse : parse tokens = .ok parsed) :
    ∀ g ∈ parsed.drawing.grids, IsGridStyle g.mode g.color :=
  (fits_of_yields yields_grid htokens hparse).grids

/-- The names of rooms and of components in a source are plain. -/
theorem parse_names (htokens : tokenize source = .ok tokens) (hparse : parse tokens = .ok parsed) :
    (∀ r ∈ parsed.drawing.rooms, IsPlainName r.id) ∧
      ∀ r ∈ parsed.drawing.repeats, IsPlainName r.component :=
  have hfits := fits_of_yields yields_grid htokens hparse
  ⟨hfits.rooms, hfits.repeats⟩

end

end FloorPlan
