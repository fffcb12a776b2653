import FloorPlan.Proofs.Drawing.Printing
import FloorPlan.Proofs.Grammar.Recognition

/-! # Parsing steps that read words

`Reads p ws F Q` says that `p`, before the tokens of the words `ws`, takes exactly these tokens
and reports nothing, and that its result satisfies `Q`; the kind of the token that comes after
them satisfies `F`.  Steps are put together by `Reads.bind`, loops by `reads_many`. -/

namespace FloorPlan

/-! ### Joined items -/

namespace Joined

variable {α β : Type} {tokens : α → List β → Prop} {a : α} {as bs : List α} {ts : List β}

theorem nil_iff : Joined tokens [] ts ↔ ts = [] := by
  constructor
  · intro h
    cases h with
    | nil => rfl
  · rintro rfl
    exact .nil

theorem cons_iff : Joined tokens (a :: as) ts ↔
    ∃ us vs, ts = us ++ vs ∧ tokens a us ∧ Joined tokens as vs := by
  constructor
  · intro h
    cases h with
    | cons first others => exact ⟨_, _, rfl, first, others⟩
  · rintro ⟨us, vs, rfl, first, others⟩
    exact .cons first others

theorem append_iff : Joined tokens (as ++ bs) ts ↔
    ∃ us vs, ts = us ++ vs ∧ Joined tokens as us ∧ Joined tokens bs vs := by
  induction as generalizing ts with
  | nil =>
      constructor
      · exact fun h => ⟨[], ts, rfl, .nil, h⟩
      · rintro ⟨us, vs, rfl, hnil, h⟩
        rwa [nil_iff.mp hnil]
  | cons a as ih =>
      rw [List.cons_append, cons_iff]
      constructor
      · rintro ⟨us, vs, rfl, first, others⟩
        obtain ⟨us', vs', rfl, h₁, h₂⟩ := ih.mp others
        exact ⟨us ++ us', vs', by simp, .cons first h₁, h₂⟩
      · rintro ⟨us, vs, rfl, h₁, h₂⟩
        obtain ⟨us', vs', rfl, first, others⟩ := cons_iff.mp h₁
        exact ⟨us', vs' ++ vs, by simp, first, ih.mpr ⟨vs', vs, rfl, others, h₂⟩⟩

theorem mono {tokens' : α → List β → Prop} (h : ∀ a ts, tokens a ts → tokens' a ts)
    (hj : Joined tokens as ts) : Joined tokens' as ts := by
  induction hj with
  | nil => exact .nil
  | cons first _ ih => exact .cons (h _ _ first) ih

theorem flatMap (f : α → List β) (as : List α) :
    Joined (fun a ts => ts = f a) as (as.flatMap f) := by
  induction as with
  | nil => exact .nil
  | cons a as ih => exact .cons rfl ih

end Joined

/-! ### Steps before words -/

/-- The tokens are those of the words. -/
def WordTokens (ws : List Word) (ts : List Token) : Prop :=
  Joined Word.Tokens ws (ts.map Token.pair)

theorem WordTokens.append_iff {ws ws' : List Word} {ts : List Token} :
    WordTokens (ws ++ ws') ts ↔ ∃ us vs, ts = us ++ vs ∧ WordTokens ws us ∧ WordTokens ws' vs := by
  unfold WordTokens
  rw [Joined.append_iff]
  constructor
  · rintro ⟨us, vs, he, h₁, h₂⟩
    obtain ⟨us', vs', rfl, rfl, rfl⟩ := List.map_eq_append_iff.mp he
    exact ⟨us', vs', rfl, h₁, h₂⟩
  · rintro ⟨us, vs, rfl, h₁, h₂⟩
    exact ⟨_, _, List.map_append, h₁, h₂⟩

theorem WordTokens.cons_iff {w : Word} {ws : List Word} {ts : List Token} :
    WordTokens (w :: ws) ts ↔
      ∃ us vs, ts = us ++ vs ∧ w.Tokens (us.map Token.pair) ∧ WordTokens ws vs := by
  rw [← List.singleton_append, append_iff]
  unfold WordTokens
  simp only [Joined.cons_iff, Joined.nil_iff]
  constructor
  · rintro ⟨us, vs, rfl, ⟨us', _, he, hw, rfl⟩, h⟩
    rw [List.append_nil] at he
    exact ⟨us, vs, rfl, he ▸ hw, h⟩
  · rintro ⟨us, vs, rfl, hw, h⟩
    exact ⟨us, vs, rfl, ⟨_, [], by simp, hw, rfl⟩, h⟩

theorem WordTokens.nil_iff {ts : List Token} : WordTokens [] ts ↔ ts = [] := by
  unfold WordTokens
  rw [Joined.nil_iff, List.map_eq_nil_iff]

theorem WordTokens.single {w : Word} {ts : List Token} (h : WordTokens [w] ts) :
    w.Tokens (ts.map Token.pair) := by
  obtain ⟨us, vs, rfl, hw, hnil⟩ := cons_iff.mp h
  rwa [nil_iff.mp hnil, List.append_nil]

theorem eq_singleton_of_pair {ts : List Token} {k : Kind} {v : String}
    (h : ts.map Token.pair = [(k, v)]) : ∃ t, ts = [t] ∧ t.kind = k ∧ t.value = v := by
  obtain ⟨t, rfl, ht⟩ := List.map_eq_singleton_iff.mp h
  exact ⟨t, rfl, congrArg Prod.fst ht, congrArg Prod.snd ht⟩

/-- No condition on the kind of the next token. -/
def anyKind (_ : Kind) : Prop := True

/-- The step `p` takes the tokens of the words `ws`, and its result satisfies `Q`. -/
def Reads {α : Type} (p : Parse α) (ws : List Word) (F : Kind → Prop) (Q : α → Prop) : Prop :=
  ∀ (s : Parser) (ts rest : List Token), s.Steady → s.rest = ts ++ rest → WordTokens ws ts →
    F (nextKind rest) → ∃ a, p s = .ok a (s.move ts.length) ∧ Q a

/-- Whatever `F'` allows after the words, what they start with is allowed by `F`. -/
def Leads (ws : List Word) (F' F : Kind → Prop) : Prop :=
  ∀ ts rest, WordTokens ws ts → F' (nextKind rest) → F (nextKind (ts ++ rest))

/-- The words start with a token whose kind is allowed by `F`. -/
def Opens (ws : List Word) (F : Kind → Prop) : Prop :=
  ∀ ts, WordTokens ws ts → ∃ t us, ts = t :: us ∧ F t.kind

section

variable {ws ws' : List Word} {F F' : Kind → Prop} {k : Kind}

theorem opens_keyword (h : F k) : Opens (.keyword k :: ws) F := by
  intro ts hts
  obtain ⟨us, vs, rfl, hk, -⟩ := WordTokens.cons_iff.mp hts
  obtain ⟨t, rfl, ht, -⟩ := eq_singleton_of_pair hk
  exact ⟨t, vs, rfl, by rwa [ht]⟩

theorem opens_name {w : String} (h : F .identifier) : Opens (.name w :: ws) F := by
  intro ts hts
  obtain ⟨us, vs, rfl, hk, -⟩ := WordTokens.cons_iff.mp hts
  obtain ⟨t, rfl, ht, -⟩ := eq_singleton_of_pair hk
  exact ⟨t, vs, rfl, by rwa [ht]⟩

theorem opens_number {x : Float} (h : F .number) : Opens (.number x :: ws) F := by
  intro ts hts
  obtain ⟨us, vs, rfl, hk, -⟩ := WordTokens.cons_iff.mp hts
  obtain ⟨v, hv, -⟩ := hk
  obtain ⟨t, rfl, ht, -⟩ := eq_singleton_of_pair hv
  exact ⟨t, vs, rfl, by rwa [ht]⟩

theorem Opens.leads (h : Opens ws F) : Leads ws F' F := by
  intro ts rest hts _
  obtain ⟨t, us, rfl, ht⟩ := h ts hts
  exact ht

theorem Opens.mono (h : Opens ws F) (hF : ∀ k, F k → F' k) : Opens ws F' := by
  intro ts hts
  obtain ⟨t, us, he, hk⟩ := h ts hts
  exact ⟨t, us, he, hF _ hk⟩

theorem Opens.append (h : Opens ws F) (ws' : List Word) : Opens (ws ++ ws') F := by
  intro ts hts
  obtain ⟨us, vs, rfl, hus, -⟩ := WordTokens.append_iff.mp hts
  obtain ⟨t, us', rfl, ht⟩ := h us hus
  exact ⟨t, us' ++ vs, rfl, ht⟩

theorem leads_any : Leads ws F' anyKind := fun _ _ _ _ => trivial

theorem nextKind_of_keyword {ts : List Token} (h : WordTokens (.keyword k :: ws) ts)
    (rest : List Token) : nextKind (ts ++ rest) = k := by
  obtain ⟨t, us, rfl, ht⟩ := opens_keyword (F := (· = k)) rfl ts h
  exact ht

theorem nextKind_of_name {n : String} {ts : List Token} (h : WordTokens (.name n :: ws) ts)
    (rest : List Token) : nextKind (ts ++ rest) = .identifier := by
  obtain ⟨t, us, rfl, ht⟩ := opens_name (F := (· = .identifier)) rfl ts h
  exact ht

/-- What is optional starts with its own first word, or what comes after it is seen. -/
theorem leads_option {α : Type} {words : α → List Word} {a : Option α}
    (hw : ∀ b ∈ a, Opens (words b ++ ws) F) (h : Leads ws F' F) :
    Leads (optionWords words a ++ ws) F' F := by
  cases a with
  | none => exact h
  | some b => exact (hw b rfl).leads

/-- Joined items start with the first of them, or what comes after them is seen. -/
theorem leads_joined {α : Type} {words : α → List Word → Prop} {as : List α}
    (hw : ∀ a ∈ as, ∀ ws, words a ws → Opens ws F) (hj : Joined words as ws) (h : Leads ws' F' F) :
    Leads (ws ++ ws') F' F := by
  cases hj with
  | nil => exact h
  | cons first others =>
      rw [List.append_assoc]
      exact ((hw _ (by simp) _ first).append _).leads

end

/-! ### Rules -/

namespace Reads

variable {α β : Type} {p : Parse α} {q : α → Parse β} {ws ws' : List Word}
variable {F F' : Kind → Prop} {P : α → Prop} {Q : β → Prop}

/-- One step after another. -/
theorem bind (hp : Reads p ws F P) (hF : Leads ws' F' F)
    (hq : ∀ a, P a → Reads (q a) ws' F' Q) : Reads (p >>= q) (ws ++ ws') F' Q := by
  intro s ts rest hs hr hts hF'
  obtain ⟨us, vs, rfl, hus, hvs⟩ := WordTokens.append_iff.mp hts
  rw [List.append_assoc] at hr
  obtain ⟨a, hpa, ha⟩ := hp s us (vs ++ rest) hs hr hus (hF vs rest hvs hF')
  have hrest : (s.move us.length).rest = vs ++ rest := by
    rw [Parser.move_rest, hr, List.drop_left]
  obtain ⟨b, hqb, hb⟩ := hq a ha (s.move us.length) vs rest (hs.move _) hrest hvs hF'
  refine ⟨b, ?_, hb⟩
  rw [Parse.bind_ok hpa, hqb, Parser.move_move, List.length_append]

/-- One step after another, the first of which may stop anywhere. -/
theorem andThen (hp : Reads p ws anyKind P) (hq : ∀ a, P a → Reads (q a) ws' F' Q) :
    Reads (p >>= q) (ws ++ ws') F' Q :=
  hp.bind leads_any hq

theorem weaken (hp : Reads p ws F P) (hF : ∀ k, F' k → F k) : Reads p ws F' P :=
  fun s ts rest hs hr hts hk => hp s ts rest hs hr hts (hF _ hk)

theorem anywhere (hp : Reads p ws anyKind P) : Reads p ws F P := hp.weaken fun _ _ => trivial

/-- A step before one that changes nothing. -/
theorem before (hp : Reads p ws F P)
    (hq : ∀ a, P a → ∀ s : Parser, s.shift = 0 → ∃ b, q a s = .ok b s ∧ Q b) :
    Reads (p >>= q) ws F Q := by
  intro s ts rest hs hr hts hF
  obtain ⟨a, hpa, ha⟩ := hp s ts rest hs hr hts hF
  obtain ⟨b, hqb, hb⟩ := hq a ha (s.move ts.length) hs.shift
  exact ⟨b, by rw [Parse.bind_ok hpa, hqb], hb⟩

/-- A step that changes nothing before another one. -/
theorem after {s s' : Parser} {a : α} (hp : p s = .ok a s) (hq : ∃ b, q a s = .ok b s' ∧ Q b) :
    ∃ b, (p >>= q) s = .ok b s' ∧ Q b := by
  obtain ⟨b, hqb, hb⟩ := hq
  exact ⟨b, by rw [Parse.bind_ok hp, hqb], hb⟩

/-- A step before one that does anything. -/
theorem run {s s' : Parser} {ts rest : List Token} (hp : Reads p ws F P) (hs : s.Steady)
    (hr : s.rest = ts ++ rest) (hts : WordTokens ws ts) (hF : F (nextKind rest))
    (hq : ∀ a, P a → ∃ b, q a (s.move ts.length) = .ok b s' ∧ Q b) :
    ∃ b, (p >>= q) s = .ok b s' ∧ Q b := by
  obtain ⟨a, hpa, ha⟩ := hp s ts rest hs hr hts hF
  obtain ⟨b, hqb, hb⟩ := hq a ha
  exact ⟨b, by rw [Parse.bind_ok hpa, hqb], hb⟩

theorem get {q : Parser → Parse β} (hq : ∀ s, Reads (q s) ws F Q) :
    Reads (MonadState.get >>= q) ws F Q :=
  fun s ts rest hs hr hts hF => after (Parse.get_run s) (hq s s ts rest hs hr hts hF)

/-- A statement is what a production gives. -/
theorem statement {γ : Type} {y : γ} (hp : Reads p ws F P) (f : α → β) (e : β → γ)
    (hf : ∀ a, P a → e (f a) = y) :
    Reads (p >>= fun a => pure (some (f a))) ws F fun o => o.map e = some y := by
  refine hp.before fun a ha s _ => ⟨some (f a), Parse.pure_run _ s, ?_⟩
  rw [Option.map_some, hf a ha]

theorem discard (hp : Reads p ws F P) : Reads (Functor.discard p) ws F fun _ => True := by
  intro s ts rest hs hr hts hF
  obtain ⟨a, hpa, -⟩ := hp s ts rest hs hr hts hF
  exact ⟨(), Parse.discard_ok hpa, trivial⟩

theorem mono (hp : Reads p ws F P) {P' : α → Prop} (hP : ∀ a, P a → P' a) : Reads p ws F P' := by
  intro s ts rest hs hr hts hF
  obtain ⟨a, hpa, ha⟩ := hp s ts rest hs hr hts hF
  exact ⟨a, hpa, hP a ha⟩

end Reads

/-! ### Elementary steps -/

section

variable {α : Type} {Q : α → Prop} {w : Word} {k : Kind}

/-- A step that takes the one token of a word. -/
theorem reads_token {p : Parse α} (hw : ∀ us, w.Tokens us → ∃ u, us = [u])
    (hp : ∀ s : Parser, w.Tokens [s.current.pair] → nextKind s.rest = s.current.kind →
      ∃ a, p s = .ok a (s.move 1) ∧ Q a) : Reads p [w] anyKind Q := by
  intro s ts rest _ hr hts _
  have htokens := hts.single
  obtain ⟨u, hu⟩ := hw _ htokens
  obtain ⟨t, rfl, ht⟩ := List.map_eq_singleton_iff.mp hu
  have hcur : s.current = t := Parser.current_of_rest hr
  have hnext : nextKind s.rest = s.current.kind := by
    rw [hr, hcur]
    rfl
  refine hp s ?_ hnext
  rwa [hcur]

theorem reads_keyword {p : Parse α} (hp : ∀ s : Parser, nextKind s.rest = k →
    s.current.value = k.text → ∃ a, p s = .ok a (s.move 1) ∧ Q a) :
    Reads p [.keyword k] anyKind Q := by
  refine reads_token (fun us h => ⟨_, h⟩) fun s htokens hnext => ?_
  have hpair := List.singleton_inj.mp htokens
  exact hp s (hnext.trans (congrArg Prod.fst hpair)) (congrArg Prod.snd hpair)

theorem reads_take : Reads Parse.take [.keyword k] anyKind fun _ => True :=
  reads_keyword fun s _ _ => ⟨_, Parse.take_run s, trivial⟩

theorem reads_skip : Reads (Parse.skip k) [.keyword k] anyKind fun _ => True :=
  reads_keyword fun _ hk _ => ⟨_, Parse.discard_ok (Parse.expect_some hk), trivial⟩

theorem reads_accepts : Reads (Parse.accepts [k]) [.keyword k] anyKind (· = true) :=
  reads_keyword fun _ hk _ => ⟨_, Parse.accepts_true (by simp [hk]), rfl⟩

/-- A part with a keyword of its own is missing where another token comes next. -/
theorem reads_missing {F : Kind → Prop} {f : Bool → Parse α} {a : α} (hF : ∀ l, F l → l ≠ k)
    (hf : ∀ s, f false s = .ok a s) (hQ : Q a) : Reads (Parse.accepts [k] >>= f) [] F Q := by
  intro s ts rest _ hr hts hnext
  rw [WordTokens.nil_iff.mp hts] at hr ⊢
  have hother : nextKind s.rest ∉ [k] := by
    rw [hr]
    simpa using hF _ hnext
  exact Reads.after (Parse.accepts_false hother) ⟨a, hf s, hQ⟩

/-- The tokens of the given kinds are taken up to one of another kind. -/
theorem takeWhile_kinds {f : Kind → Bool} {ts rest : List Token}
    (hall : ∀ t ∈ ts, f t.kind = true) (hstop : f (nextKind rest) = false) :
    (ts ++ rest).takeWhile (fun t => f t.kind) = ts := by
  refine takeWhile_front hall fun t ht => ?_
  cases rest with
  | nil => cases ht
  | cons u us =>
      cases ht
      exact hstop

theorem reads_name {p : Parse α} {n : String} (hp : ∀ s : Parser, nextKind s.rest = .identifier →
    s.current.value = n → ∃ a, p s = .ok a (s.move 1) ∧ Q a) :
    Reads p [.name n] anyKind Q := by
  refine reads_token (fun us h => ⟨_, h⟩) fun s htokens hnext => ?_
  have hpair := List.singleton_inj.mp htokens
  exact hp s (hnext.trans (congrArg Prod.fst hpair)) (congrArg Prod.snd hpair)

theorem reads_identifier? {n : String} : Reads Parse.identifier? [.name n] anyKind (· = some n) :=
  reads_name fun _ hk hv => ⟨_, Parse.identifier?_some hk, congrArg some hv⟩

theorem reads_expectValue {n : String} :
    Reads (Parse.expectValue .identifier) [.name n] anyKind (· = n) :=
  reads_name fun _ hk hv => ⟨_, Parse.bind_ok (Parse.expect_some hk), hv⟩

theorem reads_string {n : String} :
    Reads (Parse.expect .string) [.string n] anyKind (fun t => t.map (·.value) = some n) := by
  refine reads_token (fun us h => ⟨_, h⟩) fun s htokens hnext => ?_
  have hpair := List.singleton_inj.mp htokens
  exact ⟨_, Parse.expect_some (hnext.trans (congrArg Prod.fst hpair)),
    congrArg some (congrArg Prod.snd hpair)⟩

theorem reads_number {x : Float} : Reads Parse.number [.number x] anyKind (· = x) := by
  refine reads_token (fun us ⟨v, hv, _⟩ => ⟨_, hv⟩) fun s htokens hnext => ?_
  obtain ⟨v, htokens, hv⟩ := htokens
  have hpair := List.singleton_inj.mp htokens
  have hvalue : s.current.value = v := congrArg Prod.snd hpair
  refine ⟨x, ?_, rfl⟩
  unfold Parse.number
  rw [Parse.bind_ok (Parse.expect_some (hnext.trans (congrArg Prod.fst hpair)))]
  simp [Parse.numberValue, hvalue, hv, Parse.pure_run]

/-- The end of a production. -/
theorem span_ok {s : Parser} (hs : s.shift = 0) (start : Position) {f : Span → α}
    (hQ : ∀ span, Q (f span)) :
    ∃ b, (Parse.spanFrom start >>= fun span => pure (f span) : Parse α) s = .ok b s ∧ Q b := by
  obtain ⟨span, hp⟩ := Parse.spanFrom_ok hs start
  exact ⟨f span, by rw [Parse.bind_ok hp, Parse.pure_run], hQ span⟩

/-! ### Repetition -/

/-- A loop reads items one after the other, up to a token that stops it. -/
theorem reads_many {γ : Type} {item : Parse (Option α)} {words : α → List Word → Prop}
    {stops : List Kind} {F : Kind → Prop} {e : α → γ} {as : List α} {ws : List Word}
    (hitem : ∀ a ∈ as, ∀ ws, words a ws → Reads item ws F fun o => o.map e = some (e a))
    (hstart : ∀ a ∈ as, ∀ ws, words a ws → Opens ws fun k => k ∉ stops ∧ F k)
    (hstop : ∀ k ∈ stops, F k) (h : Joined words as ws) :
    Reads (Parse.many stops item) ws (· ∈ stops) fun bs => bs.map e = as.map e := by
  induction h with
  | nil =>
      intro s ts rest _ hr hts hF
      rw [WordTokens.nil_iff.mp hts] at hr ⊢
      refine ⟨[], ?_, rfl⟩
      rw [Parse.many, if_pos (Parser.sees_iff.mpr (by rwa [hr]))]
      rfl
  | @cons a as ws ws' hfirst hothers ih =>
      intro s ts rest hs hr hts hF
      obtain ⟨us, vs, rfl, hus, hvs⟩ := WordTokens.append_iff.mp hts
      obtain ⟨t, us', hcons, hk, -⟩ := hstart a (by simp) ws hfirst us hus
      -- the next item or the token that stops the loop may come after this item
      have hnext : F (nextKind (vs ++ rest)) := by
        cases hothers with
        | nil =>
            rw [WordTokens.nil_iff.mp hvs]
            exact hstop _ hF
        | cons hsecond _ =>
            obtain ⟨vs₁, vs₂, rfl, hvs₁, -⟩ := WordTokens.append_iff.mp hvs
            obtain ⟨t', vs', rfl, -, ht'⟩ := hstart _ (by simp) _ hsecond vs₁ hvs₁
            exact ht'
      rw [List.append_assoc] at hr
      obtain ⟨o, hpo, ho⟩ := hitem a (by simp) ws hfirst s us (vs ++ rest) hs hr hus hnext
      obtain ⟨b, rfl, hb⟩ := Option.map_eq_some_iff.mp ho
      have hrest : (s.move us.length).rest = vs ++ rest := by
        rw [Parser.move_rest, hr, List.drop_left]
      obtain ⟨bs, hpb, hbs⟩ := ih (fun a ha => hitem a (by simp [ha]))
        (fun a ha => hstart a (by simp [ha])) (s.move us.length) vs rest (hs.move _) hrest hvs hF
      have hmap : (b :: bs).map e = (a :: as).map e := by
        rw [List.map_cons, List.map_cons, hb, hbs]
      refine ⟨b :: bs, ?_, hmap⟩
      have hsees : ¬ s.sees stops = true := by
        intro he
        have hmem := Parser.sees_iff.mp he
        rw [hr, hcons] at hmem
        exact hk hmem
      have hlt : (s.move us.length).rest.length < s.rest.length := by
        rw [hrest, hr, hcons, List.length_append, List.length_append, List.length_append,
          List.length_cons]
        omega
      rw [Parse.many, if_neg hsees, hpo]
      simp only [if_pos hlt, hpb]
      rw [Parser.move_move, List.length_append]
      rfl

end

end FloorPlan
