import FloorPlan.Token

/-! # Phrases

A phrase describes lists of tokens: token classes, sequence, choice and repetition, and one token
of lookahead.  `Derives G ts rest` says that `G` describes a front of `ts` and that `rest` comes
after it; the lookahead sees `rest`.

A derivation looks no further than the kind of the next token (`Derives.front`), so a phrase that
ends with a token describes a front of `ts` whatever comes after it (`Closed.word`). -/

namespace FloorPlan

/-- The kind of the next token; at the end it is that of the ending token. -/
def nextKind (ts : List Token) : Kind := (ts.head?.map (·.kind)).getD .endOfInput

@[simp] theorem nextKind_nil : nextKind [] = .endOfInput := rfl

@[simp] theorem nextKind_cons (t : Token) (ts : List Token) : nextKind (t :: ts) = t.kind := rfl

theorem eq_cons_of_nextKind {ts : List Token} {k : Kind} (h : nextKind ts = k)
    (hk : k ≠ .endOfInput) : ∃ t us, ts = t :: us ∧ t.kind = k := by
  cases ts with
  | nil => exact absurd h.symm hk
  | cons t us => exact ⟨t, us, rfl, h⟩

/-- A description of lists of tokens. -/
inductive Phrase where
  /-- One token of a class. -/
  | token (p : Token → Bool)
  /-- No token; the next one has a kind of the class. -/
  | ahead (p : Kind → Bool)
  | empty
  | seq (first second : Phrase)
  | alt (one other : Phrase)
  | many (item : Phrase)

namespace Phrase

/-- A token of kind `k`. -/
def kind (k : Kind) : Phrase := .token (·.kind = k)

/-- A token with one of the kinds `ks`. -/
def kinds (ks : List Kind) : Phrase := .token (ks.contains ·.kind)

/-- No token; the next one is not of kind `k`. -/
def absent (k : Kind) : Phrase := .ahead (· ≠ k)

/-- One phrase after the other. -/
def all : List Phrase → Phrase
  | [] => .empty
  | G :: Gs => .seq G (all Gs)

/-- One of several phrases. -/
def any : Phrase → List Phrase → Phrase
  | G, [] => G
  | G, H :: Hs => .alt G (any H Hs)

/-- A phrase that may be left out. -/
def opt (G : Phrase) : Phrase := .alt G .empty

end Phrase

/-- `G` describes the tokens of `ts` in front of the rest. -/
inductive Derives : Phrase → List Token → List Token → Prop
  | token {p : Token → Bool} {t : Token} {ts : List Token} (h : p t = true) :
      Derives (.token p) (t :: ts) ts
  | ahead {p : Kind → Bool} {ts : List Token} (h : p (nextKind ts) = true) :
      Derives (.ahead p) ts ts
  | empty {ts : List Token} : Derives .empty ts ts
  | seq {G H : Phrase} {ts us vs : List Token} (first : Derives G ts us)
      (second : Derives H us vs) : Derives (.seq G H) ts vs
  | left {G H : Phrase} {ts us : List Token} (h : Derives G ts us) : Derives (.alt G H) ts us
  | right {G H : Phrase} {ts us : List Token} (h : Derives H ts us) : Derives (.alt G H) ts us
  | stop {G : Phrase} {ts : List Token} : Derives (.many G) ts ts
  | more {G : Phrase} {ts us vs : List Token} (first : Derives G ts us)
      (others : Derives (.many G) us vs) : Derives (.many G) ts vs

namespace Derives

variable {G H : Phrase} {ts us vs : List Token} {k : Kind}

/-! ### Inversion -/

theorem token_iff {p : Token → Bool} :
    Derives (.token p) ts us ↔ ∃ t, ts = t :: us ∧ p t = true := by
  constructor
  · intro h
    cases h with
    | token h => exact ⟨_, rfl, h⟩
  · rintro ⟨t, rfl, h⟩
    exact .token h

@[simp] theorem kind_iff : Derives (.kind k) ts us ↔ ∃ t, ts = t :: us ∧ t.kind = k := by
  simp [Phrase.kind, token_iff]

@[simp] theorem kinds_iff {ks : List Kind} :
    Derives (.kinds ks) ts us ↔ ∃ t, ts = t :: us ∧ t.kind ∈ ks := by
  simp [Phrase.kinds, token_iff]

@[simp] theorem ahead_iff {p : Kind → Bool} :
    Derives (.ahead p) ts us ↔ ts = us ∧ p (nextKind ts) = true := by
  constructor
  · intro h
    cases h with
    | ahead h => exact ⟨rfl, h⟩
  · rintro ⟨rfl, h⟩
    exact .ahead h

@[simp] theorem absent_iff : Derives (.absent k) ts us ↔ ts = us ∧ nextKind ts ≠ k := by
  simp [Phrase.absent]

@[simp] theorem empty_iff : Derives .empty ts us ↔ ts = us := by
  constructor
  · intro h
    cases h with
    | empty => rfl
  · rintro rfl
    exact .empty

@[simp] theorem seq_iff : Derives (.seq G H) ts vs ↔ ∃ us, Derives G ts us ∧ Derives H us vs := by
  constructor
  · intro h
    cases h with
    | seq h₁ h₂ => exact ⟨_, h₁, h₂⟩
  · rintro ⟨us, h₁, h₂⟩
    exact .seq h₁ h₂

@[simp] theorem alt_iff : Derives (.alt G H) ts us ↔ Derives G ts us ∨ Derives H ts us := by
  constructor
  · intro h
    cases h with
    | left h => exact .inl h
    | right h => exact .inr h
  · rintro (h | h)
    · exact .left h
    · exact .right h

@[simp] theorem opt_iff : Derives (.opt G) ts us ↔ Derives G ts us ∨ ts = us := by
  simp [Phrase.opt]

theorem many_iff :
    Derives (.many G) ts vs ↔ ts = vs ∨ ∃ us, Derives G ts us ∧ Derives (.many G) us vs := by
  constructor
  · intro h
    cases h with
    | stop => exact .inl rfl
    | more h₁ h₂ => exact .inr ⟨_, h₁, h₂⟩
  · rintro (rfl | ⟨us, h₁, h₂⟩)
    · exact .stop
    · exact .more h₁ h₂

/-- Induction over a repetition, from its end. -/
theorem many_induction {P : List Token → Prop} (h : Derives (.many G) ts vs) (stop : P vs)
    (more : ∀ ts us, Derives G ts us → Derives (.many G) us vs → P us → P ts) : P ts := by
  generalize hM : Phrase.many G = M at h
  induction h with
  | stop => exact stop
  | more h₁ h₂ _ ih =>
      cases hM
      exact more _ _ h₁ h₂ (ih stop more rfl)
  | _ => cases hM

@[simp] theorem all_nil_iff : Derives (.all []) ts us ↔ ts = us := by
  simp [Phrase.all]

@[simp] theorem all_cons_iff {Gs : List Phrase} :
    Derives (.all (G :: Gs)) ts vs ↔ ∃ us, Derives G ts us ∧ Derives (.all Gs) us vs := by
  simp [Phrase.all]

@[simp] theorem any_nil_iff : Derives (.any G []) ts us ↔ Derives G ts us := by
  simp [Phrase.any]

@[simp] theorem any_cons_iff {Hs : List Phrase} :
    Derives (.any G (H :: Hs)) ts us ↔ Derives G ts us ∨ Derives (.any H Hs) ts us := by
  simp [Phrase.any]

/-! ### The words of a phrase -/

theorem nextKind_append {w r r' : List Token} (h : nextKind r = nextKind r') :
    nextKind (w ++ r) = nextKind (w ++ r') := by
  cases w with
  | nil => exact h
  | cons t w => rfl

/-- A derivation takes a front of the tokens, and it depends on what comes after it only through
the kind of the next token. -/
theorem front {rest : List Token} (h : Derives G ts rest) :
    ∃ w, ts = w ++ rest ∧
      ∀ rest', nextKind rest = nextKind rest' → Derives G (w ++ rest') rest' := by
  induction h with
  | @token p t ts h => exact ⟨[t], rfl, fun _ _ => .token h⟩
  | ahead h => exact ⟨[], rfl, fun _ he => .ahead (he ▸ h)⟩
  | empty => exact ⟨[], rfl, fun _ _ => .empty⟩
  | seq _ _ ih₁ ih₂ =>
      obtain ⟨w₁, rfl, h₁⟩ := ih₁
      obtain ⟨w₂, rfl, h₂⟩ := ih₂
      refine ⟨w₁ ++ w₂, by simp, fun rest' he => ?_⟩
      rw [List.append_assoc]
      exact .seq (h₁ _ (nextKind_append he)) (h₂ _ he)
  | left _ ih =>
      obtain ⟨w, rfl, h⟩ := ih
      exact ⟨w, rfl, fun rest' he => .left (h rest' he)⟩
  | right _ ih =>
      obtain ⟨w, rfl, h⟩ := ih
      exact ⟨w, rfl, fun rest' he => .right (h rest' he)⟩
  | stop => exact ⟨[], rfl, fun _ _ => .stop⟩
  | more _ _ ih₁ ih₂ =>
      obtain ⟨w₁, rfl, h₁⟩ := ih₁
      obtain ⟨w₂, rfl, h₂⟩ := ih₂
      refine ⟨w₁ ++ w₂, by simp, fun rest' he => ?_⟩
      rw [List.append_assoc]
      exact .more (h₁ _ (nextKind_append he)) (h₂ _ he)

theorem suffix (h : Derives G ts us) : us <:+ ts := by
  obtain ⟨w, rfl, -⟩ := h.front
  exact ⟨w, rfl⟩

/-- What starts with a token of kind `k` shows it and takes it. -/
theorem all_kind {Gs : List Phrase} (h : Derives (.all (.kind k :: Gs)) ts vs) :
    nextKind ts = k ∧ vs.length < ts.length := by
  obtain ⟨us, h₁, h₂⟩ := all_cons_iff.mp h
  obtain ⟨t, rfl, ht⟩ := kind_iff.mp h₁
  exact ⟨ht, Nat.lt_succ_of_le h₂.suffix.length_le⟩

/-- What starts with an optional part shows the token that opens it, or starts after it. -/
theorem opt_kind {Gs Hs : List Phrase}
    (h : Derives (.all (.opt (.all (.kind k :: Hs)) :: Gs)) ts vs) :
    nextKind ts = k ∨ Derives (.all Gs) ts vs := by
  obtain ⟨us, h₁, h₂⟩ := all_cons_iff.mp h
  rcases opt_iff.mp h₁ with h₁ | rfl
  · exact .inl h₁.all_kind.1
  · exact .inr h₂

/-! ### Runs of tokens -/

theorem dropWhile (p : Token → Bool) (ts : List Token) :
    Derives (.many (.token p)) ts (ts.dropWhile p) := by
  induction ts with
  | nil => exact .stop
  | cons t ts ih =>
      by_cases h : p t = true
      · rw [List.dropWhile_cons_of_pos h]
        exact .more (.token h) ih
      · rw [List.dropWhile_cons_of_neg h]
        exact .stop

theorem drop_takeWhile {c p : Token → Bool} (h : ∀ t ∈ ts, c t = p t) :
    ts.drop (ts.takeWhile c).length = ts.dropWhile p := by
  induction ts with
  | nil => rfl
  | cons t ts ih =>
      have hts : ∀ u ∈ ts, c u = p u := fun u hu => h u (List.mem_cons_of_mem t hu)
      by_cases hp : p t = true
      · have hc : c t = true := by rw [h t List.mem_cons_self, hp]
        rw [List.takeWhile_cons_of_pos hc, List.dropWhile_cons_of_pos hp, List.length_cons,
          List.drop_succ_cons, ih hts]
      · have hc : ¬ c t = true := by rwa [h t List.mem_cons_self]
        rw [List.takeWhile_cons_of_neg hc, List.dropWhile_cons_of_neg hp]
        rfl

/-- A run of tokens that cannot go on is the longest one. -/
theorem eq_dropWhile {p : Token → Bool} (h : Derives (.many (.token p)) ts us)
    (hu : ∀ t ∈ us.head?, p t = false) : us = ts.dropWhile p := by
  induction ts with
  | nil => exact List.suffix_nil.mp h.suffix
  | cons t ts ih =>
      rcases many_iff.mp h with rfl | ⟨vs, h₁, h₂⟩
      · rw [List.dropWhile_cons_of_neg (by simp [hu t (by simp)])]
      · obtain ⟨t', he, ht⟩ := token_iff.mp h₁
        obtain ⟨rfl, rfl⟩ := List.cons.inj he
        rw [List.dropWhile_cons_of_pos ht]
        exact ih h₂

end Derives

/-- A phrase whose words are not empty and stay words whatever comes after them. -/
def Phrase.Closed (G : Phrase) : Prop :=
  ∀ ts rest, Derives G ts rest →
    ∃ w, w ≠ [] ∧ ts = w ++ rest ∧ ∀ rest', Derives G (w ++ rest') rest'

namespace Phrase.Closed

theorem kind (k : Kind) : (Phrase.kind k).Closed := by
  intro ts rest h
  obtain ⟨t, rfl, hk⟩ := Derives.kind_iff.mp h
  exact ⟨[t], by simp, rfl, fun _ => Derives.kind_iff.mpr ⟨t, rfl, hk⟩⟩

theorem last {G : Phrase} (hG : G.Closed) : (Phrase.all [G]).Closed := by
  intro ts rest h
  obtain ⟨w, hne, rfl, hw⟩ := hG ts rest (by simpa using h)
  exact ⟨w, hne, rfl, fun rest' => by simpa using hw rest'⟩

theorem cons {G : Phrase} {Gs : List Phrase} (h : (Phrase.all Gs).Closed) :
    (Phrase.all (G :: Gs)).Closed := by
  intro ts rest hd
  obtain ⟨us, h₁, h₂⟩ := Derives.all_cons_iff.mp hd
  obtain ⟨w₂, hne, rfl, hw₂⟩ := h _ _ h₂
  obtain ⟨w₁, rfl, hw₁⟩ := h₁.front
  refine ⟨w₁ ++ w₂, by simp [hne], by simp, fun rest' => ?_⟩
  have hnext : nextKind (w₂ ++ rest) = nextKind (w₂ ++ rest') := by
    obtain ⟨t, w, rfl⟩ := List.exists_cons_of_ne_nil hne
    rfl
  rw [List.append_assoc, Derives.all_cons_iff]
  exact ⟨w₂ ++ rest', hw₁ _ hnext, hw₂ rest'⟩

/-- A closed phrase describes a front of `ts` exactly if `ts` starts with one of its words. -/
theorem word {G : Phrase} (h : G.Closed) (ts : List Token) :
    (∃ rest, Derives G ts rest) ↔ ∃ w rest, ts = w ++ rest ∧ Derives G w [] := by
  constructor
  · rintro ⟨rest, hd⟩
    obtain ⟨w, -, rfl, hw⟩ := h _ _ hd
    exact ⟨w, rest, rfl, by simpa using hw []⟩
  · rintro ⟨w, rest, rfl, hd⟩
    obtain ⟨w', -, he, hw⟩ := h _ _ hd
    rw [List.append_nil] at he
    subst he
    exact ⟨rest, hw rest⟩

end Phrase.Closed

end FloorPlan
