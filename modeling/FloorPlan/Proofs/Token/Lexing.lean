import FloorPlan.Token.Cursor

/-! # Lexing without positions

`Lexes cs ts` says that the text `cs` is made of gaps and of tokens with the kinds and values
`ts`.  The cursor reads exactly such texts (`Cursor.tokens_of_lexes`, `Cursor.lexes_of_tokens`),
wherever it stands, so facts about tokens are proved on the text alone. -/

namespace FloorPlan

/-- The kind and the value of a token, without its place. -/
def Token.pair (t : Token) : Kind × String := (t.kind, t.value)

/-- The text `cs` has the tokens `ts`, each given by its kind and value. -/
inductive Lexes : List Char → List (Kind × String) → Prop
  | nil : Lexes [] []
  | gap {c : Char} {cs : List Char} {n : Nat} {ts : List (Kind × String)} :
      Lexeme.front? c cs = some (.gap n) → Lexes ((c :: cs).drop n) ts → Lexes (c :: cs) ts
  | token {c : Char} {cs v : List Char} {k : Kind} {n : Nat} {ts : List (Kind × String)} :
      Lexeme.front? c cs = some (.token k v n) → Lexes ((c :: cs).drop n) ts →
      Lexes (c :: cs) ((k, String.ofList v) :: ts)

namespace Cursor

theorem tokens_nil {c : Cursor} (h : c.rest = []) : c.tokens.1 = .ok [Token.ending c.pos] := by
  rw [tokens]
  split
  · rfl
  · next h' => rw [h] at h'; cases h'

theorem tokens_gap {c : Cursor} {ch : Char} {cs : List Char} {n : Nat} (h : c.rest = ch :: cs)
    (hf : Lexeme.front? ch cs = some (.gap n)) : c.tokens.1 = (c.move n).tokens.1 := by
  rw [tokens]
  split
  · next h' => rw [h] at h'; cases h'
  · next h' =>
      obtain ⟨rfl, rfl⟩ := List.cons.inj (h.symm.trans h')
      split <;> simp_all

theorem tokens_token {c : Cursor} {ch : Char} {cs v : List Char} {k : Kind} {n : Nat}
    (h : c.rest = ch :: cs) (hf : Lexeme.front? ch cs = some (.token k v n)) :
    c.tokens.1 = (c.scan k v n).2.tokens.1.map ((c.scan k v n).1 :: ·) := by
  rw [tokens]
  split
  · next h' => rw [h] at h'; cases h'
  · next h' =>
      obtain ⟨rfl, rfl⟩ := List.cons.inj (h.symm.trans h')
      split <;> simp_all

/-- The cursor reads a text that is made of gaps and tokens. -/
theorem tokens_of_lexes {cs : List Char} {ts : List (Kind × String)} (h : Lexes cs ts) :
    ∀ c : Cursor, c.rest = cs →
      ∃ body p, c.tokens.1 = .ok (body ++ [Token.ending p]) ∧ body.map Token.pair = ts := by
  induction h with
  | nil =>
      intro c hc
      exact ⟨[], c.pos, tokens_nil hc, rfl⟩
  | @gap ch cs n ts hf _ ih =>
      intro c hc
      obtain ⟨body, p, hb, hp⟩ := ih (c.move n) (by rw [move_rest, hc])
      exact ⟨body, p, by rw [tokens_gap hc hf, hb], hp⟩
  | @token ch cs v k n ts hf _ ih =>
      intro c hc
      obtain ⟨body, p, hb, hp⟩ := ih (c.scan k v n).2 (by rw [scan_rest, hc])
      refine ⟨(c.scan k v n).1 :: body, p, ?_, ?_⟩
      · rw [tokens_token hc hf, hb]
        rfl
      · rw [List.map_cons, hp]
        rfl

/-- A text that the cursor reads is made of gaps and tokens; the ending token comes last. -/
theorem lexes_of_tokens {c : Cursor} {ts : List Token} (h : c.tokens.1 = .ok ts) :
    ∃ body p, ts = body ++ [Token.ending p] ∧ Lexes c.rest (body.map Token.pair) := by
  generalize hm : c.rest.length = m
  induction m using Nat.strongRecOn generalizing c ts with
  | ind m ih =>
      cases hr : c.rest with
      | nil =>
          rw [tokens_nil hr] at h
          cases h
          exact ⟨[], c.pos, rfl, .nil⟩
      | cons ch cs =>
          cases hf : Lexeme.front? ch cs with
          | none =>
              rw [tokens] at h
              split at h <;> simp_all
              split at h <;> simp_all
          | some l =>
              have hw := Lexeme.width_pos hf
              cases l with
              | gap n =>
                  rw [tokens_gap hr hf] at h
                  have hlt : (c.move n).rest.length < m := by
                    simp [Lexeme.width] at hw
                    simp [← hm, hr]
                    omega
                  obtain ⟨body, p, he, hl⟩ := ih _ hlt h rfl
                  rw [move_rest, hr] at hl
                  exact ⟨body, p, he, .gap hf hl⟩
              | token k v n =>
                  rw [tokens_token hr hf] at h
                  have hlt : (c.scan k v n).2.rest.length < m := by
                    simp [Lexeme.width] at hw
                    simp [← hm, hr]
                    omega
                  cases ht : (c.scan k v n).2.tokens.1 with
                  | error e => rw [ht] at h; cases h
                  | ok us =>
                      rw [ht] at h
                      cases h
                      obtain ⟨body, p, rfl, hl⟩ := ih _ hlt ht rfl
                      rw [scan_rest, hr] at hl
                      exact ⟨(c.scan k v n).1 :: body, p, rfl, .token hf hl⟩

end Cursor

/-- The tokens of a source that is spelled out. -/
theorem tokenize_of_toOption {source : String} {ts : List Token}
    (h : (tokenize source).toOption = some ts) : tokenize source = .ok ts := by
  cases htokens : tokenize source with
  | error e => simp [htokens, Except.toOption] at h
  | ok us =>
      rw [htokens] at h
      cases h
      rfl

end FloorPlan
