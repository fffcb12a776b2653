import FloorPlan.Proofs.Token.Lexing

/-! # The order of tokens

The tokens of a source stand in it one after the other: each but the ending one takes at least one
character, and none starts before the one in front of it has ended (`tokenize_ordered`). -/

namespace FloorPlan

/-- The token `t` is not empty, and `u` comes after it. -/
def Token.Before (t u : Token) : Prop :=
  t.start.offset < t.stop.offset ∧ t.stop.offset ≤ u.start.offset

namespace Cursor

/-- Reading goes on after a gap or a token, or ends with the text. -/
theorem tokens_cases {c : Cursor} {ts : List Token} (h : c.tokens.1 = .ok ts) :
    (c.rest = [] ∧ ts = [Token.ending c.pos]) ∨
    ∃ ch cs l, c.rest = ch :: cs ∧ Lexeme.front? ch cs = some l ∧
      ((∃ n, l = .gap n ∧ (c.move n).tokens.1 = .ok ts) ∨
        ∃ k v n us, l = .token k v n ∧ (c.scan k v n).2.tokens.1 = .ok us ∧
          ts = (c.scan k v n).1 :: us) := by
  cases hr : c.rest with
  | nil =>
      rw [tokens_nil hr] at h
      cases h
      exact .inl ⟨rfl, rfl⟩
  | cons ch cs =>
      refine .inr ⟨ch, cs, ?_⟩
      cases hf : Lexeme.front? ch cs with
      | none =>
          rw [tokens] at h
          split at h <;> simp_all
          split at h <;> simp_all
      | some l =>
          refine ⟨l, rfl, rfl, ?_⟩
          cases l with
          | gap n => exact .inl ⟨n, rfl, tokens_gap hr hf ▸ h⟩
          | token k v n =>
              rw [tokens_token hr hf] at h
              cases ht : (c.scan k v n).2.tokens.1 with
              | error e => rw [ht] at h; cases h
              | ok us =>
                  rw [ht] at h
                  cases h
                  exact .inr ⟨k, v, n, us, rfl, ht, rfl⟩

theorem move_offset (c : Cursor) (n : Nat) :
    (c.move n).pos.offset = c.pos.offset + min n c.rest.length := by
  show (c.pos.after (c.rest.take n)).offset = _
  rw [Position.after_offset, List.length_take]

/-- The tokens ahead start at the cursor or later, each after the one in front of it. -/
theorem tokens_ordered {c : Cursor} {ts : List Token} (h : c.tokens.1 = .ok ts) :
    (∀ t ∈ ts, c.pos.offset ≤ t.start.offset) ∧ ts.Pairwise Token.Before := by
  generalize hm : c.rest.length = m
  induction m using Nat.strongRecOn generalizing c ts with
  | ind m ih =>
      rcases tokens_cases h with ⟨-, rfl⟩ | ⟨ch, cs, l, hr, hf, hl⟩
      · exact ⟨by simp [Token.ending], List.pairwise_singleton _ _⟩
      · have hw := Lexeme.width_pos hf
        rcases hl with ⟨n, rfl, ht⟩ | ⟨k, v, n, us, rfl, ht, rfl⟩
        · have hn : 0 < n := hw
          have hlt : (c.move n).rest.length < m := by
            rw [move_rest, List.length_drop, hr, List.length_cons]
            rw [hr, List.length_cons] at hm
            omega
          obtain ⟨hstart, hpair⟩ := ih _ hlt ht rfl
          have hoff := move_offset c n
          refine ⟨fun t htm => ?_, hpair⟩
          have hle := hstart t htm
          omega
        · have hn : 0 < n := hw
          have hlt : (c.scan k v n).2.rest.length < m := by
            rw [scan_rest, List.length_drop, hr, List.length_cons]
            rw [hr, List.length_cons] at hm
            omega
          obtain ⟨hstart, hpair⟩ := ih _ hlt ht rfl
          have hoff : (c.scan k v n).2.pos.offset = c.pos.offset + min n c.rest.length :=
            move_offset c n
          have hpos : 0 < c.rest.length := by simp [hr]
          have hwide : (c.scan k v n).1.start.offset < (c.scan k v n).1.stop.offset := by
            show c.pos.offset < (c.scan k v n).2.pos.offset
            omega
          refine ⟨fun t htm => ?_, List.pairwise_cons.mpr ⟨fun u hu => ⟨hwide, hstart u hu⟩, hpair⟩⟩
          rcases List.mem_cons.mp htm with rfl | htm
          · exact Nat.le_refl _
          · have hle := hstart t htm
            omega

end Cursor

/-- The tokens of a source stand in it one after the other. -/
theorem tokenize_ordered {source : String} {ts : List Token} (h : tokenize source = .ok ts) :
    ts.Pairwise Token.Before :=
  (Cursor.tokens_ordered h).2

/-- Tokens that stand one after the other start at different places. -/
theorem nodup_starts {ts : List Token} (h : ts.Pairwise Token.Before) :
    (ts.map (·.start)).Nodup := by
  rw [List.nodup_iff_pairwise_ne, List.pairwise_map]
  refine h.imp fun {t u} hbefore he => ?_
  obtain ⟨hwide, hle⟩ := hbefore
  rw [← he] at hle
  omega

end FloorPlan
