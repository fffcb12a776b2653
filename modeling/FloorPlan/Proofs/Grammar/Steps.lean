import FloorPlan.Drawing.Grammar
import FloorPlan.Proofs.Grammar.Phrase

/-! # Single steps of the parser

What each elementary step does in a given state, as equations.  A step looks at the kind of the
next token only, and it either moves over that token, reports an error, or does nothing. -/

namespace FloorPlan

namespace Parser

theorem current_kind (s : Parser) : s.current.kind = nextKind s.rest := by
  unfold current
  cases s.rest with
  | nil => exact s.ending_kind
  | cons t ts => rfl

theorem current_of_rest {s : Parser} {t : Token} {ts : List Token} (h : s.rest = t :: ts) :
    s.current = t := by
  simp [current, h]

theorem sees_iff {s : Parser} {ks : List Kind} : s.sees ks = true ↔ nextKind s.rest ∈ ks := by
  simp [sees, current_kind]

@[simp] theorem move_shift (s : Parser) (n : Nat) : (s.move n).shift = s.shift := rfl

@[simp] theorem move_messages (s : Parser) (n : Nat) : (s.move n).messages = s.messages := rfl

@[simp] theorem move_zero (s : Parser) : s.move 0 = s := rfl

theorem move_move (s : Parser) (m n : Nat) : (s.move m).move n = s.move (m + n) := by
  simp [move, List.take_add]

@[simp] theorem report_rest (s : Parser) (d : Diagnostic) : (s.report d).rest = s.rest := rfl

@[simp] theorem report_shift (s : Parser) (d : Diagnostic) : (s.report d).shift = s.shift := rfl

end Parser

namespace Parse

variable {α β : Type} {s s' : Parser} {a : α} {k l : Kind} {ks : List Kind}

theorem bind_ok {p : Parse α} {f : α → Parse β} (h : p s = .ok a s') : (p >>= f) s = f a s' := by
  show EStateM.bind p f s = _
  simp [EStateM.bind, h]

theorem discard_ok {p : Parse α} (h : p s = .ok a s') : discard p s = .ok () s' := by
  show EStateM.map (Function.const α ()) p s = _
  simp [EStateM.map, h]

theorem take_run (s : Parser) : take s = .ok s.current (s.move 1) := rfl

theorem sees_run (ks : List Kind) (s : Parser) : sees ks s = .ok (s.sees ks) s := rfl

theorem get_run (s : Parser) : (get : Parse Parser) s = .ok s s := rfl

theorem pure_run (a : α) (s : Parser) : (pure a : Parse α) s = .ok a s := rfl

theorem takeWhile_run (p : Token → Bool) (s : Parser) :
    takeWhile p s = .ok (s.rest.takeWhile p) (s.move (s.rest.takeWhile p).length) := rfl

theorem complain_run (text : String) (hint : Option String) (s : Parser) :
    complain text hint s = .ok () (s.report (.error .grammar text s.current.span hint)) := rfl

theorem accept?_some (h : nextKind s.rest ∈ ks) :
    accept? ks s = .ok (some s.current) (s.move 1) := by
  unfold accept?
  rw [bind_ok (sees_run ks s), if_pos (Parser.sees_iff.mpr h)]
  rfl

theorem accept?_none (h : nextKind s.rest ∉ ks) : accept? ks s = .ok none s := by
  unfold accept?
  rw [bind_ok (sees_run ks s), if_neg (fun hs => h (Parser.sees_iff.mp hs))]
  rfl

theorem accepts_true (h : nextKind s.rest ∈ ks) : accepts ks s = .ok true (s.move 1) := by
  unfold accepts
  rw [bind_ok (accept?_some h)]
  rfl

theorem accepts_false (h : nextKind s.rest ∉ ks) : accepts ks s = .ok false s := by
  unfold accepts
  rw [bind_ok (accept?_none h)]
  rfl

theorem acceptsBefore_none (h : nextKind s.rest ≠ k) : acceptsBefore k l s = .ok false s := by
  unfold acceptsBefore
  rw [bind_ok (accepts_false (by simpa using h))]
  rfl

theorem acceptsBefore_some (h : nextKind s.rest = k) :
    acceptsBefore k l s = .ok ((s.move 1).sees [l]) (s.move 1) := by
  unfold acceptsBefore
  rw [bind_ok (accepts_true (by simp [h]))]
  rfl

theorem identifier?_some (h : nextKind s.rest = .identifier) :
    identifier? s = .ok (some s.current.value) (s.move 1) := by
  unfold identifier?
  rw [bind_ok (accept?_some (by simp [h]))]
  rfl

theorem identifier?_none (h : nextKind s.rest ≠ .identifier) : identifier? s = .ok none s := by
  unfold identifier?
  rw [bind_ok (accept?_none (by simpa using h))]
  rfl

/-- Skipping moves to the end of a statement, and takes the semicolon there. -/
theorem skipStatement_run (s : Parser) : skipStatement s =
    (discard (accept? [.semicolon]) : Parse Unit) (s.move (statementWidth 0 s.rest)) := rfl

theorem expect_some (h : nextKind s.rest = k) : expect k s = .ok (some s.current) (s.move 1) := by
  unfold expect
  rw [bind_ok (accept?_some (by simp [h]))]
  rfl

/-- A missing token is an error. -/
theorem expect_none (h : nextKind s.rest ≠ k) :
    ∃ d : Diagnostic, d.isError = true ∧ expect k s = .ok none (s.report d) := by
  unfold expect
  rw [bind_ok (accept?_none (by simpa using h))]
  exact ⟨_, rfl, rfl⟩

theorem spanFrom_ok (hs : s.shift = 0) (start : Position) :
    ∃ span, spanFrom start s = .ok span s := by
  unfold spanFrom
  rw [bind_ok (get_run s)]
  by_cases hi : s.index ≤ 0
  · rw [if_pos hi]
    exact ⟨_, rfl⟩
  · rw [if_neg hi]
    cases hp : s.past with
    | nil => exact absurd (by simp [Parser.index, hp, hs]) hi
    | cons t ts => exact ⟨⟨start, t.stop⟩, by simp [Parser.lastStop?, hs, hp, pure_run]⟩

end Parse

end FloorPlan
