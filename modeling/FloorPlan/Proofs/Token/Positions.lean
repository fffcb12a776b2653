import FloorPlan.Proofs.Token.Tiling
import Mathlib.Data.List.Induction

/-! # Positions in every state of a cursor

`Position.Of cs p` says that `p` is the place of an offset of the text `cs`: its line counts the
newlines before the offset, its column the characters after the last of them.  Whatever is asked of
a cursor, it only moves over characters (`Action.run_moves`), and a move keeps the position right
(`Cursor.At.move`).  So after any actions the cursor, the tokens that it has read and the error that
has stopped it are at places of the source (`actions_placed`). -/

namespace FloorPlan

/-! ### Lines and columns -/

/-- The place of an offset of the text `cs`. -/
structure Position.Of (cs : List Char) (p : Position) : Prop where
  within : p.offset ≤ cs.length
  /-- Only newlines start a line. -/
  line : p.line = 1 + (cs.take p.offset).count '\n'
  /-- The column counts the characters after the last newline. -/
  column : p.column = 1 + ((cs.take p.offset).reverse.takeWhile (· ≠ '\n')).length

namespace Position

theorem after_concat (p : Position) (cs : List Char) (c : Char) :
    p.after (cs ++ [c]) = (p.after cs).step c := by
  rw [after_append, after_cons, after_nil]

theorem start_after_line (cs : List Char) : (start.after cs).line = 1 + cs.count '\n' := by
  induction cs using List.reverseRecOn with
  | nil => rfl
  | append_singleton cs c ih =>
      rw [after_concat, step]
      by_cases hc : c = '\n'
      · rw [if_pos hc, List.count_append, hc, List.count_singleton_self]
        show (start.after cs).line + 1 = _
        omega
      · rw [if_neg hc, List.count_append, List.count_singleton, if_neg (by simpa using hc)]
        show (start.after cs).line = _
        omega

theorem start_after_column (cs : List Char) :
    (start.after cs).column = 1 + (cs.reverse.takeWhile (· ≠ '\n')).length := by
  induction cs using List.reverseRecOn with
  | nil => rfl
  | append_singleton cs c ih =>
      rw [after_concat, step, List.reverse_append, List.reverse_singleton, List.singleton_append]
      by_cases hc : c = '\n'
      · rw [if_pos hc, List.takeWhile_cons_of_neg (by simpa using hc)]
        rfl
      · rw [if_neg hc, List.takeWhile_cons_of_pos (by simpa using hc), List.length_cons]
        show (start.after cs).column + 1 = _
        omega

end Position

/-! ### Moves -/

/-- The cursor stands in the text `cs` and knows its place there. -/
structure Cursor.At (cs : List Char) (c : Cursor) : Prop extends Cursor.In cs c where
  place : c.pos = Position.start.after c.past.reverse

namespace Cursor

theorem move_move (c : Cursor) (m n : Nat) : (c.move m).move n = c.move (m + n) := by
  simp [move, List.take_add, Position.after_append]

theorem offset_le_move (c : Cursor) {m n : Nat} (h : m ≤ n) :
    (c.move m).pos.offset ≤ (c.move n).pos.offset := by
  rw [move_offset, move_offset]
  omega

namespace At

variable {cs : List Char} {c : Cursor}

theorem ofSource (source : String) : (Cursor.ofSource source).At source.toList :=
  ⟨.ofSource source, rfl⟩

/-- What one move keeps. -/
theorem move (h : c.At cs) (n : Nat) : (c.move n).At cs := by
  refine ⟨h.toIn.move n, ?_⟩
  show c.pos.after (c.rest.take n) = Position.start.after ((c.rest.take n).reverse ++ c.past).reverse
  rw [List.reverse_append, List.reverse_reverse, Position.after_append, h.place]

theorem of (h : c.At cs) : c.pos.Of cs := by
  have hlength := h.length_eq
  have hpast : cs.take c.pos.offset = c.past.reverse := by
    rw [← h.text, h.offset, ← List.length_reverse, List.take_left]
  constructor
  · omega
  · rw [hpast, h.place, Position.start_after_line]
  · rw [hpast, h.place, Position.start_after_column]

end At

/-- Reading all tokens is a move, and every place in the result is reached on the way.  An error
names the character before which the cursor is left. -/
theorem tokens_moves (c : Cursor) : ∃ n, c.tokens.2 = c.move n ∧
    (∀ ts, c.tokens.1 = .ok ts → ∀ t ∈ ts, ∃ i j, i ≤ j ∧ j ≤ n ∧ t.start = (c.move i).pos ∧
      t.stop = (c.move j).pos) ∧
    ∀ e, c.tokens.1 = .error e → e.position = (c.move n).pos := by
  fun_induction tokens c with
  | case1 c hr =>
      refine ⟨0, rfl, fun ts hts t ht => ?_, fun e he => (by cases he)⟩
      cases hts
      rw [List.mem_singleton.mp ht]
      exact ⟨0, 0, Nat.le_refl 0, Nat.le_refl 0, rfl, rfl⟩
  | case2 c ch cs hr hf =>
      refine ⟨0, rfl, fun ts hts => (by cases hts), fun e he => ?_⟩
      cases he
      rfl
  | case3 c ch cs hr width hf ih =>
      obtain ⟨n, hcursor, htokens, herror⟩ := ih
      refine ⟨width + n, by rw [hcursor, move_move], fun ts hts t ht => ?_, fun e he => ?_⟩
      · obtain ⟨i, j, hij, hj, hstart, hstop⟩ := htokens ts hts t ht
        rw [move_move] at hstart hstop
        exact ⟨width + i, width + j, by omega, by omega, hstart, hstop⟩
      · rw [herror e he, move_move]
  | case4 c ch cs hr kind value width hf scanned rest ih =>
      obtain ⟨n, hcursor, htokens, herror⟩ := ih
      have hscan : scanned.2 = c.move width := rfl
      refine ⟨width + n, ?_, fun ts hts t ht => ?_, fun e he => ?_⟩
      · show rest.2 = _
        rw [hcursor, hscan, move_move]
      · cases hrest : rest.1 with
        | error e => rw [hrest] at hts; cases hts
        | ok us =>
            rw [hrest] at hts
            cases hts
            rcases List.mem_cons.mp ht with rfl | ht
            · exact ⟨0, width, by omega, by omega, rfl, rfl⟩
            · obtain ⟨i, j, hij, hj, hstart, hstop⟩ := htokens us hrest t ht
              rw [hscan, move_move] at hstart hstop
              exact ⟨width + i, width + j, by omega, by omega, hstart, hstop⟩
      · cases hrest : rest.1 with
        | ok us => rw [hrest] at he; cases he
        | error e' =>
            rw [hrest] at he
            cases he
            rw [herror _ hrest, hscan, move_move]

/-! ### Actions -/

/-- Something that a cursor can be asked to do. -/
inductive Action where
  | advance | skipBlanks | skipComment | scanString | scanNumber | scanWord | tokens
  deriving DecidableEq, Repr

/-- What an action leaves: the cursor, the tokens that were read, and the error that ended it. -/
structure Effect where
  cursor : Cursor
  tokens : List Token
  error? : Option LexError

namespace Action

/-- The effect of an action. -/
def run (a : Action) (c : Cursor) : Effect :=
  match a with
  | advance => ⟨c.advance.2, [], none⟩
  | skipBlanks => ⟨c.skipBlanks, [], none⟩
  | skipComment => ⟨c.skipComment, [], none⟩
  | scanString => ⟨c.scanString.2, [c.scanString.1], none⟩
  | scanNumber => ⟨c.scanNumber.2, [c.scanNumber.1], none⟩
  | scanWord => ⟨c.scanWord.2, [c.scanWord.1], none⟩
  | tokens =>
    match c.tokens.1 with
    | .ok ts => ⟨c.tokens.2, ts, none⟩
    | .error e => ⟨c.tokens.2, [], some e⟩

end Action

/-- The effect of an action is a move, and its tokens and its error are at places on the way. -/
structure Effect.Moves (c : Cursor) (r : Effect) (n : Nat) : Prop where
  cursor : r.cursor = c.move n
  tokens : ∀ t ∈ r.tokens, ∃ i j, i ≤ j ∧ j ≤ n ∧ t.start = (c.move i).pos ∧ t.stop = (c.move j).pos
  error : ∀ e ∈ r.error?, e.position = (c.move n).pos

theorem Effect.Moves.skip (c : Cursor) (n : Nat) : Effect.Moves c ⟨c.move n, [], none⟩ n :=
  ⟨rfl, by simp, by simp⟩

theorem Effect.Moves.scan (c : Cursor) (kind : Kind) (value : List Char) (n : Nat) :
    Effect.Moves c ⟨(c.scan kind value n).2, [(c.scan kind value n).1], none⟩ n := by
  refine ⟨rfl, fun t ht => ?_, by simp⟩
  rw [List.mem_singleton.mp ht]
  exact ⟨0, n, Nat.zero_le n, Nat.le_refl n, rfl, rfl⟩

theorem Action.run_moves (a : Action) (c : Cursor) : ∃ n, (a.run c).Moves c n := by
  cases a with
  | advance => exact ⟨_, .skip c 1⟩
  | skipBlanks => exact ⟨_, .skip c _⟩
  | skipComment => exact ⟨_, .skip c _⟩
  | scanString => exact ⟨_, .scan c _ _ _⟩
  | scanNumber => exact ⟨_, .scan c _ _ _⟩
  | scanWord => exact ⟨_, .scan c _ _ _⟩
  | tokens =>
      obtain ⟨n, hcursor, htokens, herror⟩ := tokens_moves c
      refine ⟨n, ?_⟩
      unfold run
      cases hrun : c.tokens.1 with
      | ok ts => exact ⟨hcursor, htokens ts hrun, by simp⟩
      | error e =>
          refine ⟨hcursor, by simp, fun e' he => ?_⟩
          cases he
          exact herror e hrun

/-- The cursor after a sequence of actions, also after one that an error ended. -/
def afterActions (c : Cursor) (actions : List Action) : Cursor :=
  actions.foldl (fun c a => (a.run c).cursor) c

/-- Whatever is done, the cursor stays at places of the text. -/
theorem At.afterActions {cs : List Char} {c : Cursor} (h : c.At cs) (actions : List Action) :
    (c.afterActions actions).At cs := by
  induction actions generalizing c with
  | nil => exact h
  | cons a actions ih =>
      obtain ⟨n, hmoves⟩ := a.run_moves c
      have hafter : (a.run c).cursor.At cs := by
        rw [hmoves.cursor]
        exact h.move n
      exact ih hafter

/-- An action at the cursor `c` in the text `cs`: before and after it the cursor is at places of
the text, and does not go back, and so are the ends of the tokens and the place of an error. -/
structure Action.Placed (cs : List Char) (c : Cursor) (a : Action) : Prop where
  before : c.pos.Of cs
  after : (a.run c).cursor.pos.Of cs
  ahead : c.past.reverse ++ c.rest = cs ∧ c.pos.offset = c.past.length
  forward : c.pos.offset ≤ (a.run c).cursor.pos.offset
  tokens : ∀ t ∈ (a.run c).tokens, t.start.Of cs ∧ t.stop.Of cs ∧
    c.pos.offset ≤ t.start.offset ∧ t.start.offset ≤ t.stop.offset ∧
    t.stop.offset ≤ (a.run c).cursor.pos.offset
  error : ∀ e ∈ (a.run c).error?, e.position.Of cs ∧ e.position = (a.run c).cursor.pos

theorem At.placed {cs : List Char} {c : Cursor} (h : c.At cs) (a : Action) : a.Placed cs c := by
  obtain ⟨n, hmoves⟩ := a.run_moves c
  have hle : ∀ {i j : Nat}, i ≤ j → (c.move i).pos.offset ≤ (c.move j).pos.offset :=
    offset_le_move c
  constructor
  · exact h.of
  · rw [hmoves.cursor]
    exact (h.move n).of
  · exact ⟨h.text, h.offset⟩
  · rw [hmoves.cursor]
    exact hle (Nat.zero_le n)
  · intro t ht
    obtain ⟨i, j, hij, hj, hstart, hstop⟩ := hmoves.tokens t ht
    rw [hmoves.cursor, hstart, hstop]
    exact ⟨(h.move i).of, (h.move j).of, hle (Nat.zero_le i), hle hij, hle hj⟩
  · intro e he
    rw [hmoves.cursor, hmoves.error e he]
    exact ⟨(h.move n).of, rfl⟩

end Cursor

/-- **Positions are right in every state**: for every source, whatever was done with its cursor
before, every action is at places of the source. -/
theorem actions_placed (source : String) (actions : List Cursor.Action) (a : Cursor.Action) :
    a.Placed source.toList ((Cursor.ofSource source).afterActions actions) :=
  ((Cursor.At.ofSource source).afterActions actions).placed a

/-- A string that spans two lines and is not closed; carriage returns start no line. -/
example : ((Cursor.ofSource "a\r'\n\rb").afterActions [.scanWord, .advance, .scanString]).pos =
    ⟨2, 3, 6⟩ := by decide +kernel

end FloorPlan
