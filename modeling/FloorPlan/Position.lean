/-! # Places in a source text

Lines and columns count from one, offsets from zero, all in characters. Only a newline starts a
new line. -/

namespace FloorPlan

/-- A place between two characters of a source text. -/
structure Position where
  line : Nat
  column : Nat
  offset : Nat
  deriving DecidableEq, Repr

namespace Position

/-- The place before the first character. -/
def start : Position := ⟨1, 1, 0⟩

/-- The place after one more character. -/
def step (p : Position) (c : Char) : Position :=
  if c = '\n' then ⟨p.line + 1, 1, p.offset + 1⟩
  else ⟨p.line, p.column + 1, p.offset + 1⟩

/-- The place after more characters. -/
def after (p : Position) (cs : List Char) : Position := cs.foldl step p

/-- A place as messages name it. -/
def text (p : Position) : String :=
  "line " ++ p.line.repr ++ ", col " ++ p.column.repr

@[simp] theorem after_nil (p : Position) : p.after [] = p := rfl

@[simp] theorem after_cons (p : Position) (c : Char) (cs : List Char) :
    p.after (c :: cs) = (p.step c).after cs := rfl

theorem after_append (p : Position) (as bs : List Char) :
    p.after (as ++ bs) = (p.after as).after bs := by
  simp [after]

@[simp] theorem step_offset (p : Position) (c : Char) : (p.step c).offset = p.offset + 1 := by
  unfold step; split <;> rfl

@[simp] theorem after_offset (p : Position) (cs : List Char) :
    (p.after cs).offset = p.offset + cs.length := by
  induction cs generalizing p with
  | nil => rfl
  | cons c cs ih => simp [ih]; omega

end Position

/-- A stretch of a source text. -/
structure Span where
  start : Position
  stop : Position
  deriving DecidableEq, Repr

/-- A stretch is named by its first place. -/
def Span.text (s : Span) : String := s.start.text

end FloorPlan
