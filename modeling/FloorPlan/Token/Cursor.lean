import FloorPlan.Token.Lexeme
import FloorPlan.Fault

/-! # Reading a source from front to back

A cursor stands between the characters read, the latest first, and the characters ahead, and
knows its position. Each scanner reads one kind of front, whether or not it is there. -/

namespace FloorPlan

/-- A character that no token starts with. -/
structure LexError where
  char : Char
  position : Position
  deriving DecidableEq, Repr

/-- The words of a lexical error. -/
def LexError.message (e : LexError) : String :=
  "Unexpected character " ++ Text.quote (String.singleton e.char) ++ " at " ++ e.position.text

/-- A place in a source with the text on both sides. -/
structure Cursor where
  past : List Char
  rest : List Char
  pos : Position
  deriving DecidableEq, Repr

namespace Cursor

/-- The cursor before a source. -/
def ofSource (s : String) : Cursor := ⟨[], s.toList, .start⟩

/-- Whether nothing is ahead. -/
def atEnd (c : Cursor) : Bool := c.rest.isEmpty

/-- Moves over `n` characters, or to the end. -/
def move (c : Cursor) (n : Nat) : Cursor :=
  ⟨(c.rest.take n).reverse ++ c.past, c.rest.drop n, c.pos.after (c.rest.take n)⟩

@[simp] theorem move_rest (c : Cursor) (n : Nat) : (c.move n).rest = c.rest.drop n := rfl

/-- The character at a distance from the cursor; past the end there is a null character. Places
before the source count back from its end. -/
def peek (c : Cursor) (offset : Int) : Except Fault Char :=
  if 0 ≤ offset then .ok (c.rest.getD offset.toNat (Char.ofNat 0))
  else
    match (c.past ++ c.rest.reverse ++ c.past)[(-offset).toNat - 1]? with
    | some ch => .ok ch
    | none => .error .noCharacter

/-- Reads one character, or nothing at the end. -/
def advance (c : Cursor) : List Char × Cursor := (c.rest.take 1, c.move 1)

/-- Moves over blanks. -/
def skipBlanks (c : Cursor) : Cursor := c.move (c.rest.takeWhile Text.isBlank).length

/-- Moves over a comment, whose opening mark is taken for granted. -/
def skipComment (c : Cursor) : Cursor := c.move (commentWidth c.rest)

/-- Moves over a token. -/
def scan (c : Cursor) (kind : Kind) (value : List Char) (width : Nat) : Token × Cursor :=
  let c' := c.move width
  (⟨kind, String.ofList value, c.pos, c'.pos⟩, c')

@[simp] theorem scan_rest (c : Cursor) (kind : Kind) (value : List Char) (width : Nat) :
    (c.scan kind value width).2.rest = c.rest.drop width := rfl

/-- Reads a string delimited by the character ahead. -/
def scanString (c : Cursor) : Token × Cursor :=
  c.scan .string (stringFront c.rest).1 (stringFront c.rest).2

/-- Reads a number, which is empty when no digit is ahead. -/
def scanNumber (c : Cursor) : Token × Cursor :=
  c.scan .number (c.rest.take (numberWidth c.rest)) (numberWidth c.rest)

/-- Reads a word, which may be empty. -/
def scanWord (c : Cursor) : Token × Cursor :=
  let w := c.rest.take (wordWidth c.rest)
  c.scan (wordKind w) w (wordWidth c.rest)

/-- All tokens ahead, closed by the ending token; the cursor is left at the end or before the
first character that no token starts with. -/
def tokens (c : Cursor) : Except LexError (List Token) × Cursor :=
  match _hr : c.rest with
  | [] => (.ok [Token.ending c.pos], c)
  | ch :: cs =>
    match _hl : Lexeme.front? ch cs with
    | none => (.error ⟨ch, c.pos⟩, c)
    | some (.gap width) => tokens (c.move width)
    | some (.token kind value width) =>
      let scanned := c.scan kind value width
      let rest := tokens scanned.2
      (rest.1.map (scanned.1 :: ·), rest.2)
termination_by c.rest.length
decreasing_by
  all_goals
    have := Lexeme.width_pos _hl
    simp [Lexeme.width] at this
    simp [_hr]
    omega

end Cursor

/-- The tokens of a source. -/
def tokenize (source : String) : Except LexError (List Token) :=
  (Cursor.ofSource source).tokens.1

end FloorPlan
