import FloorPlan.Token
import FloorPlan.Text.Blank

/-! # What stands at the front of a text

The front of a non-empty text is a gap (blanks or a comment), a token, or a character that no
token starts with. The widths below count characters and depend on the text ahead only.
`Lexeme.width_pos` says that the front is never empty. -/

namespace FloorPlan

/-- A character that a word can start with. -/
def isWordStart (c : Char) : Bool := c.isAlpha || c = '_'

/-- A character inside a word. -/
def isWordChar (c : Char) : Bool := isWordStart c || c.isDigit || c = '-'

/-- A quotation mark that opens a string. -/
def isQuote (c : Char) : Bool := c = '"' || c = '\''

/-- The character that a backslash and `c` stand for inside a string. -/
def unescape (c : Char) : Char :=
  if c = 'n' then '\n' else if c = 't' then '\t' else if c = 'r' then '\r' else c

/-- The value of a string after its opening quote `q`, and its width up to the end of the closing
quote. A string may end with the text, even after a backslash. -/
def stringTail (q : Char) : List Char → List Char × Nat
  | [] => ([], 0)
  | c :: cs =>
    if c = q then ([], 1)
    else if c = '\\' then
      match cs with
      | [] => ([], 1)
      | e :: es =>
        let (value, width) := stringTail q es
        (unescape e :: value, width + 2)
    else
      let (value, width) := stringTail q cs
      (c :: value, width + 1)

/-- The value and width of the string that the first character opens. -/
def stringFront : List Char → List Char × Nat
  | [] => ([], 0)
  | q :: cs =>
    let (value, width) := stringTail q cs
    (value, width + 1)

/-- The number of digits at the front. -/
def digitsWidth (cs : List Char) : Nat := (cs.takeWhile Char.isDigit).length

/-- The width of a number: digits, then a point with at least one digit after it. -/
def numberWidth (cs : List Char) : Nat :=
  let n := digitsWidth cs
  match cs.drop n with
  | '.' :: ds => if digitsWidth ds = 0 then n else n + 1 + digitsWidth ds
  | _ => n

/-- The width of a word; after `@`, digits alone make a section mark. -/
def wordWidth : List Char → Nat
  | [] => 0
  | c :: cs =>
    if c = '@' then
      1 + if digitsWidth cs = 0 then (cs.takeWhile isWordChar).length else digitsWidth cs
    else ((c :: cs).takeWhile isWordChar).length

/-- The kind of a word with the characters `w`. -/
def wordKind (w : List Char) : Kind :=
  match w with
  | '@' :: d :: _ => if d.isDigit then .hierarchy else Kind.ofWord (String.ofList w)
  | _ => Kind.ofWord (String.ofList w)

/-- The width of a comment's text up to the end of its closing mark; an unclosed comment takes
the rest of the text. -/
def closingWidth : List Char → Nat
  | [] => 0
  | c :: cs => if c = '*' ∧ cs.head? = some '/' then 2 else 1 + closingWidth cs

/-- The width of a comment, opening mark included. -/
def commentWidth (cs : List Char) : Nat := 2 + closingWidth (cs.drop 2)

/-- The front of a text. -/
inductive Lexeme where
  /-- Blanks or a comment. -/
  | gap (width : Nat)
  /-- A token with its value. -/
  | token (kind : Kind) (value : List Char) (width : Nat)
  deriving DecidableEq, Repr

namespace Lexeme

/-- The number of characters that a front takes. -/
def width : Lexeme → Nat
  | gap n => n
  | token _ _ n => n

/-- A token whose value is the text that it takes. -/
def verbatim (kind : List Char → Kind) (n : Nat) (cs : List Char) : Lexeme :=
  token (kind (cs.take n)) (cs.take n) n

/-- The front of the text `c :: cs`, unless no token starts with `c`. -/
def front? (c : Char) (cs : List Char) : Option Lexeme :=
  if Text.isBlank c then some (gap (1 + (cs.takeWhile Text.isBlank).length))
  else if c = '/' ∧ cs.head? = some '*' then some (gap (commentWidth (c :: cs)))
  else if isQuote c then
    let (value, width) := stringFront (c :: cs)
    some (token .string value width)
  else if c.isDigit then some (verbatim (fun _ => .number) (numberWidth (c :: cs)) (c :: cs))
  else if isWordStart c ∨ c = '@' then
    some (verbatim wordKind (wordWidth (c :: cs)) (c :: cs))
  else (Kind.ofMark? c).map fun k => token k [c] 1

theorem digitsWidth_pos {c : Char} (h : c.isDigit = true) (cs : List Char) :
    0 < digitsWidth (c :: cs) := by
  simp [digitsWidth, h]

theorem numberWidth_pos {c : Char} (h : c.isDigit = true) (cs : List Char) :
    0 < numberWidth (c :: cs) := by
  have := digitsWidth_pos h cs
  unfold numberWidth
  simp only
  split
  · split <;> omega
  · assumption

theorem wordWidth_pos {c : Char} (h : isWordStart c = true ∨ c = '@') (cs : List Char) :
    0 < wordWidth (c :: cs) := by
  simp only [wordWidth]
  split
  · omega
  · rename_i hc
    simp [isWordChar, h.resolve_right hc]

/-- A front takes at least one character. -/
theorem width_pos {c : Char} {cs : List Char} {l : Lexeme} (h : front? c cs = some l) :
    0 < l.width := by
  unfold front? at h
  split at h
  · cases h
    show 0 < 1 + (cs.takeWhile Text.isBlank).length
    omega
  · split at h
    · cases h
      show 0 < 2 + closingWidth ((c :: cs).drop 2)
      omega
    · split at h
      · cases h; simp [width]
      · split at h
        · rename_i hd
          cases h; exact numberWidth_pos hd cs
        · split at h
          · rename_i hw
            cases h; exact wordWidth_pos hw cs
          · obtain ⟨k, _, rfl⟩ := Option.map_eq_some_iff.1 h
            simp [width]

end Lexeme

end FloorPlan
