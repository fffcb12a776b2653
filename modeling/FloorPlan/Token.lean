import FloorPlan.Position
import FloorPlan.Text.Quoted

/-! # Tokens

The words, marks and literals of the drawing language. A kind has a name for listings of tokens
and a text for messages. -/

namespace FloorPlan

/-- The kind of a token. -/
inductive Kind where
  | identifier | number | string
  | atUnit | atDraw | atCanvas | atGrid | atModule | hierarchy
  | roomWord | wallWord | doorWord
  | importWord | exportWord | useWord | repeatWord | spaceWord | fromWord | asWord | withWord
  | defaultWord
  | atWord | sizeWord | betweenWord | widthWord | rotateWord | scaleWord | snapWord | toWord
  | offsetWord | xWord
  | gridWord | vlinesWord | hlinesWord | linesWord | dottedWord | colorWord | alphaWord
  | labelWord
  | leftParen | rightParen | leftBrace | rightBrace | leftBracket | rightBracket
  | comma | semicolon | colon | dot | equals
  | star | slash | plus | minus | hash
  | comment | blank | endOfInput
  deriving DecidableEq, Repr

namespace Kind

/-- The words with a kind of their own. -/
def words : List (String × Kind) :=
  [("@unit", atUnit), ("@draw", atDraw), ("@plan", atDraw), ("@canvas", atCanvas),
   ("@grid", atGrid), ("@module", atModule),
   ("room", roomWord), ("wall", wallWord), ("door", doorWord),
   ("import", importWord), ("export", exportWord), ("use", useWord), ("repeat", repeatWord),
   ("space", spaceWord), ("from", fromWord), ("as", asWord), ("with", withWord),
   ("default", defaultWord),
   ("at", atWord), ("size", sizeWord), ("between", betweenWord), ("width", widthWord),
   ("rotate", rotateWord), ("scale", scaleWord), ("snap", snapWord), ("to", toWord),
   ("offset", offsetWord), ("x", xWord),
   ("grid", gridWord), ("vlines", vlinesWord), ("hlines", hlinesWord), ("lines", linesWord),
   ("dotted", dottedWord), ("color", colorWord), ("alpha", alphaWord), ("label", labelWord)]

/-- The kind of a word; every word without a kind of its own is an identifier. -/
def ofWord (w : String) : Kind := (words.lookup w).getD identifier

/-- The one-character marks. -/
def marks : List (Char × Kind) :=
  [('(', leftParen), (')', rightParen), ('{', leftBrace), ('}', rightBrace),
   ('[', leftBracket), (']', rightBracket), (',', comma), (';', semicolon), (':', colon),
   ('.', dot), ('=', equals), ('*', star), ('/', slash), ('+', plus), ('-', minus), ('#', hash)]

/-- The kind of a mark. -/
def ofMark? (c : Char) : Option Kind := marks.lookup c

/-- The text of a kind in messages. -/
def text : Kind → String
  | identifier => "IDENTIFIER" | number => "NUMBER" | string => "STRING"
  | atUnit => "@unit" | atDraw => "@draw" | atCanvas => "@canvas" | atGrid => "@grid"
  | atModule => "@module" | hierarchy => "HIERARCHY"
  | roomWord => "room" | wallWord => "wall" | doorWord => "door"
  | importWord => "import" | exportWord => "export" | useWord => "use" | repeatWord => "repeat"
  | spaceWord => "space" | fromWord => "from" | asWord => "as" | withWord => "with"
  | defaultWord => "default"
  | atWord => "at" | sizeWord => "size" | betweenWord => "between" | widthWord => "width"
  | rotateWord => "rotate" | scaleWord => "scale" | snapWord => "snap" | toWord => "to"
  | offsetWord => "offset" | xWord => "x"
  | gridWord => "grid" | vlinesWord => "vlines" | hlinesWord => "hlines" | linesWord => "lines"
  | dottedWord => "dotted" | colorWord => "color" | alphaWord => "alpha"
  | labelWord => "label"
  | leftParen => "(" | rightParen => ")"
  | leftBrace => Text.leftBrace | rightBrace => Text.rightBrace
  | leftBracket => "[" | rightBracket => "]"
  | comma => "," | semicolon => ";" | colon => ":" | dot => "." | equals => "="
  | star => "*" | slash => "/" | plus => "+" | minus => "-" | hash => "#"
  | comment => "COMMENT" | blank => "WHITESPACE" | endOfInput => "EOF"

/-- The name of a kind in listings of tokens. -/
def name : Kind → String
  | identifier => "IDENTIFIER" | number => "NUMBER" | string => "STRING"
  | atUnit => "AT_UNIT" | atDraw => "AT_DRAW" | atCanvas => "AT_CANVAS" | atGrid => "AT_GRID"
  | atModule => "AT_MODULE" | hierarchy => "HIERARCHY"
  | roomWord => "ROOM" | wallWord => "WALL" | doorWord => "DOOR"
  | importWord => "IMPORT" | exportWord => "EXPORT" | useWord => "USE" | repeatWord => "REPEAT"
  | spaceWord => "SPACE" | fromWord => "FROM" | asWord => "AS" | withWord => "WITH"
  | defaultWord => "DEFAULT"
  | atWord => "AT" | sizeWord => "SIZE" | betweenWord => "BETWEEN" | widthWord => "WIDTH"
  | rotateWord => "ROTATE" | scaleWord => "SCALE" | snapWord => "SNAP" | toWord => "TO"
  | offsetWord => "OFFSET" | xWord => "X"
  | gridWord => "GRID" | vlinesWord => "VLINES" | hlinesWord => "HLINES" | linesWord => "LINES"
  | dottedWord => "DOTTED" | colorWord => "COLOR" | alphaWord => "ALPHA"
  | labelWord => "LABEL"
  | leftParen => "LPAREN" | rightParen => "RPAREN" | leftBrace => "LBRACE"
  | rightBrace => "RBRACE" | leftBracket => "LBRACKET" | rightBracket => "RBRACKET"
  | comma => "COMMA" | semicolon => "SEMICOLON" | colon => "COLON" | dot => "DOT"
  | equals => "EQUALS"
  | star => "MULTIPLY" | slash => "DIVIDE" | plus => "PLUS" | minus => "MINUS" | hash => "HASH"
  | comment => "COMMENT" | blank => "WHITESPACE" | endOfInput => "EOF"

/-- Every kind. -/
def all : List Kind :=
  [identifier, number, string, atUnit, atDraw, atCanvas, atGrid, atModule, hierarchy,
   roomWord, wallWord, doorWord, importWord, exportWord, useWord, repeatWord, spaceWord,
   fromWord, asWord, withWord, defaultWord, atWord, sizeWord, betweenWord, widthWord,
   rotateWord, scaleWord, snapWord, toWord, offsetWord, xWord, gridWord, vlinesWord,
   hlinesWord, linesWord, dottedWord, colorWord, alphaWord, labelWord, leftParen, rightParen,
   leftBrace, rightBrace, leftBracket, rightBracket, comma, semicolon, colon, dot, equals,
   star, slash, plus, minus, hash, comment, blank, endOfInput]

/-- The kind with a given name. -/
def ofName? (s : String) : Option Kind := all.find? (·.name == s)

end Kind

/-- A token with its place in the source. -/
structure Token where
  kind : Kind
  value : String
  start : Position
  stop : Position
  deriving DecidableEq, Repr

namespace Token

/-- The stretch of a token. -/
def span (t : Token) : Span := ⟨t.start, t.stop⟩

/-- A token in a listing: its kind's name and its value. -/
def listing (t : Token) : String :=
  "Token(" ++ t.kind.name ++ ", " ++ Text.quote t.value ++ ")"

/-- The token that ends a source at `p`. -/
def ending (p : Position) : Token := ⟨.endOfInput, "", p, p⟩

end Token

end FloorPlan
