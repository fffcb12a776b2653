import FloorPlan.Token
import FloorPlan.Diagnostic
import FloorPlan.Fault

/-! # Parsing state

A parser stands between the tokens taken, the latest first, and the tokens ahead. The ending
token is kept apart: it is seen when nothing is ahead, and it is never taken. All movement is
`Parser.move`, so parsing only goes forward. -/

namespace FloorPlan

/-- The state of a parser. -/
structure Parser where
  /-- The tokens taken, the latest first. -/
  past : List Token
  /-- The tokens ahead, without the ending token. -/
  rest : List Token
  /-- The ending token. -/
  ending : Token
  /-- By how much the parser's index differs from the number of tokens taken. It is zero unless
  the parser was sent to an index outside the list. -/
  shift : Int
  /-- The problems found so far. -/
  messages : Diagnostics
  /-- The ending token is one. -/
  ending_kind : ending.kind = .endOfInput

namespace Parser

/-- Whether a token counts for the grammar. -/
def counts (t : Token) : Bool := t.kind != .blank && t.kind != .comment

/-- A parser before a list of tokens. A list without an ending token gets one where it ends. -/
def ofTokens (ts : List Token) : Parser :=
  let ts := ts.filter counts
  match ts.getLast? with
  | none => ⟨[], [], Token.ending .start, 0, [], rfl⟩
  | some t =>
    if h : t.kind = .endOfInput then ⟨[], ts.dropLast, t, 0, [], h⟩
    else ⟨[], ts, Token.ending t.stop, 0, [], rfl⟩

/-- The token ahead. -/
def current (s : Parser) : Token := s.rest.headD s.ending

/-- The token after the one ahead. -/
def next (s : Parser) : Token := (s.rest.drop 1).headD s.ending

/-- Whether the token ahead has one of the given kinds. -/
def sees (s : Parser) (ks : List Kind) : Bool := ks.contains s.current.kind

/-- Takes `n` tokens, or all that are ahead. -/
def move (s : Parser) (n : Nat) : Parser :=
  { s with past := (s.rest.take n).reverse ++ s.past, rest := s.rest.drop n }

@[simp] theorem move_rest (s : Parser) (n : Nat) : (s.move n).rest = s.rest.drop n := rfl

/-- The index of the token ahead. -/
def index (s : Parser) : Int := s.past.length + s.shift

/-- All tokens, the ending token last. A negative index puts at most a second copy of them in
front, which is left out here. -/
def tokens (s : Parser) : List Token :=
  let all := s.past.reverse ++ s.rest ++ [s.ending]
  all.drop (min (-s.shift).toNat (all.length / 2))

/-- Whether the parser stands at a token. It does unless it was sent to an index that is before
the first token even when counted back from the last one. -/
def inside (s : Parser) : Bool := -s.tokens.length ≤ s.index

/-- The token at a distance from the one ahead, at most the ending token. Indexes before the
first token count back from the last one. -/
def peek (s : Parser) (offset : Int) : Except Fault Token :=
  let ts := s.tokens
  let i := min (s.index + offset) (ts.length - 1 : Nat)
  let i := if i < 0 then i + ts.length else i
  match (if i < 0 then none else ts[i.toNat]?) with
  | some t => .ok t
  | none => .error .noToken

/-- Sends the parser to an index. Behind the ending token there is nothing to take; a negative
index counts back from the last token, and reading goes on from there to the first one. -/
def seek (s : Parser) (i : Int) : Parser :=
  let ts := s.tokens
  let body := ts.dropLast
  if 0 ≤ i then
    let n := min i.toNat body.length
    { s with past := (body.take n).reverse, rest := body.drop n, shift := i - n }
  else { s with past := [], rest := ts.drop (ts.length - (-i).toNat) ++ body, shift := i }

/-- Adds a problem. -/
def report (s : Parser) (d : Diagnostic) : Parser := { s with messages := s.messages ++ [d] }

/-- Where the latest token ends, if there is one. -/
def lastStop? (s : Parser) : Option Position :=
  if s.shift ≤ 0 then s.past.head?.map (·.stop)
  else if s.shift = 1 then some s.ending.stop
  else none

end Parser

/-- A parsing step: it ends with a result or a fault, in a new state. -/
abbrev Parse := EStateM Fault Parser

namespace Parse

variable {α : Type}

/-- Runs `p` at a token; where there is none, there is nothing to read. -/
def atToken (p : Parse α) : Parse α := do
  if (← get).inside then p else throw .noToken

/-- Whether the token ahead has one of the given kinds. -/
def sees (ks : List Kind) : Parse Bool := return (← get).sees ks

/-- Takes the token ahead. -/
def take : Parse Token := modifyGet fun s => (s.current, s.move 1)

/-- Takes the tokens ahead that satisfy `p`. -/
def takeWhile (p : Token → Bool) : Parse (List Token) :=
  modifyGet fun s => (s.rest.takeWhile p, s.move (s.rest.takeWhile p).length)

/-- Takes the token ahead if it has one of the given kinds. -/
def accept? (ks : List Kind) : Parse (Option Token) := do
  if ← sees ks then some <$> take else return none

/-- Takes the token ahead if it has one of the given kinds, and tells whether it did. -/
def accepts (ks : List Kind) : Parse Bool := return (← accept? ks).isSome

/-- Takes a token of kind `k` if it is ahead, and tells whether a token of kind `l` follows. -/
def acceptsBefore (k l : Kind) : Parse Bool := do
  if ← accepts [k] then sees [l] else return false

/-- Takes the value of an identifier if one is ahead. -/
def identifier? : Parse (Option String) := return (← accept? [.identifier]).map (·.value)

/-- Reports an error at the token ahead. -/
def complain (text : String) (hint : Option String) : Parse Unit :=
  modify fun s => s.report (.error .grammar text s.current.span hint)

/-- Takes a token of kind `k`, or reports that it is missing. -/
def expect (k : Kind) : Parse (Option Token) := do
  match ← accept? [k] with
  | some t => return some t
  | none =>
    let found := (← get).current.kind
    complain ("Expected " ++ Text.quote k.text ++ ", got " ++ Text.quote found.text) none
    return none

/-- Takes a token of kind `k` for its value; a missing one has an empty value. -/
def expectValue (k : Kind) : Parse String := return ((← expect k).map (·.value)).getD ""

/-- Takes a token of kind `k` that only separates others. -/
def skip (k : Kind) : Parse Unit := discard (expect k)

/-- The stretch from `start` to the end of the latest token. -/
def spanFrom (start : Position) : Parse Span := do
  let s ← get
  if s.index ≤ 0 then return ⟨start, start⟩
  else
    match s.lastStop? with
    | some stop => return ⟨start, stop⟩
    | none => throw .noToken

/-- Runs `item` until a token of a kind in `stops` is ahead, and collects what it gives. A run
that takes no token is the last one. -/
def many (stops : List Kind) (item : Parse (Option α)) (s : Parser) :
    EStateM.Result Fault Parser (List α) :=
  if s.sees stops then .ok [] s
  else
    match item s with
    | .error fault s' => .error fault s'
    | .ok a s' =>
      if s'.rest.length < s.rest.length then
        match many stops item s' with
        | .error fault s'' => .error fault s''
        | .ok as s'' => .ok (a.toList ++ as) s''
      else .ok a.toList s'
termination_by s.rest.length

end Parse

end FloorPlan
