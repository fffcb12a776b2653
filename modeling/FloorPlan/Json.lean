import FloorPlan.Number.Layout
import FloorPlan.Text.Quoted

/-! # JSON texts

Values whose objects keep the order of their members, and their text, either on one line or
indented. The text is ASCII: every other character is written as UTF-16 code units. -/

namespace FloorPlan

/-- A JSON value with ordered members. -/
inductive Json where
  | number (x : Float)
  | text (s : String)
  | list (xs : List Json)
  | object (ms : List (String × Json))

namespace Json

/-- A code unit as an escape. -/
def escapeUnit (n : Nat) : List Char := '\\' :: 'u' :: Text.hexDigits 4 n

/-- A character inside a text. -/
def escapeChar (c : Char) : List Char :=
  if c = '"' then ['\\', '"']
  else if c = '\\' then ['\\', '\\']
  else if c = '\n' then ['\\', 'n']
  else if c = '\r' then ['\\', 'r']
  else if c = '\t' then ['\\', 't']
  else if c = Char.ofNat 0x08 then ['\\', 'b']
  else if c = Char.ofNat 0x0c then ['\\', 'f']
  else if ' ' ≤ c && c ≤ '~' then [c]
  else if c.toNat < 0x10000 then escapeUnit c.toNat
  else
    let n := c.toNat - 0x10000
    escapeUnit (0xd800 + n / 0x400) ++ escapeUnit (0xdc00 + n % 0x400)

/-- A text in double quotes. -/
def quote (s : String) : List Char := '"' :: s.toList.flatMap escapeChar ++ ['"']

/-- The break before an item at a depth: with an indent a new line and its blanks, else
nothing. -/
def lineBreak (indent : Option Int) (depth : Nat) : List Char :=
  match indent with
  | some n => '\n' :: List.replicate (n.toNat * depth) ' '
  | none => []

/-- What stands between two items at a depth. -/
def separator (indent : Option Int) (depth : Nat) : List Char :=
  match indent with
  | some _ => ',' :: lineBreak indent depth
  | none => [',', ' ']

/-- The name of a member with its colon. -/
def label (name : String) : List Char := quote name ++ [':', ' ']

mutual

/-- The text of a value that starts at a depth. -/
def write (indent : Option Int) (depth : Nat) : Json → List Char
  | number x => (Number.json.write x).toList
  | text s => quote s
  | list [] => ['[', ']']
  | list (x :: xs) =>
    '[' :: lineBreak indent (depth + 1) ++ write indent (depth + 1) x ++
      (writeItems indent (depth + 1) xs ++ (lineBreak indent depth ++ [']']))
  | object [] => ['{', '}']
  | object ((name, x) :: ms) =>
    '{' :: lineBreak indent (depth + 1) ++ label name ++ write indent (depth + 1) x ++
      (writeMembers indent (depth + 1) ms ++ (lineBreak indent depth ++ ['}']))

/-- The items after the first one. -/
def writeItems (indent : Option Int) (depth : Nat) : List Json → List Char
  | [] => []
  | x :: xs => separator indent depth ++ write indent depth x ++ writeItems indent depth xs

/-- The members after the first one. -/
def writeMembers (indent : Option Int) (depth : Nat) : List (String × Json) → List Char
  | [] => []
  | (name, x) :: ms =>
    separator indent depth ++ label name ++ write indent depth x ++ writeMembers indent depth ms

end

/-- The text of a value. -/
def render (indent : Option Int) (v : Json) : String := String.ofList (write indent 0 v)

end Json

end FloorPlan
