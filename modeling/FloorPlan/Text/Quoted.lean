import FloorPlan.Text.Printable

/-! # Texts between marks

In messages, a text is shown between single quotes, or between double quotes when it holds a single
quote and no double quote. Backslashes, the delimiter, line ends and tabs are escaped by a
backslash, other unprintable characters by their code point. Bodies of drawings and blocks of style
sheets stand between braces. -/

namespace FloorPlan.Text

/-- The brace that opens a block. -/
def leftBrace : String := String.singleton '{'

/-- The brace that closes a block. -/
def rightBrace : String := String.singleton '}'

/-- A text between braces. -/
def braced (s : String) : String := leftBrace ++ s ++ rightBrace

/-- The lower-case hexadecimal digits of `n`, padded with zeros to `width` places. -/
def hexDigits (width n : Nat) : List Char :=
  let ds := Nat.toDigits 16 n
  List.replicate (width - ds.length) '0' ++ ds

/-- The quotation mark that delimits a text. -/
def delimiter (cs : List Char) : Char :=
  if cs.contains '\'' && !cs.contains '"' then '"' else '\''

/-- One character inside a text delimited by `q`. -/
def quoteChar (q c : Char) : List Char :=
  if c = q || c = '\\' then ['\\', c]
  else if c = '\n' then ['\\', 'n']
  else if c = '\r' then ['\\', 'r']
  else if c = '\t' then ['\\', 't']
  else if isPrintable c then [c]
  else if c.toNat < 0x100 then '\\' :: 'x' :: hexDigits 2 c.toNat
  else if c.toNat < 0x10000 then '\\' :: 'u' :: hexDigits 4 c.toNat
  else '\\' :: 'U' :: hexDigits 8 c.toNat

/-- A text as it is shown in messages. -/
def quote (s : String) : String :=
  let q := delimiter s.toList
  String.ofList (q :: s.toList.flatMap (quoteChar q) ++ [q])

/-! ### The choice of quotation marks -/

example : ["a", "it's", "say \"it's\"", "\n\\"].map quote =
    ["'a'", "\"it's\"", "'say \"it\\'s\"'", "'\\n\\\\'"] := by decide +kernel

end FloorPlan.Text
