import FloorPlan.Text.Blank
import FloorPlan.Text.Digit

/-! # Reading numbers

Decimal and hexadecimal numbers as people write them: blanks around them, a sign, digits of
any script, and single underscores between digits. -/

namespace FloorPlan.Number

open FloorPlan.Text

/-- The blanks allowed around a number: all but the information separators. -/
def isMargin (c : Char) : Bool := isBlank c && !(0x1c ≤ c.toNat && c.toNat ≤ 0x1f)

/-- The characters of a number without its margin, digits in plain form. -/
def numberChars (s : String) : List Char :=
  (stripBy isMargin s.toList).map plainDigit

/-- Splits a sign off; the flag tells a minus. -/
def splitSign : List Char → Bool × List Char
  | '-' :: cs => (true, cs)
  | '+' :: cs => (false, cs)
  | cs => (false, cs)

/-- Removes the underscores, each of which has to stand between two digits of the class `p`;
`after` tells whether a digit comes right before. -/
def joinDigits? (p : Char → Bool) (after : Bool) : List Char → Option (List Char)
  | [] => some []
  | '_' :: cs =>
    match cs with
    | d :: _ => if after && p d then joinDigits? p false cs else none
    | [] => none
  | c :: cs => (joinDigits? p (p c) cs).map (c :: ·)

/-- The value of a run of decimal digits. -/
def decimalValue (ds : List Char) : Nat :=
  ds.foldl (fun n d => 10 * n + (d.toNat - '0'.toNat)) 0

/-- The exponent part of a decimal number, which may be absent. -/
def readExponent? : List Char → Option Int
  | [] => some 0
  | c :: cs =>
    if c = 'e' || c = 'E' then
      let (minus, ds) := splitSign cs
      if ds.isEmpty || !ds.all Char.isDigit then none
      else some (if minus then -(decimalValue ds : Int) else decimalValue ds)
    else none

/-- A decimal number without sign: digits, a point and digits, an exponent. Some digit has to
stand beside the point. -/
def readUnsigned? (cs : List Char) : Option Float :=
  let before := cs.takeWhile Char.isDigit
  let afterInt := cs.dropWhile Char.isDigit
  let (fraction, tail) := match afterInt with
    | '.' :: r => (r.takeWhile Char.isDigit, r.dropWhile Char.isDigit)
    | r => ([], r)
  if before.isEmpty && fraction.isEmpty then none
  else
    (readExponent? tail).map fun e =>
      let e : Int := e - fraction.length
      Float.ofScientific (decimalValue (before ++ fraction)) (e < 0) e.natAbs

/-- The names of the values that have no digits. -/
def readNamed? (cs : List Char) : Option Float :=
  let name := String.ofList (cs.map Char.toLower)
  if name = "inf" || name = "infinity" then some (1 / 0)
  else if name = "nan" then some (0 / 0)
  else none

/-- Reads a float, rounded to the nearest one. -/
def readFloat? (s : String) : Option Float :=
  let (minus, cs) := splitSign (numberChars s)
  let value := match readNamed? cs with
    | some x => some x
    | none => (joinDigits? Char.isDigit false cs).bind readUnsigned?
  value.map fun x => if minus then -x else x

/-- The value of a hexadecimal digit. -/
def hexValue? (c : Char) : Option Nat :=
  if c.isDigit then some (c.toNat - '0'.toNat)
  else if 'a' ≤ c && c ≤ 'f' then some (c.toNat - 'a'.toNat + 10)
  else if 'A' ≤ c && c ≤ 'F' then some (c.toNat - 'A'.toNat + 10)
  else none

/-- The digits after an optional `0x`, which one underscore may follow. -/
def dropHexMark : List Char → List Char
  | '0' :: x :: cs =>
    if x = 'x' || x = 'X' then
      match cs with
      | '_' :: ds => ds
      | ds => ds
    else '0' :: x :: cs
  | cs => cs

/-- Reads a hexadecimal integer. -/
def readHex? (s : String) : Option Int :=
  let (minus, cs) := splitSign (numberChars s)
  match joinDigits? (fun c => (hexValue? c).isSome) false (dropHexMark cs) with
  | none | some [] => none
  | some ds =>
    (ds.mapM hexValue?).map fun vs =>
      let n : Nat := vs.foldl (fun n v => 16 * n + v) 0
      if minus then -(n : Int) else n

/-! ### What is read and what is not -/

example : [" 1_000", ".5", "1e-400", "-Infinity"].map readFloat? =
    [some 1000, some 0.5, some 0, some (-1 / 0)] := by decide +kernel

example : ["", "1__0", "1_", "2 3", "1e"].map readFloat? = List.replicate 5 none := by
  decide +kernel

example : ["-1", " f", "0x_1f", "1_", "0x", "zz"].map readHex? =
    [some (-1), some 15, some 31, none, none, none] := by decide +kernel

end FloorPlan.Number
