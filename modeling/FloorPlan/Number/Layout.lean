import FloorPlan.Number.Shortest

/-! # Writing floats

A finite float is written with the fewest digits that read back, positionally for moderate
exponents and with an exponent mark otherwise. What a format decides is a `Layout`. -/

namespace FloorPlan.Number

open Float.Model

/-- The decisions of a number format. -/
structure Layout where
  /-- The least decimal exponent that is written positionally. -/
  leastExponent : Int
  /-- The least decimal exponent above the positional ones. -/
  exponentLimit : Int
  /-- The least number of digits of a written exponent. -/
  exponentWidth : Nat
  /-- The text of infinity. -/
  infinity : String
  /-- The text of an undefined result. -/
  notANumber : String

/-- The layout of messages and style sheets. -/
def plain : Layout := ⟨-4, 16, 2, "inf", "nan"⟩

/-- The layout of JSON texts, which name the special values in full. -/
def json : Layout := ⟨-4, 16, 2, "Infinity", "NaN"⟩

/-- The digits of a number without the zeros at their end. -/
def significant (n : Nat) : List Char :=
  ((Nat.toDigits 10 n).reverse.dropWhile (· = '0')).reverse

/-- Digits `ds` with the point before the digit at `point`, at least one digit on each side. -/
def positional (ds : List Char) (point : Int) : List Char :=
  let n := point.toNat
  if point ≤ 0 then '0' :: '.' :: List.replicate (-point).toNat '0' ++ ds
  else if ds.length ≤ n then ds ++ List.replicate (n - ds.length) '0' ++ ['.', '0']
  else ds.take n ++ '.' :: ds.drop n

/-- A decimal exponent with its sign and at least `width` digits. -/
def exponentText (width : Nat) (e : Int) : List Char :=
  let ds := Nat.toDigits 10 e.natAbs
  (if e < 0 then '-' else '+') :: List.replicate (width - ds.length) '0' ++ ds

/-- Digits `ds` in scientific form: one digit before the point, then the exponent. -/
def scientific (width : Nat) (ds : List Char) (e : Int) : List Char :=
  let tail := ds.drop 1
  ds.take 1 ++ (if tail.isEmpty then [] else '.' :: tail) ++ 'e' :: exponentText width e

/-- A positive decimal in a layout. -/
def Layout.decimal (l : Layout) (d : Decimal) : List Char :=
  let ds := significant d.digits
  let point := d.exponent + digitCount d.digits
  if l.leastExponent ≤ point - 1 ∧ point - 1 < l.exponentLimit then positional ds point
  else scientific l.exponentWidth ds (point - 1)

/-- The text of a sign. -/
def signText : UnpackedFloat.Sign → String
  | .positive => ""
  | .negative => "-"

/-- A float in a layout. -/
def Layout.write (l : Layout) (x : Float) : String :=
  match x.toModel.unpack with
  | .notANumber => l.notANumber
  | .infinity s => signText s ++ l.infinity
  | .zero s => signText s ++ "0.0"
  | .finite s m e _ => signText s ++ String.ofList (l.decimal (shortest m e))

/-- A number of a style sheet: a float, or an integer of any size. -/
inductive Amount where
  | real (x : Float)
  | whole (n : Int)

/-- The text of an integer. -/
def integerText (n : Int) : String :=
  if n < 0 then "-" ++ n.natAbs.repr else n.natAbs.repr

/-- A float that is equal to an integer is written as that integer, all digits and without the
sign of zero; any other float in the plain layout. -/
def compact (x : Float) : String :=
  match whole? x with
  | some n => integerText n
  | none => plain.write x

/-- The text of an amount. -/
def Amount.text : Amount → String
  | .real x => compact x
  | .whole n => integerText n

/-- An amount as a percentage. -/
def Amount.percent : Amount → Amount
  | .real x => .real (x * 100)
  | .whole n => .whole (n * 100)

/-! ### Where the notations meet -/

example : [1e15, 1e16, 0.0001, 0.00001].map plain.write =
    ["1000000000000000.0", "1e+16", "0.0001", "1e-05"] := by decide +kernel

example : [-0.0, 5e-324, 0.1 + 0.2, 1 / 0].map json.write =
    ["-0.0", "5e-324", "0.30000000000000004", "Infinity"] := by decide +kernel

example : [-0.0, 48, 1e23, 0.15].map compact =
    ["0", "48", "99999999999999991611392", "0.15"] := by decide +kernel

end FloorPlan.Number
