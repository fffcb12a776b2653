/-! # The exact value of a float

A finite float is `± m · 2^e`. Its value is handled here as a fraction of natural numbers, so
that whole parts and distances carry no rounding of their own. -/

namespace FloorPlan.Number

open Float.Model

/-- `m · 2^e` as numerator and denominator. -/
def fraction (m : Nat) (e : Int) : Nat × Nat :=
  if 0 ≤ e then (m * Nat.pow 2 e.toNat, 1) else (m, Nat.pow 2 (-e).toNat)

/-- The integer that a float is equal to. -/
def whole? (x : Float) : Option Int :=
  match x.toModel.unpack with
  | .infinity _ | .notANumber => none
  | .zero _ => some 0
  | .finite s m e _ =>
    let (a, b) := fraction m e
    if a % b = 0 then some (s.apply (a / b : Nat)) else none

/-- Why a float has no whole part. -/
inductive Unbounded where
  | infinite
  | undefined
  deriving DecidableEq, Repr

/-- The greatest integer that is at most `x`. -/
def floor (x : Float) : Except Unbounded Int :=
  match x.toModel.unpack with
  | .infinity _ => .error .infinite
  | .notANumber => .error .undefined
  | .zero _ => .ok 0
  | .finite s m e _ =>
    let (a, b) := fraction m e
    .ok (s.apply a / b)

/-- The square of a float, as `m · 2^e`; no bound and no rounding applies to it. -/
def square (x : Float) : Nat × Int :=
  match x.toModel.unpack with
  | .finite _ m e _ => (m * m, 2 * e)
  | _ => (0, 0)

/-- `a.1 · 2^a.2 + b.1 · 2^b.2`, exactly. -/
def addDyadic (a b : Nat × Int) : Nat × Int :=
  let e := min a.2 b.2
  (a.1 * Nat.pow 2 (a.2 - e).toNat + b.1 * Nat.pow 2 (b.2 - e).toNat, e)

/-- The float nearest to the square root of `m · 2^e`. -/
def nearestSqrt (m : Nat) (e : Int) : Float :=
  if h : 0 < m then
    Float.ofModel (Float.Model.pack (UnpackedFloat.sqrt Format.binary64 (.finite .positive m e h)))
  else 0

/-- The distance of `(dx, dy)` from the origin, correctly rounded. A library's `hypot` is documented
only to within one unit in the last place, so its last bit may differ from this one. An infinite
component makes the distance infinite, whatever the other component is. -/
def distance (dx dy : Float) : Float :=
  if dx.isInf || dy.isInf then 1 / 0
  else if dx.isNaN || dy.isNaN then 0 / 0
  else
    let (m, e) := addDyadic (square dx) (square dy)
    nearestSqrt m e

end FloorPlan.Number
