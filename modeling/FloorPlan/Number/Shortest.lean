import FloorPlan.Number.Exact

/-! # The fewest decimal digits that read back

The reals that round to `m · 2^q` form an interval around it, closed when `m` is even. Of the
decimals with the fewest digits in that interval, `shortest` is the nearest to the value. For
each number of digits only the two neighbours of the value on that decimal grid can be it. -/

namespace FloorPlan.Number

/-- The decimal `digits · 10^exponent`. -/
structure Decimal where
  digits : Nat
  exponent : Int
  deriving DecidableEq, Repr

/-- The number of decimal digits of a positive number. -/
def digitCount (n : Nat) : Nat := (Nat.toDigits 10 n).length

/-- The place of the decimal point of `a / b`: the least `p` with `a / b < 10^p`. -/
def pointPlace (a b : Nat) : Int :=
  if b ≤ a then digitCount (a / b) else 1 - digitCount ((b - 1) / a)

/-- `10^k` as numerator and denominator. -/
def powerOfTen (k : Int) : Nat × Nat :=
  if 0 ≤ k then (Nat.pow 10 k.toNat, 1) else (1, Nat.pow 10 (-k).toNat)

/-- The interval of the reals that round to `m · 2^q`, in quarters of `2^q`. Below a power of
two the floats lie twice as close. -/
def quarters (m : Nat) (q : Int) : Nat × Nat :=
  (if m = Nat.pow 2 52 ∧ -1074 < q then 4 * m - 1 else 4 * m - 2, 4 * m + 2)

/-- The multiple of `10^k` in the interval of `m · 2^q` that is nearest to the value, if the
value's neighbours on that grid hit the interval; `c` stands for `c · 10^k`. -/
def onGrid? (m : Nat) (q k : Int) : Option Nat :=
  let (n, d) := fraction 1 (q - 2)
  let (tn, td) := powerOfTen k
  let unit := n * td
  let grid := d * tn
  let (lo, hi) := quarters m q
  let hits := fun c : Nat =>
    if m % 2 = 0 then lo * unit ≤ c * grid && c * grid ≤ hi * unit
    else lo * unit < c * grid && c * grid < hi * unit
  let value := 4 * m * unit
  let c := value / grid
  match hits c, hits (c + 1) with
  | true, true =>
    let below := value - c * grid
    let above := (c + 1) * grid - value
    if below < above || (below = above && c % 2 = 0) then some c else some (c + 1)
  | true, false => some c
  | false, true => some (c + 1)
  | false, false => none

/-- The decimal with the fewest digits that rounds to `m · 2^q`, for `0 < m`. Seventeen digits
are always enough. -/
def shortest (m : Nat) (q : Int) : Decimal :=
  let (a, b) := fraction m q
  let p := pointPlace a b
  let found := (List.range 17).findSome? fun (n : Nat) =>
    (onGrid? m q (p - (n + 1 : Nat))).map fun c => Decimal.mk c (p - (n + 1 : Nat))
  found.getD ⟨0, 0⟩

end FloorPlan.Number
