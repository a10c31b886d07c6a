import EntityQuery.Number.Double

/-!
The shortest decimal of a number: the fewest digits that still read back as it, and of the
decimals with that many digits the nearest one. All arithmetic is on naturals.

A finite `x` is `significand * 2 ^ scale`. The reals that round to `x` form an interval that
reaches half way to the neighbours of `x`; its ends belong to it if the significand is even.
Counted in quarters of the last place, the interval runs from `4 * significand - 2` (or `- 1`
just above a power of two, where the neighbour below is twice as near) to
`4 * significand + 2`.
-/

namespace EntityQuery

/-- The decimal `digits * 10 ^ exponent`. -/
structure Decimal where
  digits : Nat
  exponent : Int
deriving DecidableEq, Repr

namespace Decimal

/-- Moves trailing zeros of the digits into the exponent, at most `n` of them. -/
def stripZeros : Nat → Decimal → Decimal
  | 0, d => d
  | n + 1, d =>
      if d.digits ≠ 0 ∧ d.digits % 10 = 0 then stripZeros n ⟨d.digits / 10, d.exponent + 1⟩
      else d

end Decimal

/-- The reals that round to a number, as three numerators over one denominator. -/
structure RoundingInterval where
  low : Nat
  value : Nat
  high : Nat
  denominator : Nat
  /-- Whether the ends belong to the interval. -/
  closed : Bool
deriving DecidableEq, Repr

namespace RoundingInterval

/-- The interval of a finite number that is not zero. -/
def ofDouble (x : Double) : RoundingInterval :=
  let m := x.significand
  let quarter := x.scale - 2
  let up := Nat.pow 2 quarter.toNat
  let below := if x.fractionBits = 0 ∧ 1 < x.exponentBits then 1 else 2
  { low := (4 * m - below) * up
    value := 4 * m * up
    high := (4 * m + 2) * up
    denominator := Nat.pow 2 (-quarter).toNat
    closed := m % 2 = 0 }

/-- Whether the fraction `n / d` lies in the interval. -/
def contains (i : RoundingInterval) (n d : Nat) : Bool :=
  let n := n * i.denominator
  if i.closed then i.low * d ≤ n && n ≤ i.high * d else i.low * d < n && n < i.high * d

/-- The power of ten at or below the value, counted down from `10 ^ k` in at most `n` steps. -/
def magnitudeFrom (i : RoundingInterval) : Nat → Int → Int
  | 0, k => k
  | n + 1, k =>
      if Nat.pow 10 k.toNat * i.denominator ≤ i.value * Nat.pow 10 (-k).toNat then k
      else i.magnitudeFrom n (k - 1)

/-- The exponent of the first digit; every finite number lies below `10 ^ 309` and, unless
zero, above `10 ^ (-324)`. -/
def magnitude (i : RoundingInterval) : Int := i.magnitudeFrom 640 309

/-- The nearest decimal with `n` digits, if it or its other neighbour on that grid reads back
as the number. A tie goes to the even digit. -/
def nearest? (i : RoundingInterval) (n : Nat) : Option Decimal :=
  let exponent := i.magnitude - n + 1
  let up := Nat.pow 10 exponent.toNat
  let down := Nat.pow 10 (-exponent).toNat
  let step := up * i.denominator
  let scaled := i.value * down
  let floor := scaled / step
  let rest := scaled % step
  let lower := i.contains (floor * up) down
  let upper := i.contains ((floor + 1) * up) down
  let preferUpper := step < 2 * rest || (2 * rest == step && floor % 2 == 1)
  match lower, upper with
  | true, true => some ⟨if preferUpper then floor + 1 else floor, exponent⟩
  | true, false => some ⟨floor, exponent⟩
  | false, true => some ⟨floor + 1, exponent⟩
  | false, false => none

end RoundingInterval

/-- The shortest decimal that reads back as a finite number other than zero, without its sign.
Seventeen digits always suffice. -/
def Double.shortest (x : Double) : Decimal :=
  let i := RoundingInterval.ofDouble x
  let found := (List.range 17).findSome? fun n => i.nearest? (n + 1)
  (found.getD ⟨x.significand, x.scale⟩).stripZeros 20

end EntityQuery
